import Shakedown.Settings.Basic
import Shakedown.Settings.Placeholder
import Shakedown.Toml.Document

/-!
Settings from the text of a TOML document.

A group of settings is a table, or an array with the settings in their fixed order. Entries are
looked at in the order of their keys, and unknown ones are passed over; then the first setting
that is missing is missed.
-/

namespace Shakedown

open Toml (Extent Slip Value)

namespace Toml

mutual

def Value.isSound : Value → Bool
  | .overflow => false
  | .array _ items => itemsAreSound items
  | .table _ entries => entriesAreSound entries
  | _ => true

def itemsAreSound : List (Extent × Value) → Bool
  | [] => true
  | (_, v) :: rest => v.isSound && itemsAreSound rest

def entriesAreSound : List (String × Extent × Value) → Bool
  | [] => true
  | (_, _, v) :: rest => v.isSound && entriesAreSound rest

end

/-- What a value of the wrong kind shows of itself; a date counts as a table. -/
def Value.found : Value → Found
  | .text s => .text s
  | .integer n => if -(2 ^ 63) ≤ n ∧ n < 2 ^ 64 then .integer n else .wideInteger n
  | .real x => .real x
  | .boolean b => .boolean b
  | .array .. => .sequence
  | .datetime | .overflow | .table .. => .map

def refuse {α : Type} (problem : Problem) (extent : Extent) : Except Slip α :=
  .error ⟨problem, extent⟩

def mistype {α : Type} (wanted : String) (extent : Extent) : Value → Except Slip α
  | .overflow => refuse .malformed extent
  | v => refuse (.wrongKind v.found wanted) extent

def readText (extent : Extent) : Value → Except Slip String
  | .text s => .ok s
  | v => mistype "a string" extent v

def readCount (extent : Extent) : Value → Except Slip Nat
  | .integer n =>
    if 0 ≤ n ∧ n < 2 ^ 64 then .ok n.toNat
    else if n < 0 ∧ -(2 ^ 63) ≤ n then refuse (.wrongValue (.integer n) "u64") extent
    else mistype "u64" extent (.integer n)
  | v => mistype "u64" extent v

/-- Passes over a value that nobody asked for. -/
def passOver (extent : Extent) (v : Value) : Except Slip Unit :=
  if v.isSound then .ok () else refuse .malformed extent

/-- Reads one of several names. It may stand alone, or as the key of the only entry of a table,
with nothing in it. -/
def readChoice {α : Type} (names : List String) (ofName? : String → Option α) (extent : Extent)
    (v : Value) : Except Slip α :=
  let choose (name : String) (extent : Extent) : Except Slip α :=
    match ofName? name with
    | some a => .ok a
    | none => refuse (.unknownVariant name names) extent
  match v with
  | .text s => choose s extent
  | .table _ [] => refuse (.wantedOneEntry "found 0 elements") extent
  | .table _ [(name, inner, content)] => do
    let a ← choose name extent
    match content with
    | .table _ [] | .array _ [] => .ok a
    | .table .. => refuse (.wantedEmpty "table") inner
    | .array .. => refuse (.wantedEmpty "array") inner
    | other => refuse (.wantedTable other.kind) inner
  | .table .. => refuse (.wantedOneEntry "more than 1 element") extent
  | _ => refuse .wantedTextOrTable extent

def readItems {α : Type} (read : Extent → Value → Except Slip α) (extent : Extent) :
    Value → Except Slip (List α)
  | .array _ items => items.mapM fun p => read p.1 p.2
  | v => mistype "a sequence" extent v

end Toml

namespace Settings

open Toml (readText readCount readChoice passOver refuse mistype)

def readKind (extent : Extent) (v : Value) : Except Slip Kind :=
  readChoice ["cli", "http"] Kind.ofName? extent v

def readApp (extent : Extent) (v : Value) : Except Slip App :=
  readChoice (App.all.map App.name) App.ofName? extent v

def readApps (extent : Extent) (v : Value) : Except Slip (List App) :=
  Toml.readItems readApp extent v

/-- A setting that was found, or the complaint that it is missing. -/
def present {α : Type} (field : String) (extent : Extent) : Option α → Except Slip α
  | some a => .ok a
  | none => refuse (.missing field) extent

def tooShort {α : Type} (length : Nat) (wanted : String) (extent : Extent) : Except Slip α :=
  refuse (.wrongLength length wanted) extent

/-! ### The interface -/

structure InterfaceDraft where
  kind : Option Kind := none
  phpBinary : Option String := none
  serverRoot : Option String := none
  url : Option String := none
  timeoutSeconds : Option Nat := none

def InterfaceDraft.add (d : InterfaceDraft) (key : String) (extent : Extent) (v : Value) :
    Except Slip InterfaceDraft :=
  if key = "kind" then (readKind extent v).map fun a => { d with kind := some a }
  else if key = "php_binary" then (readText extent v).map fun a => { d with phpBinary := some a }
  else if key = "server_root" then (readText extent v).map fun a => { d with serverRoot := some a }
  else if key = "timeout_seconds" then
    (readCount extent v).map fun a => { d with timeoutSeconds := some a }
  else if key = "url" then (readText extent v).map fun a => { d with url := some a }
  else (passOver extent v).map fun _ => d

def InterfaceDraft.finish (d : InterfaceDraft) (extent : Extent) :
    Except Slip InterfaceSettings :=
  (present "kind" extent d.kind).map fun kind =>
    ⟨kind, d.phpBinary, d.serverRoot, d.url, d.timeoutSeconds⟩

def interfaceOfItems (extent : Extent) : List (Extent × Value) → Except Slip InterfaceSettings
  | kind :: rest => do
    let kind ← readKind kind.1 kind.2
    match rest with
    | php :: rest =>
      let php ← readText php.1 php.2
      match rest with
      | root :: rest =>
        let root ← readText root.1 root.2
        match rest with
        | url :: rest =>
          let url ← readText url.1 url.2
          match rest with
          | timeout :: _ =>
            let timeout ← readCount timeout.1 timeout.2
            .ok ⟨kind, some php, some root, some url, some timeout⟩
          | [] => short 4
        | [] => short 3
      | [] => short 2
    | [] => short 1
  | [] => short 0
where
  short {α : Type} (length : Nat) : Except Slip α :=
    tooShort length "struct InterfaceConfig with 5 elements" extent

def readInterface (extent : Extent) : Value → Except Slip InterfaceSettings
  | .table _ entries => do
    let d ← entries.foldlM (fun d p => InterfaceDraft.add d p.1 p.2.1 p.2.2) {}
    d.finish extent
  | .datetime => ({} : InterfaceDraft).finish extent
  | .array _ items => interfaceOfItems extent items
  | v => mistype "struct InterfaceConfig" extent v

/-! ### The administrator -/

structure AccountsDraft where
  username : Option String := none
  password : Option String := none

def AccountsDraft.add (d : AccountsDraft) (key : String) (extent : Extent) (v : Value) :
    Except Slip AccountsDraft :=
  if key = "admin_password" then (readText extent v).map fun a => { d with password := some a }
  else if key = "admin_username" then
    (readText extent v).map fun a => { d with username := some a }
  else (passOver extent v).map fun _ => d

def AccountsDraft.finish (d : AccountsDraft) (extent : Extent) : Except Slip Credentials := do
  let username ← present "admin_username" extent d.username
  let password ← present "admin_password" extent d.password
  .ok ⟨username, password⟩

def accountsOfItems (extent : Extent) : List (Extent × Value) → Except Slip Credentials
  | username :: rest => do
    let username ← readText username.1 username.2
    match rest with
    | password :: _ => (readText password.1 password.2).map fun password => ⟨username, password⟩
    | [] => short 1
  | [] => short 0
where
  short {α : Type} (length : Nat) : Except Slip α :=
    tooShort length "struct AccountsConfig with 2 elements" extent

def readAccounts (extent : Extent) : Value → Except Slip Credentials
  | .table _ entries => do
    let d ← entries.foldlM (fun d p => AccountsDraft.add d p.1 p.2.1 p.2.2) {}
    d.finish extent
  | .datetime => ({} : AccountsDraft).finish extent
  | .array _ items => accountsOfItems extent items
  | v => mistype "struct AccountsConfig" extent v

/-! ### The apps -/

/-- Adds an entry of the group that holds the apps. -/
def addRunEntry (apps : List App) (key : String) (extent : Extent) (v : Value) :
    Except Slip (List App) :=
  if key = "apps" then readApps extent v else (passOver extent v).map fun _ => apps

/-- Without the setting, every app is selected. -/
def readRun (extent : Extent) : Value → Except Slip (List App)
  | .table _ entries => entries.foldlM (fun apps p => addRunEntry apps p.1 p.2.1 p.2.2) App.all
  | .datetime => .ok App.all
  | .array _ [] => .ok App.all
  | .array _ (apps :: _) => readApps apps.1 apps.2
  | v => mistype "struct RunConfig" extent v

/-! ### All settings -/

structure Draft where
  interface : Option InterfaceSettings := none
  accounts : Option Credentials := none
  apps : List App := App.all

def Draft.add (d : Draft) (key : String) (extent : Extent) (v : Value) : Except Slip Draft :=
  if key = "accounts" then (readAccounts extent v).map fun a => { d with accounts := some a }
  else if key = "interface" then
    (readInterface extent v).map fun a => { d with interface := some a }
  else if key = "run" then (readRun extent v).map fun a => { d with apps := a }
  else (passOver extent v).map fun _ => d

def Draft.finish (d : Draft) (extent : Extent) : Except Slip Settings := do
  let interface ← present "interface" extent d.interface
  let accounts ← present "accounts" extent d.accounts
  .ok ⟨interface, accounts, d.apps⟩

def ofTable (extent : Extent) (entries : Toml.Table) : Except Slip Settings := do
  let d ← entries.foldlM (fun d p => Draft.add d p.1 p.2.1 p.2.2) {}
  d.finish extent

def ofDocument (cs : List Char) : Except Failure Settings :=
  match (Toml.tableOfChars cs).bind (ofTable ⟨cs.length, 0⟩) with
  | .ok s => .ok s
  | .error slip => .error (.toml (slip.fault cs))

/-- Reads the settings from a document in which placeholders stand for values of the
environment. -/
def ofText (env : Environment) (s : String) : Except Failure Settings :=
  ofDocument (Placeholder.substitute env s.toList)

/-- Reads the settings from the bytes of a file, if they could be had. -/
def ofFile (env : Environment) (path : String) (content : Except SystemFault (List UInt8)) :
    Except Failure Settings :=
  let text := content.bind fun bytes =>
    match Text.decode? bytes with
    | some cs => .ok cs
    | none => .error .invalidUtf8
  match text with
  | .error fault => .error (.settings ("cannot read " ++ path ++ ": " ++ fault.text))
  | .ok cs => ofDocument (Placeholder.substitute env cs)

end Settings

end Shakedown
