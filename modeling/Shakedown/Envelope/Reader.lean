import Shakedown.Envelope
import Shakedown.Failure
import Shakedown.Json.Reader
import Shakedown.Text.Blank

/-!
Reading an envelope from the text that a server printed.

An envelope is an object whose members stand in any order, or a list of two to four values in the
order `ok`, `code`, `appdata`, `message`. Members with other names are passed over.
-/

namespace Shakedown.Envelope

open Json (Stop Problem stopAt stopAfter skipBlanks)

def wanted : String := "struct ApiResponse"

/-- Stops at a value of the wrong kind: behind a scalar, before a list or an object. -/
def refuse {α : Type} (wanted : String) (cs : List Char) : Except Stop α :=
  match Json.readScalar? cs with
  | .error stop => .error stop
  | .ok none =>
    let found : Found := match cs with
      | '[' :: _ => .sequence
      | _ => .map
    stopAt (.wrongKind found wanted) cs
  | .ok (some (j, rest)) =>
    let found : Found := match j with
      | .null => .null
      | .bool b => .boolean b
      | .int n => .integer n
      | .real x => .real x
      | .str s => .text s
      | .arr _ => .sequence
      | .obj _ => .map
    stopAt (.wrongKind found wanted) rest

def readOk (cs : List Char) : Except Stop (Bool × List Char) :=
  match skipBlanks cs with
  | 't' :: rest => (Json.readWord "rue".toList rest).map fun rest => (true, rest)
  | 'f' :: rest => (Json.readWord "alse".toList rest).map fun rest => (false, rest)
  | cs => refuse "a boolean" cs

/-- Takes an integer that fits 16 bits. -/
def codeOf (n : Json.Number) (rest : List Char) : Except Stop (UInt16 × List Char) :=
  match n with
  | .int n =>
    if 0 ≤ n ∧ n < 65536 then .ok (UInt16.ofNat n.toNat, rest)
    else stopAt (.wrongValue (.integer n) "u16") rest
  | .real x => stopAt (.wrongKind (.real x) "u16") rest

def readCode (cs : List Char) : Except Stop (UInt16 × List Char) :=
  match skipBlanks cs with
  | '-' :: rest => (Json.readNumber true rest).bind fun r => codeOf r.1 r.2
  | [] => refuse "u16" []
  | c :: rest =>
    if c.isDigit then (Json.readNumber false (c :: rest)).bind fun r => codeOf r.1 r.2
    else refuse "u16" (c :: rest)

/-- Reads `null` as nothing. -/
def readAppdata (cs : List Char) : Except Stop (Option Json × List Char) :=
  match skipBlanks cs with
  | 'n' :: rest => (Json.readWord "ull".toList rest).map fun rest => (none, rest)
  | cs => (Json.readValue (Json.roomForLevels - 1) cs).map fun r => (some r.1, r.2)

/-- Reads `null` as nothing. -/
def readMessage (cs : List Char) : Except Stop (Option String × List Char) :=
  match skipBlanks cs with
  | 'n' :: rest => (Json.readWord "ull".toList rest).map fun rest => (none, rest)
  | '"' :: rest => (Json.readText rest).map fun r => (some r.1, r.2)
  | cs => refuse "a string" cs

structure Draft where
  ok : Option Bool := none
  code : Option UInt16 := none
  appdata : Option (Option Json) := none
  message : Option (Option String) := none

namespace Draft

/-- Closes an object if it ends here, before a stop is reported. -/
def settle (cs : List Char) : List Char :=
  match skipBlanks cs with
  | '}' :: rest => rest
  | rest => rest

/-- The two members that cannot be left out are `ok` and `code`. -/
def finish (d : Draft) (rest : List Char) : Except Stop Envelope :=
  match d.ok, d.code with
  | none, _ => stopAt (.missing "ok") rest
  | some _, none => stopAt (.missing "code") rest
  | some ok, some code => .ok ⟨ok, code, d.appdata.getD none, d.message.getD none⟩

/-- Reads the value of a member, which may be there once. -/
def readOnce {α : Type} (seen : Option α) (name : String)
    (read : List Char → Except Stop (α × List Char)) (cs : List Char) :
    Except Stop (α × List Char) :=
  if seen.isSome then stopAt (.repeated name) (settle cs)
  else (Json.readColon cs).bind read

def readMember (d : Draft) (name : String) (cs : List Char) : Except Stop (Draft × List Char) :=
  if name = "ok" then
    (readOnce d.ok name readOk cs).map fun r => ({ d with ok := some r.1 }, r.2)
  else if name = "code" then
    (readOnce d.code name readCode cs).map fun r => ({ d with code := some r.1 }, r.2)
  else if name = "appdata" then
    (readOnce d.appdata name readAppdata cs).map fun r => ({ d with appdata := some r.1 }, r.2)
  else if name = "message" then
    (readOnce d.message name readMessage cs).map fun r => ({ d with message := some r.1 }, r.2)
  else (Json.readColon cs).bind fun rest => (Json.skipValue rest).map fun rest => (d, rest)

/-- Reads members up to the closing brace, in at most `fuel` steps. -/
def readMembers : Nat → Bool → Draft → List Char → Except Stop (Draft × List Char)
  | 0, _, _, cs => stopAt .unfinishedObject cs
  | fuel + 1, first, d, cs => do
    match ← Json.nextMember first cs with
    | (none, rest) => .ok (d, rest)
    | (some name, _) =>
      let (name, rest) ← Json.readText name
      let (d, rest) ← d.readMember name rest
      readMembers fuel false d rest

end Draft

def readObject (cs : List Char) : Except Stop (Envelope × List Char) := do
  let (d, rest) ← Draft.readMembers (cs.length + 1) true {} cs
  let e ← d.finish (Draft.settle rest)
  let rest ← Json.endObject rest
  .ok (e, rest)

/-- Reads the next value of a list, if there is one. -/
def readItem {α : Type} (first : Bool) (read : List Char → Except Stop (α × List Char))
    (cs : List Char) : Except Stop (Option α × List Char) := do
  match ← Json.nextItem first cs with
  | (none, rest) => .ok (none, rest)
  | (some item, _) =>
    let (x, rest) ← read item
    .ok (some x, rest)

def tooShort {α : Type} (length : Nat) (cs : List Char) : Except Stop α :=
  stopAt (.wrongLength length (wanted ++ " with 4 elements")) (cs.drop 1)

def readList (cs : List Char) : Except Stop (Envelope × List Char) := do
  match ← readItem true readOk cs with
  | (none, rest) => tooShort 0 rest
  | (some ok, rest) =>
    match ← readItem false readCode rest with
    | (none, rest) => tooShort 1 rest
    | (some code, rest) =>
      let (appdata, rest) ← readItem false readAppdata rest
      let (message, rest) ← readItem false readMessage rest
      let rest ← Json.endList rest
      .ok (⟨ok, code, appdata.getD none, message.getD none⟩, rest)

def read (cs : List Char) : Except Stop (Envelope × List Char) :=
  match skipBlanks cs with
  | '{' :: rest => readObject rest
  | '[' :: rest => readList rest
  | cs => refuse wanted cs

/-- Reads a text that holds one envelope and nothing else. -/
def ofChars? (cs : List Char) : Except Json.Fault Envelope :=
  match read cs with
  | .error stop => .error (stop.fault cs)
  | .ok (e, rest) =>
    match Json.readEnd rest with
    | .error stop => .error (stop.fault cs)
    | .ok () => .ok e

/-- The most characters of a text that a failure quotes. -/
def previewLength : Nat := 200

/-- The start of a text, for a failure to quote. -/
def preview (cs : List Char) : List Char :=
  if cs.length ≤ previewLength then cs else cs.take previewLength ++ ['.', '.', '.']

def unreadable (fault : Json.Fault) (cs : List Char) : String :=
  "invalid response envelope (" ++ fault.text ++ "): " ++ String.ofList (preview cs)

def ofOutput (cs : List Char) : Except Failure Envelope :=
  let cs := Text.trimChars cs
  match ofChars? cs with
  | .error fault => .error (.transport (unreadable fault cs))
  | .ok e => .ok e

end Shakedown.Envelope
