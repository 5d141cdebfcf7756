import Shakedown.Toml.Fault
import Shakedown.Toml.Scalar

/-!
The table that a TOML document stands for.

Statements take effect in order. No key gets two values: a header may name a table that so far
only lay on the way of other headers, a key with dots extends tables that such keys made, and all
else that meets a key in use is refused.
-/

namespace Shakedown.Toml

/-- A problem with the stretch of the document that has it. -/
structure Slip where
  problem : Problem
  extent : Extent

def Slip.fault (s : Slip) (document : List Char) : Fault :=
  ⟨s.problem, document,
    ⟨document.length - s.extent.before, document.length - s.extent.after⟩⟩

abbrev Table := List (String × Extent × Value)

structure Name where
  text : String
  extent : Extent
  deriving DecidableEq

def Name.duplicate {α : Type} (name : Name) : Except Slip α :=
  .error ⟨.duplicateKey, name.extent⟩

/-- A name on the way stands for something that holds no entries. -/
def Name.closed {α : Type} (name : Name) : Except Slip α :=
  .error ⟨.malformed, name.extent⟩

def entry? (t : Table) (key : String) : Option (Extent × Value) :=
  (t.find? fun p => p.1 == key).map (·.2)

/-- Whether a path may go on through a table. A table in braces is complete, and a key with dots
does not go through a table that has a header. -/
def checkPassage (viaDots : Bool) (name : Name) (origin : Origin) : Except Slip Unit :=
  if origin = .braces then name.closed
  else if viaDots ∧ origin = .header then name.duplicate
  else .ok ()

/-- The table at the end of the path of a header; one that does not exist yet is empty. -/
def tableAt : List Name → Table → Except Slip Table
  | [], t => .ok t
  | name :: path, t =>
    match entry? t name.text with
    | none => .ok []
    | some (_, .array true items) =>
      match items.getLast? with
      | some (_, .table _ inner) => tableAt path inner
      | _ => name.closed
    | some (_, .table origin inner) =>
      (checkPassage false name origin).bind fun _ => tableAt path inner
    | some _ => name.closed

/-- Changes the table at the end of a path, making tables on the way. The way goes through the
last table of an array of tables. -/
def changeAt (viaDots : Bool) (change : Origin → Table → Except Slip Table) :
    List Name → Origin → Table → Except Slip Table
  | [], origin, t => change origin t
  | name :: path, _, t =>
    match entry? t name.text with
    | none => do
      let origin : Origin := if viaDots then .dotted else .implied
      let inner ← changeAt viaDots change path origin []
      .ok (putSorted name.text (name.extent, .table origin inner) t)
    | some (extent, .array true items) =>
      match items.getLast? with
      | some (last, .table origin inner) => do
        let inner ← changeAt viaDots change path origin inner
        let items := items.dropLast ++ [(last, .table origin inner)]
        .ok (putSorted name.text (extent, .array true items) t)
      | _ => name.closed
    | some (extent, .table origin inner) => do
      checkPassage viaDots name origin
      let inner ← changeAt viaDots change path origin inner
      .ok (putSorted name.text (extent, .table origin inner) t)
    | some _ => name.closed

def putNew (name : Name) (extent : Extent) (value : Value) (t : Table) : Except Slip Table :=
  match entry? t name.text with
  | some _ => name.duplicate
  | none => .ok (putSorted name.text (extent, value) t)

/-- Adds a value under a key. Keys with dots before them go to tables that such keys made, and
others do not. -/
def addPair (origin : Origin) (t : Table) (way : List Name) (name : Name) (extent : Extent)
    (value : Value) : Except Slip Table :=
  let viaDots := !way.isEmpty
  changeAt viaDots
    (fun origin t =>
      if (origin == .dotted) == viaDots then putNew name extent value t else name.duplicate)
    way origin t

def nameOf (k : Key) : Except Slip Name :=
  match k.name? with
  | some text => .ok ⟨text, k.extent⟩
  | none => .error ⟨.malformed, k.extent⟩

/-- The names of a path: those on the way, and the last. -/
def namesOf : List Key → Except Slip (List Name × Name)
  | [] => .error ⟨.malformed, ⟨0, 0⟩⟩
  | [k] => (nameOf k).map fun name => ([], name)
  | k :: path => do
    let name ← nameOf k
    let (way, last) ← namesOf path
    .ok (name :: way, last)

mutual

def Written.value? : Written → Except Slip Value
  | .scalar cs extent =>
    match scalar? cs with
    | some v => .ok v
    | none => .error ⟨.malformed, extent⟩
  | .array items _ => (itemValues items).map (.array false)
  | .table entries _ => (tableOf [] entries).map (.table .braces)

def itemValues : List Written → Except Slip (List (Extent × Value))
  | [] => .ok []
  | item :: rest => do
    let value ← item.value?
    let values ← itemValues rest
    .ok ((item.extent, value) :: values)

/-- Adds the entries of a table in braces one by one. -/
def tableOf (t : Table) : List (List Key × Written) → Except Slip Table
  | [] => .ok t
  | (path, written) :: rest => do
    let (way, last) ← namesOf path
    let value ← written.value?
    let t ← addPair .header t way last written.extent value
    tableOf t rest

end

structure Header where
  ofArray : Bool
  way : List Name
  name : Name
  extent : Extent

/-- Puts the table of a header in its place: there it is new, or the last of an array of tables. -/
def Header.place (h : Header) (current t : Table) : Except Slip Table :=
  let table : Extent × Value := (h.extent, .table .header current)
  if h.ofArray then
    match entry? t h.name.text with
    | none => .ok (putSorted h.name.text (h.extent, .array true [table]) t)
    | some (extent, .array true items) =>
      .ok (putSorted h.name.text (extent, .array true (items ++ [table])) t)
    | some _ => h.name.duplicate
  else .ok (putSorted h.name.text table t)

/-- The table that pairs behind a header go to at first. A table can be named by one header
only. -/
def Header.opening (h : Header) (root : Table) : Except Slip Table :=
  if h.ofArray then .ok []
  else do
    let t ← tableAt h.way root
    match entry? t h.name.text with
    | none => .ok []
    | some (_, .table .implied inner) => .ok inner
    | some _ => h.name.duplicate

/-- The document so far: the root without the table that pairs go to, and that table. Before the
first header the pairs go to the root itself. -/
structure Draft where
  root : Table := []
  header : Option Header := none
  current : Table := []

def Draft.close (d : Draft) : Except Slip Table :=
  match d.header with
  | none => .ok d.current
  | some h => changeAt false (fun _ t => h.place d.current t) h.way .header d.root

def Draft.add (d : Draft) : Statement → Except Slip Draft
  | .header ofArray path extent => do
    let root ← d.close
    let (way, name) ← namesOf path
    let h : Header := ⟨ofArray, way, name, extent⟩
    let current ← h.opening root
    .ok ⟨root, some h, current⟩
  | .pair path written => do
    let (way, name) ← namesOf path
    let value ← written.value?
    let current ← addPair .header d.current way name written.extent value
    .ok { d with current := current }

def Draft.addAll (d : Draft) : List Statement → Except Slip Draft
  | [] => .ok d
  | s :: rest => (d.add s).bind fun d => d.addAll rest

def tableOfChars (cs : List Char) : Except Slip Table :=
  match readStatements? cs with
  | none => .error ⟨.malformed, ⟨0, 0⟩⟩
  | some statements => (({} : Draft).addAll statements).bind Draft.close

end Shakedown.Toml
