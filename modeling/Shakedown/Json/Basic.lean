import Shakedown.Entries

/-!
JSON values.

A number is an integer when it is written without fraction and exponent and fits 64 bits, and a
binary double otherwise. An object is the list of its members: reading puts them in increasing
order of their names, and an object that is to be printed has the order in which it was built.
-/

namespace Shakedown

inductive Json where
  | null
  | bool (b : Bool)
  | int (n : Int)
  | real (x : Float)
  | str (s : String)
  | arr (items : List Json)
  | obj (members : List (String × Json))
  deriving Inhabited

namespace Json

/-- An object from its members as they are written; the last of several with one name stays. -/
def ofMembers (members : List (String × Json)) : Json :=
  .obj (members.foldl (fun sorted m => putSorted m.1 m.2 sorted) [])

def member? (name : String) : Json → Option Json
  | .obj members => (members.find? fun m => m.1 == name).map (·.2)
  | _ => none

def text? : Json → Option String
  | .str s => some s
  | _ => none

def ofText? : Option String → Json
  | none => .null
  | some s => .str s

end Json

end Shakedown
