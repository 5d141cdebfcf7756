import Shakedown.Decimal.Written
import Shakedown.Text.Quoted

/-!
What a reader met where its caller wanted something else.
-/

namespace Shakedown

/-- A value, by as much of it as an error text shows. -/
inductive Found where
  | null
  | boolean (b : Bool)
  | integer (n : Int)
  /-- An integer that does not fit 64 bits. -/
  | wideInteger (n : Int)
  | real (x : Float)
  | text (s : String)
  | sequence
  | map

namespace Found

/-- The text of a value; formats differ in how they write a double. -/
def describe (real : Float → List Char) : Found → String
  | null => "null"
  | boolean b => "boolean `" ++ (if b then "true" else "false") ++ "`"
  | integer n => "integer `" ++ String.ofList (Decimal.integer n) ++ "`"
  | wideInteger n =>
    "integer `" ++ String.ofList (Decimal.integer n) ++ "` as " ++
      (if n < 2 ^ 127 then "i128" else "u128")
  | .real x => "floating point `" ++ String.ofList (real x) ++ "`"
  | text s => "string " ++ Text.quote s
  | sequence => "sequence"
  | map => "map"

end Found

end Shakedown
