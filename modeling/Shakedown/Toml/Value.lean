import Shakedown.Entries
import Shakedown.Toml.Statement

/-!
TOML values.
-/

namespace Shakedown.Toml

/-- How a table came about, which decides what may be added to it later. -/
inductive Origin where
  | header
  /-- On the way of the path of a header. -/
  | implied
  /-- On the way of a key with dots. -/
  | dotted
  | braces
  deriving DecidableEq

/-- The entries of a table stand in increasing order of their keys. -/
inductive Value where
  | text (s : String)
  | integer (n : Int)
  | real (x : Float)
  | boolean (b : Bool)
  | datetime
  /-- A number outside of 128 bits, or above every double. -/
  | overflow
  | array (ofTables : Bool) (items : List (Extent × Value))
  | table (origin : Origin) (entries : List (String × Extent × Value))
  deriving Inhabited

def Value.kind : Value → String
  | text _ => "string"
  | integer _ => "integer"
  | real _ => "float"
  | boolean _ => "boolean"
  | datetime => "datetime"
  | overflow => "integer"
  | array .. => "array"
  | table .. => "table"

end Shakedown.Toml
