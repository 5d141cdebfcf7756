import Shakedown.Decimal.Written
import Shakedown.Json.Basic
import Shakedown.Text.Hex

/-!
The text of a JSON value: compact, or with one member a line.

Inside a text only quotes, backslashes and the 32 control characters are escaped.
-/

namespace Shakedown.Json

def escapeChar (c : Char) : List Char :=
  if c = '"' then ['\\', '"']
  else if c = '\\' then ['\\', '\\']
  else if c = '\x08' then ['\\', 'b']
  else if c = '\x0c' then ['\\', 'f']
  else if c = '\n' then ['\\', 'n']
  else if c = '\r' then ['\\', 'r']
  else if c = '\t' then ['\\', 't']
  else if c.toNat < 0x20 then ['\\', 'u', '0', '0'] ++ Text.twoHexDigits c.toNat
  else [c]

def textChars (s : String) : List Char :=
  '"' :: (s.toList.flatMap escapeChar ++ ['"'])

def scalarChars : Json → List Char
  | .null => "null".toList
  | .bool true => "true".toList
  | .bool false => "false".toList
  | .int n => Decimal.integer n
  | .real x => if x.isFinite then Decimal.concise x else "null".toList
  | .str s => textChars s
  | .arr _ => "[]".toList
  | .obj _ => "\x7b\x7d".toList

mutual

def compactChars : Json → List Char
  | .arr items => '[' :: (compactItems items ++ [']'])
  | .obj members => '{' :: (compactMembers members ++ ['}'])
  | j => scalarChars j

def compactItems : List Json → List Char
  | [] => []
  | j :: rest => compactChars j ++ (match rest with | [] => [] | _ :: _ => ',' :: compactItems rest)

def compactMembers : List (String × Json) → List Char
  | [] => []
  | (name, j) :: rest =>
    textChars name ++ ':' :: compactChars j ++
      (match rest with | [] => [] | _ :: _ => ',' :: compactMembers rest)

end

def newline (level : Nat) : List Char :=
  '\n' :: List.replicate (2 * level) ' '

mutual

/-- The text with each item and member on a line of its own. -/
def prettyChars (level : Nat) : Json → List Char
  | .arr [] => "[]".toList
  | .arr (j :: rest) =>
    '[' :: (newline (level + 1) ++ prettyChars (level + 1) j ++ prettyItems (level + 1) rest ++
      newline level ++ [']'])
  | .obj [] => "\x7b\x7d".toList
  | .obj ((name, j) :: rest) =>
    '{' :: (newline (level + 1) ++ textChars name ++ ": ".toList ++ prettyChars (level + 1) j ++
      prettyMembers (level + 1) rest ++ newline level ++ ['}'])
  | j => scalarChars j

def prettyItems (level : Nat) : List Json → List Char
  | [] => []
  | j :: rest => ',' :: (newline level ++ prettyChars level j ++ prettyItems level rest)

def prettyMembers (level : Nat) : List (String × Json) → List Char
  | [] => []
  | (name, j) :: rest =>
    ',' :: (newline level ++ textChars name ++ ": ".toList ++ prettyChars level j ++
      prettyMembers level rest)

end

def compact (j : Json) : String :=
  String.ofList (compactChars j)

def pretty (j : Json) : String :=
  String.ofList (prettyChars 0 j)

end Shakedown.Json
