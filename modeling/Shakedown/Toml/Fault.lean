import Shakedown.Found

/-!
Why a text is not the TOML document that was wanted, and the drawing of the place.
-/

namespace Shakedown.Toml

inductive Problem where
  | malformed
  | duplicateKey
  | missing (field : String)
  | unknownVariant (name : String) (known : List String)
  | wrongLength (length : Nat) (wanted : String)
  | wrongKind (found : Found) (wanted : String)
  | wrongValue (found : Found) (wanted : String)
  /-- A choice is a text or a table with one entry. -/
  | wantedTextOrTable
  | wantedOneEntry (found : String)
  | wantedTable (found : String)
  | wantedEmpty (container : String)

def choice : List String → String
  | [] => "there are no variants"
  | [a] => "expected `" ++ a ++ "`"
  | [a, b] => "expected `" ++ a ++ "` or `" ++ b ++ "`"
  | names => "expected one of " ++ ", ".intercalate (names.map fun n => "`" ++ n ++ "`")

def Problem.text : Problem → String
  | malformed => "syntax"
  | duplicateKey => "duplicate key"
  | missing field => "missing field `" ++ field ++ "`"
  | unknownVariant name known => "unknown variant `" ++ name ++ "`, " ++ choice known
  | wrongLength length wanted =>
    "invalid length " ++ String.ofList (Decimal.digits length) ++ ", expected " ++ wanted
  | wrongKind found wanted =>
    "invalid type: " ++ found.describe Decimal.plain ++ ", expected " ++ wanted
  | wrongValue found wanted =>
    "invalid value: " ++ found.describe Decimal.plain ++ ", expected " ++ wanted
  | wantedTextOrTable => "wanted string or table"
  | wantedOneEntry found => "wanted exactly 1 element, " ++ found
  | wantedTable found => "expected table, found " ++ found
  | wantedEmpty container => "expected empty " ++ container

/-- Characters of a document, counted from its start: the first, and the one after the last. -/
structure Span where
  start : Nat
  stop : Nat
  deriving DecidableEq, Inhabited

structure Fault where
  problem : Problem
  document : List Char
  span : Span

namespace Fault

-- The zero of a sum is the core one, whatever instances a reader of this file adds.
attribute [local instance (high)] Zero.ofOfNat0

/-- The line that holds the character `n`: its number from 0, its text, and the characters of it
before `n`. Past the end the last character counts. -/
def lineAt (document : List Char) (n : Nat) : Nat × List Char × Nat :=
  let at_ := min n (document.length - 1)
  let before := document.take at_
  let tail := before.reverse.takeWhile (· ≠ '\n')
  let start := at_ - tail.length
  (before.count '\n', (document.drop start).takeWhile (· ≠ '\n'), n - start)

/-- The marks under a span: as long as its bytes, though not past the line, and at least one. -/
def marks (document line : List Char) (span : Span) (column : Nat) : Nat :=
  let bytes (cs : List Char) : Nat := (cs.map Char.utf8Size).sum
  max 1 (min (bytes ((document.drop span.start).take (span.stop - span.start)))
    (bytes line - column))

def text (f : Fault) : String :=
  let (number, line, column) := lineAt f.document f.span.start
  let label := Decimal.digits (number + 1)
  let gutter := List.replicate (label.length + 1) ' '
  let drawing :=
    gutter ++ ['|', '\n'] ++ label ++ [' ', '|', ' '] ++ line ++ ['\n'] ++ gutter ++ ['|'] ++
      List.replicate (column + 1) ' ' ++
      List.replicate (marks f.document line f.span column) '^' ++ ['\n']
  "TOML parse error at line " ++ String.ofList label ++ ", column " ++
    String.ofList (Decimal.digits (column + 1)) ++ "\n" ++ String.ofList drawing ++
    f.problem.text ++ "\n"

end Fault

end Shakedown.Toml
