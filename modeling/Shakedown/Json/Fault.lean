import Shakedown.Found

/-!
Why a text is not the JSON that was wanted, and where.
-/

namespace Shakedown.Json

inductive Problem where
  | unfinishedList
  | unfinishedObject
  | unfinishedText
  | unfinishedValue
  | wantedColon
  | wantedCommaOrBracket
  | wantedCommaOrBrace
  | wantedIdent
  | wantedValue
  | badEscape
  | badNumber
  | numberOutOfRange
  | controlCharacter
  | keyNotText
  | loneSurrogate
  | unfinishedEscape
  | trailingComma
  | trailingCharacters
  | tooDeep
  | missing (field : String)
  | repeated (field : String)
  | wrongLength (length : Nat) (wanted : String)
  | wrongKind (found : Found) (wanted : String)
  | wrongValue (found : Found) (wanted : String)

def Problem.text : Problem → String
  | unfinishedList => "EOF while parsing a list"
  | unfinishedObject => "EOF while parsing an object"
  | unfinishedText => "EOF while parsing a string"
  | unfinishedValue => "EOF while parsing a value"
  | wantedColon => "expected `:`"
  | wantedCommaOrBracket => "expected `,` or `]`"
  | wantedCommaOrBrace => "expected `,` or `\x7d`"
  | wantedIdent => "expected ident"
  | wantedValue => "expected value"
  | badEscape => "invalid escape"
  | badNumber => "invalid number"
  | numberOutOfRange => "number out of range"
  | controlCharacter => "control character (\\u0000-\\u001F) found while parsing a string"
  | keyNotText => "key must be a string"
  | loneSurrogate => "lone leading surrogate in hex escape"
  | unfinishedEscape => "unexpected end of hex escape"
  | trailingComma => "trailing comma"
  | trailingCharacters => "trailing characters"
  | tooDeep => "recursion limit exceeded"
  | missing field => "missing field `" ++ field ++ "`"
  | repeated field => "duplicate field `" ++ field ++ "`"
  | wrongLength length wanted =>
    "invalid length " ++ String.ofList (Decimal.digits length) ++ ", expected " ++ wanted
  | wrongKind found wanted =>
    "invalid type: " ++ found.describe Decimal.concise ++ ", expected " ++ wanted
  | wrongValue found wanted =>
    "invalid value: " ++ found.describe Decimal.concise ++ ", expected " ++ wanted

/-- Lines count from 1. The column counts the bytes of its line up to the problem. -/
structure Fault where
  problem : Problem
  line : Nat
  column : Nat

def Fault.text (f : Fault) : String :=
  f.problem.text ++ " at line " ++ String.ofList (Decimal.digits f.line) ++ " column " ++
    String.ofList (Decimal.digits f.column)

end Shakedown.Json
