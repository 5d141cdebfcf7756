import Shakedown.Decimal.Reading
import Shakedown.Text.Hex
import Shakedown.Text.Split
import Shakedown.Toml.Value

/-!
What the scalars and keys of a TOML document stand for.
-/

namespace Shakedown.Toml

/-! ### Texts -/

/-- The character that a letter behind a backslash stands for. -/
def escaped? : Char → Option Char
  | 'b' => some '\x08'
  | 't' => some '\t'
  | 'n' => some '\n'
  | 'f' => some '\x0c'
  | 'r' => some '\r'
  | 'e' => some '\x1b'
  | '"' => some '"'
  | '\\' => some '\\'
  | _ => none

def escapeDigits? : Char → Option Nat
  | 'x' => some 2
  | 'u' => some 4
  | 'U' => some 8
  | _ => none

/-- The character with the given digits as its code point. -/
def codePoint? (ds : List Char) : Option Char :=
  match ds.mapM Text.hexValue? with
  | none => none
  | some values =>
    let n := values.foldl (fun n d => n * 16 + d) 0
    if n < 0xD800 ∨ (0xDFFF < n ∧ n < 0x110000) then some (Char.ofNat n) else none

/-- Drops blanks and line breaks, in at most `fuel` steps. -/
def dropBlankLines : Nat → List Char → List Char
  | 0, cs => cs
  | fuel + 1, cs =>
    let cs := skipSpace cs
    match lineBreak? cs with
    | some rest => dropBlankLines fuel rest
    | none => cs

/-- Reads an escape behind its backslash. In a text of several lines a backslash at the end of a
line stands for nothing and takes the blanks and line breaks behind it along. -/
def readEscape? (lines : Bool) : List Char → Option (List Char × List Char)
  | [] => none
  | c :: rest =>
    match escaped? c, escapeDigits? c with
    | some d, _ => some ([d], rest)
    | none, some n =>
      if n ≤ rest.length then (codePoint? (rest.take n)).map fun d => ([d], rest.drop n) else none
    | none, none =>
      if lines ∧ (lineBreak? (skipSpace (c :: rest))).isSome then
        some ([], dropBlankLines (c :: rest).length (c :: rest))
      else none

/-- A line break at the start of what is left, in a text of several lines. -/
def innerBreak? (lines : Bool) (cs : List Char) : Option (List Char × List Char) :=
  if lines then
    match cs with
    | '\n' :: rest => some (['\n'], rest)
    | '\r' :: '\n' :: rest => some (['\r', '\n'], rest)
    | _ => none
  else none

/-- The characters between the quotes of a text, in at most `fuel` steps. -/
def textChars? (escapes lines : Bool) : Nat → List Char → Option (List Char)
  | 0, _ => none
  | _ + 1, [] => some []
  | fuel + 1, c :: rest =>
    if escapes && c = '\\' then do
      let (ds, rest) ← readEscape? lines rest
      (textChars? escapes lines fuel rest).map (ds ++ ·)
    else if isVisible c then (textChars? escapes lines fuel rest).map (c :: ·)
    else do
      let (ds, rest) ← innerBreak? lines (c :: rest)
      (textChars? escapes lines fuel rest).map (ds ++ ·)

/-- Drops the quotes, of which there are `n` at both ends. -/
def unquote? (quote : Char) (n : Nat) (cs : List Char) : Option (List Char) :=
  let marks := List.replicate n quote
  if 2 * n ≤ cs.length ∧ cs.drop (cs.length - n) = marks then
    some ((cs.drop n).take (cs.length - 2 * n))
  else none

/-- What a text with its quotes stands for. A line break right behind three quotes is none. -/
def text? (cs : List Char) : Option String :=
  let inner (escapes lines : Bool) (body : List Char) : Option String :=
    (textChars? escapes lines (body.length + 1) body).map String.ofList
  let ofLines (body : List Char) : List Char := (lineBreak? body).getD body
  match cs with
  | '"' :: '"' :: '"' :: _ => (unquote? '"' 3 cs).bind fun body => inner true true (ofLines body)
  | '\'' :: '\'' :: '\'' :: _ =>
    (unquote? '\'' 3 cs).bind fun body => inner false true (ofLines body)
  | '"' :: _ => (unquote? '"' 1 cs).bind (inner true false)
  | '\'' :: _ => (unquote? '\'' 1 cs).bind (inner false false)
  | _ => none

def isBareKeyChar (c : Char) : Bool :=
  c.isAlphanum || c = '_' || c = '-'

/-- What a key stands for; a key cannot have three quotes. -/
def Key.name? (k : Key) : Option String :=
  match k.chars with
  | '"' :: '"' :: '"' :: _ | '\'' :: '\'' :: '\'' :: _ => none
  | '"' :: _ | '\'' :: _ => text? k.chars
  | cs => if cs ≠ [] ∧ cs.all isBareKeyChar then some (String.ofList cs) else none

/-! ### Numbers -/

/-- Drops the underscores of a number, which may only stand between two of its digits. -/
def digits? (isDigit : Char → Bool) (cs : List Char) : Option (List Char) :=
  let runs := Text.split '_' cs
  if runs.all fun run => !run.isEmpty && run.all isDigit then some runs.flatten else none

/-- The digits of an integer in decimal, without zeros before it. -/
def decimalDigits? (cs : List Char) : Option (List Char) :=
  match digits? Char.isDigit cs with
  | some ['0'] => some ['0']
  | some ('0' :: _) => none
  | ds => ds

/-- Integers stay within 128 bits. -/
def boundedInteger (n : Int) : Value :=
  if -(2 ^ 127) ≤ n ∧ n < 2 ^ 128 then .integer n else .overflow

/-- The sign in front of a number, and the rest. -/
def splitSign : List Char → Bool × List Char
  | '-' :: rest => (true, rest)
  | '+' :: rest => (false, rest)
  | cs => (false, cs)

def inBase (base : Nat) (ds : List Char) : Nat :=
  ds.foldl (fun n d => n * base + (Text.hexValue? d).getD 0) 0

def integer? (cs : List Char) : Option Value :=
  match cs with
  | '0' :: 'x' :: ds => (digits? Text.isHexDigit ds).map fun ds => boundedInteger (inBase 16 ds)
  | '0' :: 'o' :: ds =>
    (digits? (fun c => '0' ≤ c && c ≤ '7') ds).map fun ds => boundedInteger (inBase 8 ds)
  | '0' :: 'b' :: ds =>
    (digits? (fun c => c = '0' || c = '1') ds).map fun ds => boundedInteger (inBase 2 ds)
  | _ =>
    let (negative, ds) := splitSign cs
    (decimalDigits? ds).map fun ds =>
      boundedInteger (if negative then -(Decimal.value ds : Int) else Decimal.value ds)

/-- The double for digits and an exponent. Far outside of the doubles it is not computed. -/
def realOf (negative : Bool) (ds : List Char) (exponent : Int) : Value :=
  let n := Decimal.value ds
  let signed (x : Float) : Value := .real (if negative then -x else x)
  if n = 0 then signed 0
  else
    let size := exponent + (Decimal.digits n).length
    if 400 < size then .overflow
    else if size < -400 then signed 0
    else
      let x :=
        if 0 ≤ exponent then Float.ofScientific n false exponent.natAbs
        else Float.ofScientific n true exponent.natAbs
      if x.isInf then .overflow else signed x

def exponent? (cs : List Char) : Option Int :=
  let (negative, ds) := splitSign cs
  (digits? Char.isDigit ds).map fun ds =>
    if negative then -(Decimal.value ds : Int) else Decimal.value ds

def isExponentMark (c : Char) : Bool :=
  c = 'e' || c = 'E'

def real? (cs : List Char) : Option Value :=
  let (negative, body) := splitSign cs
  if body = "inf".toList then some (.real (if negative then -1 / 0 else 1 / 0))
  else if body = "nan".toList then some (.real (0 / 0))
  else
    let mantissa := body.takeWhile fun c => !isExponentMark c
    let exponent := match body.dropWhile fun c => !isExponentMark c with
      | [] => some 0
      | _ :: rest => exponent? rest
    match Text.split '.' mantissa, exponent with
    | [whole], some e =>
      if mantissa.length = body.length then none
      else (decimalDigits? whole).map fun ds => realOf negative ds e
    | [whole, fraction], some e => do
      let ds ← decimalDigits? whole
      let fs ← digits? Char.isDigit fraction
      some (realOf negative (ds ++ fs) (e - fs.length))
    | _, _ => none

/-! ### Dates and times -/

def isLeapYear (year : Nat) : Bool :=
  year % 4 == 0 && (year % 100 != 0 || year % 400 == 0)

def daysIn (year month : Nat) : Nat :=
  if month = 2 then (if isLeapYear year then 29 else 28)
  else if month ∈ [4, 6, 9, 11] then 30
  else 31

/-- A number of exactly two digits, and at most `greatest`. -/
def isTwoDigits (greatest : Nat) (ds : List Char) : Bool :=
  ds.length == 2 && ds.all Char.isDigit && Decimal.value ds ≤ greatest

def isDate (cs : List Char) : Bool :=
  looksLikeDate cs &&
    (let year := Decimal.value (cs.take 4)
     let month := Decimal.value ((cs.drop 5).take 2)
     let day := Decimal.value (cs.drop 8)
     1 ≤ month && month ≤ 12 && 1 ≤ day && day ≤ daysIn year month)

/-- A time of day; the seconds and their fraction may be left out. -/
def isTime (cs : List Char) : Bool :=
  match Text.split ':' cs with
  | [hour, minute] => isTwoDigits 23 hour && isTwoDigits 59 minute
  | [hour, minute, second] =>
    isTwoDigits 23 hour && isTwoDigits 59 minute &&
      (match Text.split '.' second with
      | [whole] => isTwoDigits 60 whole
      | [whole, fraction] =>
        isTwoDigits 60 whole && !fraction.isEmpty && fraction.all Char.isDigit
      | _ => false)
  | _ => false

/-- A time of day with a distance from UTC, or without one. -/
def isOffsetTime (cs : List Char) : Bool :=
  let isMark (c : Char) : Bool := c = '+' || c = '-'
  match cs.getLast? with
  | some 'Z' | some 'z' => isTime cs.dropLast
  | _ =>
    match cs.dropWhile fun c => !isMark c with
    | [] => isTime cs
    | _ :: offset =>
      isTime (cs.takeWhile fun c => !isMark c) &&
        (match Text.split ':' offset with
        | [hour, minute] => isTwoDigits 24 hour && isTwoDigits 59 minute
        | _ => false)

def isDatetime (cs : List Char) : Bool :=
  isDate cs || isTime cs ||
    (isDate (cs.take 10) &&
      match cs.drop 10 with
      | 'T' :: time | 't' :: time | ' ' :: time => isOffsetTime time
      | _ => false)

/-! ### Scalars -/

def scalar? (cs : List Char) : Option Value :=
  match cs with
  | '"' :: _ | '\'' :: _ => (text? cs).map .text
  | _ =>
    if cs = "true".toList then some (.boolean true)
    else if cs = "false".toList then some (.boolean false)
    else if isDatetime cs then some .datetime
    else
      match integer? cs with
      | some v => some v
      | none => real? cs

end Shakedown.Toml
