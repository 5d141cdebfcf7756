import Shakedown.Decimal.Reading
import Shakedown.Json.Basic
import Shakedown.Json.Stop
import Shakedown.Text.Hex

/-!
The tokens of JSON: words, numbers and texts.
-/

namespace Shakedown.Json

def isBlank (c : Char) : Bool :=
  c = ' ' || c = '\n' || c = '\t' || c = '\r'

def skipBlanks (cs : List Char) : List Char :=
  cs.dropWhile isBlank

/-- Reads the rest of a word; the byte that differs counts as read. -/
def readWord : List Char → List Char → Except Stop (List Char)
  | [], cs => .ok cs
  | _ :: _, [] => stopAt .unfinishedValue []
  | w :: word, c :: rest => if c = w then readWord word rest else stopAfter .wantedIdent (c :: rest)

/-! ### Numbers -/

inductive Number where
  | int (n : Int)
  | real (x : Float)

def Number.toJson : Number → Json
  | int n => .int n
  | .real x => .real x

/-- The double for a significand with its exponent, at the end of a number. -/
def realNumber (negative : Bool) (significand : Nat) (exponent : Int) (rest : List Char) :
    Except Stop (Number × List Char) :=
  match Decimal.toFloat? significand exponent with
  | some x => .ok (.real (if negative then -x else x), rest)
  | none => stopAt .numberOutOfRange rest

/-- Reads the digits of an exponent, and nothing if they do not fit 31 bits; the digit that is too
many is consumed. -/
def readExponentDigits (start : Nat) : List Char → Option Nat × List Char
  | [] => (some start, [])
  | d :: rest =>
    if d.isDigit then
      let next := start * 10 + (d.toNat - '0'.toNat)
      if next < 2 ^ 31 then readExponentDigits next rest else (none, rest)
    else (some start, d :: rest)

def readExponent (negative : Bool) (significand : Nat) (exponent : Int) (cs : List Char) :
    Except Stop (Number × List Char) :=
  let (down, cs) := match cs with
    | '+' :: rest => (false, rest)
    | '-' :: rest => (true, rest)
    | _ => (false, cs)
  match cs with
  | [] => stopAt .unfinishedValue []
  | d :: _ =>
    if d.isDigit then
      match readExponentDigits 0 cs with
      | (some e, rest) =>
        realNumber negative significand (if down then exponent - e else exponent + e) rest
      | (none, rest) =>
        if significand ≠ 0 ∧ down = false then stopAt .numberOutOfRange rest
        else .ok (.real (if negative then -0.0 else 0.0), rest.dropWhile Char.isDigit)
    else stopAfter .badNumber cs

def readAfterFraction (negative : Bool) (significand : Nat) (exponent : Int) (cs : List Char) :
    Except Stop (Number × List Char) :=
  match cs with
  | 'e' :: rest | 'E' :: rest => readExponent negative significand exponent rest
  | _ => realNumber negative significand exponent cs

def readFraction (negative : Bool) (significand : Nat) (exponent : Int) (cs : List Char) :
    Except Stop (Number × List Char) :=
  let ds := cs.takeWhile Char.isDigit
  let rest := cs.dropWhile Char.isDigit
  match ds with
  | [] => if rest = [] then stopAfter .unfinishedValue [] else stopAfter .badNumber rest
  | _ :: _ =>
    let (significand, left) := Decimal.absorb significand ds
    readAfterFraction negative significand (exponent - (ds.length - left.length : Nat)) rest

/-- An integer stays one when it fits 64 bits, signed if it is negative; `-0` is a double. -/
def wholeNumber (negative : Bool) (significand : Nat) : Number :=
  if negative then
    if 1 ≤ significand ∧ significand ≤ 2 ^ 63 then .int (-significand)
    else .real (-significand.toUInt64.toFloat)
  else .int significand

def readNumber (negative : Bool) (cs : List Char) : Except Stop (Number × List Char) :=
  match cs with
  | [] => stopAt .unfinishedValue []
  | c :: tail =>
    if c.isDigit then
      if c = '0' && (match tail with | d :: _ => d.isDigit | [] => false) then
        stopAfter .badNumber tail
      else
        let rest := cs.dropWhile Char.isDigit
        let (significand, left) := Decimal.absorb 0 (cs.takeWhile Char.isDigit)
        match rest with
        | '.' :: rest => readFraction negative significand left.length rest
        | 'e' :: rest | 'E' :: rest => readExponent negative significand left.length rest
        | _ =>
          if left.isEmpty then .ok (wholeNumber negative significand, rest)
          else realNumber negative significand left.length rest
    else stopAfter .badNumber cs

/-! ### Texts -/

/-- Reads the four digits of an escape. Four bytes are consumed, whatever they are. -/
def readHex : List Char → Except Stop (Nat × List Char)
  | a :: b :: c :: d :: rest =>
    match Text.hexValue? a, Text.hexValue? b, Text.hexValue? c, Text.hexValue? d with
    | some a, some b, some c, some d => .ok (((a * 16 + b) * 16 + c) * 16 + d, rest)
    | _, _, _, _ => .error ⟨.badEscape, a :: b :: c :: d :: rest, 4⟩
  | cs =>
    if byteCount cs < 4 then stopAt .unfinishedText [] else .error ⟨.badEscape, cs, 4⟩

/-- Reads one required character of a text; another byte in its place counts as read. -/
def readPairMark (mark : Char) : List Char → Except Stop (List Char)
  | [] => stopAt .unfinishedText []
  | c :: rest => if c = mark then .ok rest else stopAfter .unfinishedEscape (c :: rest)

/-- Reads an escape by code unit, behind its `u`. Two units can make one character. -/
def readUnicode (cs : List Char) : Except Stop (Char × List Char) := do
  let (high, rest) ← readHex cs
  if 0xDC00 ≤ high ∧ high ≤ 0xDFFF then stopAt .loneSurrogate rest
  else if high < 0xD800 ∨ 0xDBFF < high then .ok (Char.ofNat high, rest)
  else
    let rest ← readPairMark '\\' rest
    let rest ← readPairMark 'u' rest
    let (low, rest) ← readHex rest
    if low < 0xDC00 ∨ 0xDFFF < low then stopAt .loneSurrogate rest
    else .ok (Char.ofNat ((high - 0xD800) * 0x400 + (low - 0xDC00) + 0x10000), rest)

/-- The character that a letter behind a backslash stands for. -/
def escaped? : Char → Option Char
  | '"' => some '"'
  | '\\' => some '\\'
  | '/' => some '/'
  | 'b' => some '\x08'
  | 'f' => some '\x0c'
  | 'n' => some '\n'
  | 'r' => some '\r'
  | 't' => some '\t'
  | _ => none

def readEscape : List Char → Except Stop (Char × List Char)
  | [] => stopAt .unfinishedText []
  | c :: rest =>
    match escaped? c with
    | some d => .ok (d, rest)
    | none => if c = 'u' then readUnicode rest else stopAfter .badEscape (c :: rest)

/-- Reads a text behind its opening quote, in at most `fuel` steps. -/
def readTextChars : Nat → List Char → Except Stop (List Char × List Char)
  | 0, cs => stopAt .unfinishedText cs
  | _ + 1, [] => stopAt .unfinishedText []
  | fuel + 1, c :: rest =>
    if c = '"' then .ok ([], rest)
    else if c = '\\' then do
      let (d, rest) ← readEscape rest
      let (ds, rest) ← readTextChars fuel rest
      .ok (d :: ds, rest)
    else if c.toNat < 0x20 then stopAfter .controlCharacter (c :: rest)
    else do
      let (ds, rest) ← readTextChars fuel rest
      .ok (c :: ds, rest)

def readText (cs : List Char) : Except Stop (String × List Char) := do
  let (ds, rest) ← readTextChars (cs.length + 1) cs
  .ok (String.ofList ds, rest)

end Shakedown.Json
