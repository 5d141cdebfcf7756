import Shakedown.Decimal.Reading
import Shakedown.Text.Hex
import Shakedown.Text.Split

/-!
Internet addresses as hosts, of version 4 and of version 6.
-/

namespace Shakedown.Url

-- Powers and the zero of a sum are the core ones, whatever instances a reader of this file adds.
attribute [local instance (high)] instPowNat Zero.ofOfNat0

/-! ### Version 4 -/

def isOctal (c : Char) : Bool :=
  '0' ≤ c && c ≤ '7'

/-- A part of an address: a number in octal behind `0`, in hexadecimal behind `0x`, else decimal. -/
def addressPart? : List Char → Option Nat
  | [] => none
  | ['0', 'x'] | ['0', 'X'] => some 0
  | '0' :: 'x' :: ds | '0' :: 'X' :: ds =>
    if ds.all Text.isHexDigit then
      some (ds.foldl (fun n d => n * 16 + (Text.hexValue? d).getD 0) 0)
    else none
  | ['0'] => some 0
  | '0' :: ds =>
    if ds.all isOctal then some (ds.foldl (fun n d => n * 8 + (d.toNat - '0'.toNat)) 0) else none
  | ds => if ds.all Char.isDigit then some (Decimal.value ds) else none

/-- The pieces between dots; a dot at the end separates nothing. -/
def dottedParts (cs : List Char) : List (List Char) :=
  let parts := Text.split '.' cs
  if parts.length > 1 ∧ parts.getLast? = some [] then parts.dropLast else parts

/-- A name whose last part is a number can only be an address. -/
def endsInNumber (cs : List Char) : Bool :=
  match (dottedParts cs).getLast? with
  | none => false
  | some last => (!last.isEmpty && last.all Char.isDigit) || (addressPart? last).isSome

/-- The address of up to four parts; the last part fills the bytes that are left. -/
def ipv4? (cs : List Char) : Option Nat :=
  match (dottedParts cs).mapM addressPart? with
  | none => none
  | some numbers =>
    let high := numbers.dropLast
    match numbers.getLast? with
    | none => none
    | some last =>
      if numbers.length ≤ 4 ∧ last < 256 ^ (4 - high.length) ∧ high.all (· < 256) then
        some ((high.zipIdx.map fun p => p.1 * 256 ^ (3 - p.2)).sum + last)
      else none

def ipv4Chars (n : Nat) : List Char :=
  Text.join ['.'] ([n / 256 ^ 3, n / 256 ^ 2 % 256, n / 256 % 256, n % 256].map Decimal.digits)

/-! ### Version 6 -/

def decimalByte? (ds : List Char) : Option Nat :=
  if ds.isEmpty || !ds.all Char.isDigit then none
  else if ds.length > 1 ∧ ds.head? = some '0' then none
  else if Decimal.value ds ≤ 255 then some (Decimal.value ds)
  else none

def dottedPieces? (cs : List Char) : Option (List Nat) :=
  match (Text.split '.' cs).mapM decimalByte? with
  | some [a, b, c, d] => some [a * 256 + b, c * 256 + d]
  | _ => none

/-- Reads pieces behind those in `pieces`, in at most `fuel` steps: all pieces, and the number of
them before the gap. A gap stands for one zero piece at least. -/
def readPieces : Nat → List Nat → Option Nat → List Char → Option (List Nat × Option Nat)
  | 0, _, _, _ => none
  | _ + 1, pieces, gap, [] => some (pieces, gap)
  | fuel + 1, pieces, gap, c :: rest =>
    if pieces.length = 8 then none
    else if c = ':' then
      if gap.isSome then none
      else readPieces fuel (pieces ++ [0]) (some (pieces.length + 1)) rest
    else
      let ds := ((c :: rest).take 4).takeWhile Text.isHexDigit
      let value := ds.foldl (fun n d => n * 16 + (Text.hexValue? d).getD 0) 0
      match (c :: rest).drop ds.length with
      | [] => readPieces fuel (pieces ++ [value]) gap []
      | '.' :: _ =>
        if ds.isEmpty ∨ 6 < pieces.length then none
        else (dottedPieces? (c :: rest)).map fun last => (pieces ++ last, gap)
      | ':' :: [] => none
      | ':' :: more => readPieces fuel (pieces ++ [value]) gap more
      | _ => none

def ipv6? (cs : List Char) : Option (List Nat) :=
  let read := match cs with
    | ':' :: ':' :: rest => readPieces (cs.length + 1) [0] (some 1) rest
    | ':' :: _ => none
    | [] | [_] => none
    | _ => readPieces (cs.length + 1) [] none cs
  match read with
  | none => none
  | some (pieces, some gap) =>
    if pieces.length ≤ 8 then
      some (pieces.take gap ++ List.replicate (8 - pieces.length) 0 ++ pieces.drop gap)
    else none
  | some (pieces, none) => if pieces.length = 8 then some pieces else none

/-- The start and length of the first longest run of zeros. -/
def longestZeros (pieces : List Nat) : Nat × Nat :=
  (List.range pieces.length).foldl
    (fun best start =>
      let run := ((pieces.drop start).takeWhile (· = 0)).length
      if run > best.2 then (start, run) else best)
    (0, 0)

/-- Two colons stand for the first longest run of at least two zeros. -/
def ipv6Chars (pieces : List Nat) : List Char :=
  let texts (ps : List Nat) : List Char := Text.join [':'] (ps.map (Nat.toDigits 16))
  let (start, run) := longestZeros pieces
  if run < 2 then texts pieces
  else texts (pieces.take start) ++ [':', ':'] ++ texts (pieces.drop (start + run))

end Shakedown.Url
