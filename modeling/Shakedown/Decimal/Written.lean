import Shakedown.Decimal.Shortest

/-!
The text of a double, with the fewest digits that read back.

Positional notation always shows a digit on both sides of the point. Exponential notation has one
digit before the point and an exponent with a sign.
-/

namespace Shakedown.Decimal

def digits (n : Nat) : List Char :=
  Nat.toDigits 10 n

namespace Scientific

def magnitude (s : Scientific) : Int :=
  (digits s.coefficient).length - 1 + s.exponent

def positional (s : Scientific) : List Char :=
  let ds := digits s.coefficient
  if s.exponent ≥ 0 then ds ++ List.replicate s.exponent.toNat '0' ++ ['.', '0']
  else
    let places := (-s.exponent).toNat
    if places < ds.length then
      ds.take (ds.length - places) ++ ['.'] ++ ds.drop (ds.length - places)
    else ['0', '.'] ++ List.replicate (places - ds.length) '0' ++ ds

def exponential (s : Scientific) : List Char :=
  let mantissa := match digits s.coefficient with
    | [] => []
    | [d] => [d]
    | d :: ds => d :: '.' :: ds
  mantissa ++ ['e', if s.magnitude < 0 then '-' else '+'] ++ digits s.magnitude.natAbs

end Scientific

/-- Writes the sign, and the size by `write`; zero has no shortest decimal. -/
def signed (write : Scientific → List Char) (x : Float) : List Char :=
  let bits := x.toBits.toNat
  let size := bits % 2 ^ 63
  let text := if size = 0 then ['0', '.', '0'] else write (shortest size)
  if bits < 2 ^ 63 then text else '-' :: text

/-- Positional from 0.00001 up to below 10^16, exponential outside. -/
def concise (x : Float) : List Char :=
  signed (fun s => if -5 ≤ s.magnitude ∧ s.magnitude ≤ 15 then s.positional else s.exponential) x

/-- Positional whatever the size; the values that are not finite have names. -/
def plain (x : Float) : List Char :=
  if x.isNaN then ['N', 'a', 'N']
  else if x.isInf then if x < 0 then ['-', 'i', 'n', 'f'] else ['i', 'n', 'f']
  else signed Scientific.positional x

def integer : Int → List Char
  | .ofNat n => digits n
  | .negSucc n => '-' :: digits (n + 1)

end Shakedown.Decimal
