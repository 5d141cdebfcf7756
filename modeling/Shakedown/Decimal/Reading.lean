import Shakedown.Decimal.Written

/-!
Digits as numbers, and the double for a decimal.

A decimal that is read keeps as many leading digits as fit 64 bits. Its double is the double of
these digits times or divided by the double of a power of ten, so it is rounded twice.
-/

namespace Shakedown.Decimal

/-- The value of digits behind those of `start`. -/
def valueFrom (start : Nat) (ds : List Char) : Nat :=
  ds.foldl (fun n d => n * 10 + (d.toNat - '0'.toNat)) start

def value (ds : List Char) : Nat :=
  valueFrom 0 ds

/-- Takes digits as long as the value fits 64 bits: the value, and the digits that were left. -/
def absorb (start : Nat) : List Char → Nat × List Char
  | [] => (start, [])
  | d :: rest =>
    let next := start * 10 + (d.toNat - '0'.toNat)
    if next < 2 ^ 64 then absorb next rest else (start, d :: rest)

def powerOfTen (n : Nat) : Float :=
  Float.ofScientific 1 false n

/-- `x * 10 ^ exponent`, unless it is too large. Below `10 ^ -308` the division goes in steps. -/
def scale (x : Float) (exponent : Int) : Nat → Option Float
  | 0 => some x
  | fuel + 1 =>
    if exponent.natAbs ≤ 308 then
      if exponent ≥ 0 then
        let y := x * powerOfTen exponent.natAbs
        if y.isInf then none else some y
      else some (x / powerOfTen exponent.natAbs)
    else if x == 0 then some x
    else if exponent ≥ 0 then none
    else scale (x / powerOfTen 308) (exponent + 308) fuel

/-- The double for `significand * 10 ^ exponent`; four steps reach zero from 64 bits. -/
def toFloat? (significand : Nat) (exponent : Int) : Option Float :=
  scale significand.toUInt64.toFloat exponent 4

end Shakedown.Decimal
