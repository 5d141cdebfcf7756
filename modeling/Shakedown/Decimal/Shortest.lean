/-!
The shortest decimal that reads back as a given double.

A finite double other than zero is `m * 2 ^ q`. The reals that round to it form an interval
around it, with its ends when `m` is even. On the decimal grid with one digit, with two digits and
so on, the two neighbours of the double are tried; the first grid with a neighbour in the interval
gives the answer, the nearer of two neighbours wins, and of two equally near ones the even.
-/

namespace Shakedown.Decimal

-- Powers are the core ones here and in what builds on this file, also beside a library that
-- brings its own: a numeral as exponent takes the default instance.
attribute [default_instance (high + 1)] instPowNat
attribute [local instance (high)] instPowNat

/-- The number `coefficient * 10 ^ exponent`. -/
structure Scientific where
  coefficient : Nat
  exponent : Int
  deriving DecidableEq, Inhabited

/-- A positive double: the value `m * 2 ^ q`. The gap below a power of two is half the gap above. -/
structure Binary where
  m : Nat
  q : Int
  halfGapBelow : Bool
  deriving DecidableEq

namespace Binary

/-- Reads the bits of a double without its sign. -/
def ofBits (bits : Nat) : Binary :=
  let fraction : Nat := bits % 2 ^ 52
  let exponent : Nat := bits / 2 ^ 52 % 2 ^ 11
  if exponent = 0 then ⟨fraction, -1074, false⟩
  else ⟨2 ^ 52 + fraction, (exponent : Int) - 1075, fraction == 0 && exponent != 1⟩

/-- Quarters of the last place, as a fraction: `n` of them are `n * num / den`. -/
def quarter (b : Binary) : Nat × Nat :=
  if b.q ≥ 2 then (2 ^ (b.q - 2).toNat, 1) else (1, 2 ^ (2 - b.q).toNat)

/-- The `e` with `10 ^ e ≤ value < 10 ^ (e + 1)`. -/
def magnitude (b : Binary) : Int :=
  let (num, den) := b.quarter
  let v := 4 * b.m * num
  if den ≤ v then ((Nat.toDigits 10 (v / den)).length : Int) - 1
  else -((Nat.toDigits 10 ((den + v - 1) / v - 1)).length : Int)

/-- `n * 10 ^ p` in units that make quarters of the last place whole: the pair compares with
`quarters * num` by its first part, once these are multiplied by its second part. -/
def onGrid (b : Binary) (n : Nat) (p : Int) : Nat × Nat :=
  let den := b.quarter.2
  if p ≥ 0 then (n * 10 ^ p.toNat * den, 1) else (n * den, 10 ^ (-p).toNat)

/-- Whether `n * 10 ^ p` rounds to the double. -/
def accepts (b : Binary) (n : Nat) (p : Int) : Bool :=
  let (x, scale) := b.onGrid n p
  let num := b.quarter.1
  let low := (4 * b.m - (if b.halfGapBelow then 1 else 2)) * num * scale
  let high := (4 * b.m + 2) * num * scale
  if b.m % 2 = 0 then low ≤ x && x ≤ high else low < x && x < high

/-- The distance between `n * 10 ^ p` and the double, comparable for one `p`. -/
def distance (b : Binary) (n : Nat) (p : Int) : Nat :=
  let (x, scale) := b.onGrid n p
  let v := 4 * b.m * b.quarter.1 * scale
  (x - v) + (v - x)

/-- The greatest `n` with `n * 10 ^ p` at most the double. -/
def floorOn (b : Binary) (p : Int) : Nat :=
  let (unit, scale) := b.onGrid 1 p
  4 * b.m * b.quarter.1 * scale / unit

/-- The better neighbour on the grid of step `10 ^ p`, if one of the two rounds to the double. -/
def neighbour? (b : Binary) (p : Int) : Option Nat :=
  let n := b.floorOn p
  match b.accepts n p && n != 0, b.accepts (n + 1) p with
  | false, false => none
  | true, false => some n
  | false, true => some (n + 1)
  | true, true =>
    let below := b.distance n p
    let above := b.distance (n + 1) p
    if below < above then some n
    else if above < below then some (n + 1)
    else some (if n % 2 = 0 then n else n + 1)

/-- Tries the grids with `17 - fuel` further digits and on. -/
def search (b : Binary) (top : Int) : Nat → Scientific
  | 0 => ⟨b.floorOn (top - 16), top - 16⟩
  | fuel + 1 =>
    let p := top - (16 - fuel : Int)
    match b.neighbour? p with
    | some n => ⟨n, p⟩
    | none => search b top fuel

end Binary

def Scientific.reduce (s : Scientific) : Nat → Scientific
  | 0 => s
  | fuel + 1 =>
    if s.coefficient ≠ 0 ∧ s.coefficient % 10 = 0 then
      Scientific.reduce ⟨s.coefficient / 10, s.exponent + 1⟩ fuel
    else s

/-- The shortest decimal for the bits of a positive finite double. -/
def shortest (bits : Nat) : Scientific :=
  let b := Binary.ofBits bits
  (b.search b.magnitude 17).reduce 18

end Shakedown.Decimal
