import Shakedown.Decimal.Written

/-!
Points in time, and their text: RFC 3339 in UTC.

The date is the proleptic Gregorian one. The fraction of a second is left out or has 3, 6 or 9
digits, the fewest that lose nothing. A year outside 0 to 9999 has a sign.
-/

namespace Shakedown

/-- Seconds since the start of 1970, and nanoseconds of that second. A leap second is the second
before it with a billion nanoseconds or more. -/
structure Instant where
  seconds : Int
  nanos : Nat
  deriving DecidableEq, Inhabited

namespace Instant

def ofNanos (n : Nat) : Instant :=
  ⟨(n / 1000000000 : Nat), n % 1000000000⟩

/-- Year, month and day of a day number, where day 0 is the first of January 1970. The year is
counted from March, so that a leap day is its last. -/
def civil (day : Int) : Int × Nat × Nat :=
  let z := day + 719468
  let era := z.fdiv 146097
  let dayOfEra := (z - era * 146097).toNat
  let yearOfEra :=
    (dayOfEra - dayOfEra / 1460 + dayOfEra / 36524 - dayOfEra / 146096) / 365
  let dayOfYear := dayOfEra - (365 * yearOfEra + yearOfEra / 4 - yearOfEra / 100)
  let monthFromMarch := (5 * dayOfYear + 2) / 153
  let month := if monthFromMarch < 10 then monthFromMarch + 3 else monthFromMarch - 9
  let year := (yearOfEra : Int) + era * 400 + (if month ≤ 2 then 1 else 0)
  (year, month, dayOfYear - (153 * monthFromMarch + 2) / 5 + 1)

def padded (width n : Nat) : List Char :=
  let ds := Decimal.digits n
  List.replicate (width - ds.length) '0' ++ ds

def yearText (year : Int) : List Char :=
  if 0 ≤ year ∧ year ≤ 9999 then padded 4 year.toNat
  else (if year < 0 then '-' else '+') :: padded 4 year.natAbs

def fractionText (nanos : Nat) : List Char :=
  if nanos = 0 then []
  else if nanos % 1000000 = 0 then '.' :: padded 3 (nanos / 1000000)
  else if nanos % 1000 = 0 then '.' :: padded 6 (nanos / 1000)
  else '.' :: padded 9 nanos

/-- Date and time of day, with the fraction of a second as it is written. -/
def charsWith (fraction : List Char) (t : Instant) : List Char :=
  let day := t.seconds.fdiv 86400
  let second := (t.seconds - day * 86400).toNat
  let (year, month, dayOfMonth) := civil day
  let leap := t.nanos / 1000000000
  yearText year ++ ['-'] ++ padded 2 month ++ ['-'] ++ padded 2 dayOfMonth ++ ['T'] ++
    padded 2 (second / 3600) ++ [':'] ++ padded 2 (second / 60 % 60) ++ [':'] ++
    padded 2 (second % 60 + leap) ++ fraction ++ ['Z']

def text (t : Instant) : String :=
  String.ofList (t.charsWith (fractionText (t.nanos % 1000000000)))

def microText (t : Instant) : String :=
  String.ofList (t.charsWith ('.' :: padded 6 (t.nanos % 1000000000 / 1000)))

end Instant

end Shakedown
