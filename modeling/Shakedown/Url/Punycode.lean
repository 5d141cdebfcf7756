/-!
Punycode: a text of any characters as letters, digits and hyphens.

The ASCII characters come first, behind them a hyphen if there are any. Then the other characters
follow in increasing order, each by its distance in the walk through all code points and places,
as a number of variable length whose thresholds adapt to the distances seen.
-/

namespace Shakedown.Url.Punycode

/-- Letters stand for 0 to 25 and digits for 26 to 35. -/
def digit (n : Nat) : Char :=
  if n < 26 then Char.ofNat ('a'.toNat + n) else Char.ofNat ('0'.toNat + (n - 26))

def digitValue? (c : Char) : Option Nat :=
  if 'a' ≤ c ∧ c ≤ 'z' then some (c.toNat - 'a'.toNat)
  else if 'A' ≤ c ∧ c ≤ 'Z' then some (c.toNat - 'A'.toNat)
  else if c.isDigit then some (c.toNat - '0'.toNat + 26)
  else none

/-- The threshold of the digit with weight number `k`, where `k` counts in steps of 36. -/
def threshold (k bias : Nat) : Nat :=
  if k ≤ bias then 1 else if bias + 26 ≤ k then 26 else k - bias

/-- Scales a distance down until it is small, counting the steps. -/
def adaptLoop : Nat → Nat → Nat → Nat
  | 0, _, k => k
  | fuel + 1, delta, k => if 455 < delta then adaptLoop fuel (delta / 35) (k + 36) else
      k + 36 * delta / (delta + 38)

/-- The bias after a distance, of which there have been `count`. -/
def adapt (delta count : Nat) (first : Bool) : Nat :=
  let delta := if first then delta / 700 else delta / 2
  adaptLoop 32 (delta + delta / count) 0

def encodeNumber (bias : Nat) : Nat → Nat → Nat → List Char
  | 0, _, _ => []
  | fuel + 1, q, k =>
    let t := threshold k bias
    if q < t then [digit q]
    else digit (t + (q - t) % (36 - t)) :: encodeNumber bias fuel ((q - t) / (36 - t)) (k + 36)

/-- The state of the walk: the code point, the distance so far, the bias, and how many characters
have been written. -/
structure Walk where
  point : Nat
  delta : Nat
  bias : Nat
  count : Nat

def writePoint (basic point : Nat) : List Nat → Walk → List Char × Walk
  | [], w => ([], w)
  | c :: rest, w =>
    if c < point then writePoint basic point rest { w with delta := w.delta + 1 }
    else if c = point then
      let number := encodeNumber w.bias 32 w.delta 36
      let bias := adapt w.delta (w.count + 1) (w.count == basic)
      let (more, w) := writePoint basic point rest
        { w with delta := 0, bias := bias, count := w.count + 1 }
      (number ++ more, w)
    else writePoint basic point rest w

/-- Walks over the code points that are left, at most `fuel` of them. -/
def writePoints (basic : Nat) (points : List Nat) : Nat → Walk → List Char
  | 0, _ => []
  | fuel + 1, w =>
    match (points.filter fun p => w.point ≤ p).min? with
    | none => []
    | some next =>
      let w := { w with delta := w.delta + (next - w.point) * (w.count + 1) }
      let (out, w) := writePoint basic next points w
      out ++ writePoints basic points fuel { w with point := next + 1, delta := w.delta + 1 }

def encode (cs : List Char) : List Char :=
  let basic := cs.filter fun c => c.toNat < 0x80
  let start := if basic.isEmpty then [] else basic ++ ['-']
  start ++ writePoints basic.length (cs.map Char.toNat) cs.length
    { point := 0x80, delta := 0, bias := 72, count := basic.length }

/-- Reads a number of variable weight behind `value`: the sum, and the text behind it. -/
def decodeNumber (bias : Nat) : Nat → Nat → Nat → Nat → List Char → Option (Nat × List Char)
  | 0, _, _, _, _ | _, _, _, _, [] => none
  | fuel + 1, value, weight, k, c :: rest =>
    match digitValue? c with
    | none => none
    | some d =>
      let t := threshold k bias
      let value := value + d * weight
      if d < t then some (value, rest)
      else decodeNumber bias fuel value (weight * (36 - t)) (k + 36) rest

/-- Puts characters into a text one by one, at most `fuel` of them. -/
def insertPoints : Nat → Walk → List Nat → List Char → Option (List Nat)
  | _, _, points, [] => some points
  | 0, _, _, _ => none
  | fuel + 1, w, points, cs =>
    match decodeNumber w.bias 32 w.delta 1 36 cs with
    | none => none
    | some (i, rest) =>
      let size := points.length + 1
      let point := w.point + i / size
      let place := i % size
      insertPoints fuel
        { point := point
          delta := place + 1
          bias := adapt (i - w.delta) size (w.count == 0)
          count := w.count + 1 }
        (points.take place ++ point :: points.drop place) rest

def decode? (cs : List Char) : Option (List Char) :=
  let tail := (cs.reverse.takeWhile (· ≠ '-')).reverse
  let basic := (cs.take (cs.length - tail.length)).dropLast
  match insertPoints cs.length { point := 0x80, delta := 0, bias := 72, count := 0 }
      (basic.map Char.toNat) tail with
  | none => none
  | some points =>
    if points.all fun p => p < 0xD800 || (0xDFFF < p && p < 0x110000) then
      some (points.map Char.ofNat)
    else none

end Shakedown.Url.Punycode
