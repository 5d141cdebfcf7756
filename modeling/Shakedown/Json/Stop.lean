import Shakedown.Json.Fault

/-!
Where reading stops.

A reader works on the characters that are left. It stops with what it could not accept: the text
that was left then, and how many bytes of that text it had looked at.
-/

namespace Shakedown.Json

-- The zero of a sum is the core one, whatever instances a reader of this file adds.
attribute [local instance (high)] Zero.ofOfNat0

structure Stop where
  problem : Problem
  rest : List Char
  ahead : Nat

/-- Stops behind everything read so far. -/
def stopAt {α : Type} (problem : Problem) (rest : List Char) : Except Stop α :=
  .error ⟨problem, rest, 0⟩

/-- Stops after a look at the next byte. -/
def stopAfter {α : Type} (problem : Problem) (rest : List Char) : Except Stop α :=
  .error ⟨problem, rest, 1⟩

def byteCount (cs : List Char) : Nat :=
  (cs.map Char.utf8Size).sum

/-- The line and column after the first `n` bytes of a text. A line break within them starts a
line; every other byte is a column. -/
def positionFrom (line column : Nat) : List Char → Nat → Nat × Nat
  | [], _ => (line, column)
  | c :: rest, n =>
    if n = 0 then (line, column)
    else if c = '\n' then positionFrom (line + 1) 0 rest (n - 1)
    else if c.utf8Size ≤ n then positionFrom line (column + c.utf8Size) rest (n - c.utf8Size)
    else (line, column + n)

/-- The fault that a stop is, in the text that was read from its start. -/
def Stop.fault (s : Stop) (text : List Char) : Fault :=
  let (line, column) :=
    positionFrom 1 0 text (byteCount text - byteCount s.rest + s.ahead)
  ⟨s.problem, line, column⟩

end Shakedown.Json
