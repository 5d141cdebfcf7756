/-!
UTF-8: text as bytes, and bytes as text.

Bytes are read one at a time. A sequence that breaks off, because the next byte cannot continue it
or because the bytes end, is one error, and the byte that did not fit starts anew. The bounds on
the second byte of a sequence rule out surrogates, overlong forms and numbers past U+10FFFF.
-/

namespace Shakedown.Text

def utf8 (cs : List Char) : List UInt8 :=
  cs.flatMap String.utf8EncodeChar

/-- A sequence that has begun: the bits so far, the number of bytes that are still owed, and the
bounds for the next one. -/
structure Pending where
  bits : Nat
  owed : Nat
  least : UInt8 := 0x80
  greatest : UInt8 := 0xBF
  deriving DecidableEq

/-- Reads a byte between characters: what is complete with it, and what it begins. An entry
without a character is an error. -/
def lead (b : UInt8) : List (Option Char) × Option Pending :=
  if b < 0x80 then ([some (Char.ofNat b.toNat)], none)
  else if b < 0xC2 then ([none], none)
  else if b < 0xE0 then ([], some { bits := b.toNat % 32, owed := 1 })
  else if b = 0xE0 then ([], some { bits := 0, owed := 2, least := 0xA0 })
  else if b = 0xED then ([], some { bits := 13, owed := 2, greatest := 0x9F })
  else if b < 0xF0 then ([], some { bits := b.toNat % 16, owed := 2 })
  else if b = 0xF0 then ([], some { bits := 0, owed := 3, least := 0x90 })
  else if b < 0xF4 then ([], some { bits := b.toNat % 8, owed := 3 })
  else if b = 0xF4 then ([], some { bits := 4, owed := 3, greatest := 0x8F })
  else ([none], none)

def advance (pending : Option Pending) (b : UInt8) : List (Option Char) × Option Pending :=
  match pending with
  | none => lead b
  | some p =>
    if p.least ≤ b ∧ b ≤ p.greatest then
      let bits := p.bits * 64 + b.toNat % 64
      if p.owed ≤ 1 then ([some (Char.ofNat bits)], none)
      else ([], some { bits := bits, owed := p.owed - 1 })
    else
      let (out, pending) := lead b
      (none :: out, pending)

def decodeFrom (pending : Option Pending) : List UInt8 → List (Option Char)
  | [] => if pending.isSome then [none] else []
  | b :: rest =>
    let (out, pending) := advance pending b
    out ++ decodeFrom pending rest

/-- Puts the replacement character for each error. -/
def decodeLossy (bytes : List UInt8) : List Char :=
  (decodeFrom none bytes).map fun c => c.getD '\uFFFD'

/-- Refuses bytes with an error. -/
def decode? (bytes : List UInt8) : Option (List Char) :=
  (decodeFrom none bytes).mapM id

end Shakedown.Text
