import Shakedown.Instant
import Shakedown.Json.Printer
import Shakedown.Log.Event

/-!
Events as lines, for a person or for another program.

A line for a person goes to a terminal, so the characters that could steer the terminal are
written out; line breaks stay.
-/

namespace Shakedown.Log

/-- A character of a message, harmless for a terminal. -/
def terminalChar (c : Char) : List Char :=
  if c = '\x07' ∨ c = '\x08' ∨ c = '\x0c' ∨ c = '\x1b' ∨ c = '\x7f' then
    ['\\', 'x'] ++ Text.twoHexDigits c.toNat
  else if 0x80 ≤ c.toNat ∧ c.toNat ≤ 0x9F then
    "\\u\x7b".toList ++ Nat.toDigits 16 c.toNat ++ ['}']
  else [c]

def Event.terminalText (e : Event) : String :=
  String.ofList (e.message.toList.flatMap terminalChar)

/-- Time, level and message; the names of the levels end in one column. -/
def Event.plainLine (time : Instant) (e : Event) : String :=
  let level := e.level.name.toList
  time.microText ++ " " ++ String.ofList (List.replicate (5 - level.length) ' ' ++ level) ++ " " ++
    e.terminalText

def Event.jsonLine (time : Instant) (e : Event) : String :=
  (Json.obj [("timestamp", .str time.microText), ("level", .str e.level.name),
    ("fields", .obj [("message", .str e.message)])]).compact

end Shakedown.Log
