import Shakedown.Text.Hidden

/-!
Debug text: a text between quotes on one line, in which nothing is invisible.

Quotes and backslashes get a backslash, four control characters have a letter, and every other
hidden or combining character is written by its code point.
-/

namespace Shakedown.Text

/-- A character by its code point in hexadecimal, such as `\u{200b}`. -/
def codePoint (c : Char) : List Char :=
  ['\\', 'u', '{'] ++ Nat.toDigits 16 c.toNat ++ ['}']

def escapeChar (c : Char) : List Char :=
  if c = '\x00' then ['\\', '0']
  else if c = '\t' then ['\\', 't']
  else if c = '\r' then ['\\', 'r']
  else if c = '\n' then ['\\', 'n']
  else if c = '"' then ['\\', '"']
  else if c = '\\' then ['\\', '\\']
  else if isCombining c || isHidden c then codePoint c
  else [c]

def quoteChars (cs : List Char) : List Char :=
  '"' :: (cs.flatMap escapeChar ++ ['"'])

def quote (s : String) : String :=
  String.ofList (quoteChars s.toList)

end Shakedown.Text
