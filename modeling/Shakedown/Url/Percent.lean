import Shakedown.Text.Hex
import Shakedown.Text.Utf8

/-!
Percent encoding: bytes that may not stand for themselves are written as `%` and two digits.
-/

namespace Shakedown.Url

/-- A byte as `%` and two hexadecimal digits with capital letters. -/
def percentByte (b : UInt8) : List Char :=
  '%' :: (Text.twoHexDigits b.toNat).map Char.toUpper

/-- Encodes control characters, everything outside ASCII, and the characters in `also`. -/
def percentEncode (also : List Char) (cs : List Char) : List Char :=
  cs.flatMap fun c =>
    if c.toNat < 0x20 ∨ 0x7E < c.toNat ∨ c ∈ also then
      (String.utf8EncodeChar c).flatMap percentByte
    else [c]

/-- Decodes to bytes; a `%` without two digits stands for itself. -/
def percentDecode : List Char → List UInt8
  | '%' :: a :: b :: rest =>
    match Text.hexValue? a, Text.hexValue? b with
    | some x, some y => UInt8.ofNat (x * 16 + y) :: percentDecode rest
    | _, _ => 0x25 :: percentDecode (a :: b :: rest)
  | c :: rest => String.utf8EncodeChar c ++ percentDecode rest
  | [] => []

end Shakedown.Url
