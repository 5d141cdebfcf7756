import Shakedown.Text.Split
import Shakedown.Url.Percent

/-!
Names with values as one text: the format `application/x-www-form-urlencoded`.

A space becomes `+`; letters, digits and `*-._` stay; every other byte is percent-encoded. So no
name and no value can hold the `&` and `=` that separate them.
-/

namespace Shakedown.Url

/-- Whether a byte of a name or a value stands for itself. -/
def isFormPlain (b : UInt8) : Bool :=
  let c := Char.ofNat b.toNat
  c.isAlphanum || c = '*' || c = '-' || c = '.' || c = '_'

def formByte (b : UInt8) : List Char :=
  if b = 0x20 then ['+']
  else if isFormPlain b then [Char.ofNat b.toNat]
  else percentByte b

def formText (s : String) : List Char :=
  (Text.utf8 s.toList).flatMap formByte

def formPair (p : String × String) : List Char :=
  formText p.1 ++ '=' :: formText p.2

/-- Appends pairs to a text that may hold pairs already. -/
def formAppend : List Char → List (String × String) → List Char
  | start, [] => start
  | start, p :: rest =>
    formAppend ((if start.isEmpty then [] else start ++ ['&']) ++ formPair p) rest

def formEncode (pairs : List (String × String)) : List Char :=
  formAppend [] pairs

def formTextDecode (cs : List Char) : String :=
  String.ofList (Text.decodeLossy (percentDecode (cs.map fun c => if c = '+' then ' ' else c)))

/-- Reads the pairs back: pieces without a character are none, and the first `=` separates. -/
def formDecode (cs : List Char) : List (String × String) :=
  ((Text.split '&' cs).filter fun piece => !piece.isEmpty).map fun piece =>
    (formTextDecode (piece.takeWhile (· ≠ '=')),
      formTextDecode ((piece.dropWhile (· ≠ '=')).drop 1))

end Shakedown.Url
