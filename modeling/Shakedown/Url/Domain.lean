import Shakedown.Text.Hidden
import Shakedown.Text.Split
import Shakedown.Text.Utf8
import Shakedown.Url.Folding
import Shakedown.Url.Punycode

/-!
Domain names: labels with dots between them, in ASCII.

Letters lose their case. A label with characters outside ASCII is written in Punycode behind
`xn--`.

Of the full rules for such labels some are left out: plain forms of several characters, the
composition of a letter with the marks behind it, and what is asked of joiners and of texts that are
written from right to left. A label that they are about goes by the other rules alone.
-/

namespace Shakedown.Url

/-- ASCII characters that no domain name holds. -/
def isForbiddenInDomain (c : Char) : Bool :=
  c.toNat ≤ 0x20 || c.toNat == 0x7F || "%#/:<>?@[\\]^|".toList.contains c

def isAscii (cs : List Char) : Bool :=
  cs.all fun c => c.toNat < 0x80

def punycodeMark : List Char := ['x', 'n', '-', '-']

/-- A character that a label can hold as it is. -/
def isPlain (c : Char) : Bool :=
  !Text.isHidden c && foldChar c == [c]

def asciiLabel? (label : List Char) : Option (List Char) :=
  if isAscii label then
    if label.take 4 = punycodeMark then
      match Punycode.decode? (label.drop 4) with
      | some cs => if !isAscii cs && cs.all isPlain then some label else none
      | none => none
    else some label
  else
    match label.head? with
    | some c =>
      if Text.isCombining c || !label.all isPlain then none
      else some (punycodeMark ++ Punycode.encode label)
    | none => some []

/-- The domain name that bytes stand for, if they do. -/
def domain? (bytes : List UInt8) : Option (List Char) :=
  match Text.decode? bytes with
  | none => none
  | some cs =>
    let cs := cs.flatMap foldChar
    if cs.any isForbiddenInDomain then none
    else ((Text.split '.' cs).mapM asciiLabel?).map (Text.join ['.'])

end Shakedown.Url
