import Shakedown.Json.Basic

/-!
The envelope that every server puts around its answers.
-/

namespace Shakedown

/-- An answer: whether the call succeeded, a code, and perhaps data of the app and a message. -/
structure Envelope where
  ok : Bool
  code : UInt16
  appdata : Option Json
  message : Option String
  deriving Inhabited

namespace Envelope

def success (appdata : Json) : Envelope :=
  ⟨true, 200, some appdata, none⟩

def failure (code : UInt16) (message : String) : Envelope :=
  ⟨false, code, none, some message⟩

def toJson (e : Envelope) : Json :=
  .obj [("appdata", e.appdata.getD .null), ("code", .int e.code.toNat),
    ("message", Json.ofText? e.message), ("ok", .bool e.ok)]

end Envelope

end Shakedown
