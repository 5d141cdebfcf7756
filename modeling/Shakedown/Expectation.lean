import Shakedown.Envelope
import Shakedown.Failure

/-!
What a test expects of an answer: success, or a refusal with a certain message.
-/

namespace Shakedown.Envelope

def said (e : Envelope) : String :=
  e.message.getD "no message"

def requireOk (e : Envelope) (app action : String) : Except Failure (Option Json) :=
  if e.ok then .ok e.appdata
  else .error (.unexpected app action e.code e.said)

def requireRefusal (e : Envelope) (app action expected : String) : Except Failure Unit :=
  if e.ok then
    .error (.unexpected app action e.code ("expected " ++ expected ++ " but call succeeded"))
  else if e.message = some expected then .ok ()
  else .error (.unexpected app action e.code ("expected " ++ expected ++ " but got " ++ e.said))

end Shakedown.Envelope
