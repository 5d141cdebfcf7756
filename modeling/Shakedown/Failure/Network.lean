/-!
Why a request got no answer.
-/

namespace Shakedown

inductive NetworkFault where
  /-- No request can be made of the URL, which is named when it could be read. -/
  | unbuildable (url : Option String)
  | unreachable (url : String)
  /-- The answer broke off before its end. -/
  | brokenBody
  deriving DecidableEq

namespace NetworkFault

def text : NetworkFault → String
  | unbuildable none => "builder error"
  | unbuildable (some url) => "builder error for url (" ++ url ++ ")"
  | unreachable url => "error sending request for url (" ++ url ++ ")"
  | brokenBody => "error decoding response body"

end NetworkFault

end Shakedown
