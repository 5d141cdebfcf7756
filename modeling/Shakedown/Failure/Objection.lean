import Shakedown.App
import Shakedown.Decimal.Written
import Shakedown.Url.Fault

/-!
What can be wrong with the value of a setting.
-/

namespace Shakedown

inductive Objection where
  | emptyUrl
  | malformedUrl (fault : Url.Fault)
  | unsupportedScheme (scheme : String)
  | emptyPath
  | nulInPath
  | blank
  | outside (least greatest : Int)
  | unsetVariable
  | noApps
  | lacks (app need : App)
  | stated (text : String)
  deriving DecidableEq

def Objection.text : Objection → String
  | emptyUrl => "URL cannot be empty"
  | malformedUrl fault => "Invalid URL format: " ++ fault.text
  | unsupportedScheme scheme => "Unsupported URL scheme: " ++ scheme
  | emptyPath => "Path cannot be empty"
  | nulInPath => "Path contains null bytes"
  | blank => "Value cannot be empty or whitespace-only"
  | outside least greatest =>
    "Value must be between " ++ String.ofList (Decimal.integer least) ++ " and " ++
      String.ofList (Decimal.integer greatest)
  | unsetVariable => "environment variable is not set"
  | noApps => "At least one app must be selected"
  | lacks app need => app.name ++ " requires " ++ need.name
  | stated text => text

end Shakedown
