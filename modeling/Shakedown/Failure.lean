import Shakedown.Failure.Network
import Shakedown.Failure.Objection
import Shakedown.Failure.System
import Shakedown.Json.Fault
import Shakedown.Severity
import Shakedown.Toml.Fault

/-!
Everything that can go wrong in a run, from the settings file to the expectations of a test.

A failure has a category, and the category alone decides its severity.
-/

namespace Shakedown

inductive Failure where
  | network (fault : NetworkFault)
  | system (fault : SystemFault)
  | json (fault : Json.Fault)
  | toml (fault : Toml.Fault)
  | settings (message : String)
  | missingSetting (field : String)
  | invalidSetting (field value : String) (objection : Objection)
  | unknownApp (name : String)
  | appNotFound (app : String)
  | adminNotSet (app : String)
  | unexpected (app action : String) (code : UInt16) (message : String)
  | transport (message : String)
  | timeout (seconds : Nat)

inductive Category where
  | configuration
  | interface
  | assertion
  | registry
  | system
  deriving DecidableEq

namespace Category

def title : Category → String
  | configuration => "Configuration"
  | interface => "Interface"
  | assertion => "Assertion"
  | registry => "Registry"
  | system => "System"

def severity : Category → Severity
  | configuration => .medium
  | assertion | registry => .high
  | interface | system => .critical

end Category

namespace Failure

def category : Failure → Category
  | settings _ | missingSetting _ | invalidSetting .. | toml _ | unknownApp _ => .configuration
  | network _ | transport _ | timeout _ | json _ => .interface
  | unexpected .. => .assertion
  | appNotFound _ | adminNotSet _ => .registry
  | system _ => .system

def severity (f : Failure) : Severity :=
  f.category.severity

/-- The exact text of a failure. -/
def message : Failure → String
  | network fault => "HTTP request failed: " ++ fault.text
  | system fault => "IO error: " ++ fault.text
  | json fault => "Serialization error: " ++ fault.text
  | toml fault => "TOML parsing error: " ++ fault.text
  | settings message => "Configuration error: " ++ message
  | missingSetting field => "Missing configuration field: " ++ field
  | invalidSetting field value objection =>
    "Invalid value '" ++ value ++ "' for " ++ field ++ ": " ++ objection.text
  | unknownApp name => "Unknown app: " ++ name
  | appNotFound app => "App not found in registry: " ++ app
  | adminNotSet app => "App " ++ app ++ " has no admin account"
  | unexpected app action code message =>
    app ++ " " ++ action ++ " failed with code " ++ String.ofList (Decimal.digits code.toNat) ++
      ": " ++ message
  | transport message => "Interface error: " ++ message
  | timeout seconds =>
    "Interface call timed out after " ++ String.ofList (Decimal.digits seconds) ++ "s"

/-- The text for the person at the terminal. -/
def friendly : Failure → String
  | unexpected app action _ message =>
    "'" ++ app ++ " " ++ action ++ "' did not succeed: " ++ message
  | timeout seconds =>
    "The server did not answer within " ++ String.ofList (Decimal.digits seconds) ++ " seconds"
  | f => f.message

def advice : Failure → String
  | settings _ | missingSetting _ | invalidSetting .. | toml _ =>
    "Check the harness configuration file"
  | unknownApp _ => "Valid apps are: core, accounts, files"
  | appNotFound _ | adminNotSet _ =>
    "Include the accounts app in the run so its admin is created first"
  | unexpected .. => "Inspect the server error log for the failing action"
  | network _ | timeout _ =>
    "Make sure the server is reachable and raise interface.timeout_seconds if needed"
  | transport _ | json _ => "Make sure interface.server_root points at an Andromeda checkout"
  | system _ => "Check file permissions and that php_binary is installed"

end Failure

end Shakedown
