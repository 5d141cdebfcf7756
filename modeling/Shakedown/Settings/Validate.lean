import Shakedown.Settings.Basic
import Shakedown.Settings.Placeholder
import Shakedown.Settings.Rule

/-!
Whether settings can be used for a run.

The first rule that is broken is the one that is reported. Settings of the transport that is not
selected are not looked at.
-/

namespace Shakedown.Settings

def validateInterface (s : Settings) : Except Failure Unit :=
  match s.interface.kind with
  | .cli => do
    let root ← required "interface.server_root" s.interface.serverRoot
    checkPath "interface.server_root" root
    checkNotBlank "interface.php_binary" s.phpBinary
  | .http => do
    let url ← required "interface.url" s.interface.url
    checkUrl "interface.url" url

/-- A timeout that is set lies between a second and an hour. -/
def validateTimeout (s : Settings) : Except Failure Unit :=
  match s.interface.timeoutSeconds with
  | some n => checkRange "interface.timeout_seconds" n 1 3600
  | none => .ok ()

/-- The password holds no placeholder of a variable that is not set. -/
def validatePassword (env : Environment) (s : Settings) : Except Failure Unit :=
  match Placeholder.firstUnset? env s.accounts.password.toList with
  | some name =>
    objectTo "accounts.admin_password"
      (String.ofList (Placeholder.Piece.variable_ name).chars) .unsetVariable
  | none => .ok ()

/-- What an app needs and a list lacks, first of all. -/
def lacking? (apps : List App) (app : App) : Option (App × App) :=
  (app.needs.find? fun need => !apps.contains need).map fun need => (app, need)

/-- Some app is listed, and with each app everything it needs. -/
def validateApps (s : Settings) : Except Failure Unit :=
  if s.apps.isEmpty then objectTo "run.apps" "[]" .noApps
  else
    match s.apps.findSome? (lacking? s.apps) with
    | some (app, need) => objectTo "run.apps" app.name (.lacks app need)
    | none => .ok ()

def validate (env : Environment) (s : Settings) : Except Failure Unit := do
  s.validateInterface
  s.validateTimeout
  checkNotBlank "accounts.admin_username" s.accounts.username
  s.validatePassword env
  s.validateApps

end Shakedown.Settings
