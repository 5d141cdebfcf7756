import Shakedown.Case
import Shakedown.Json.Basic
import Shakedown.Transport.Endpoint
import Shakedown.Transport.Shell

/-!
The settings of a run: how to reach the server, whom to create as administrator, and which apps to
test.
-/

namespace Shakedown

inductive Kind where
  | cli
  | http
  deriving DecidableEq, Inhabited

namespace Kind

def name : Kind → String
  | cli => "cli"
  | http => "http"

def title : Kind → String
  | cli => "Cli"
  | http => "Http"

def ofName? (s : String) : Option Kind :=
  [cli, http].find? fun k => k.name == s

theorem ofName?_eq_some_iff {s : String} {k : Kind} : ofName? s = some k ↔ s = k.name := by
  constructor
  · intro h
    exact (eq_of_beq (by simpa using List.find?_some h)).symm
  · rintro rfl
    cases k <;> decide

end Kind

structure InterfaceSettings where
  kind : Kind
  phpBinary : Option String := none
  serverRoot : Option String := none
  url : Option String := none
  timeoutSeconds : Option Nat := none
  deriving DecidableEq, Inhabited

structure Settings where
  interface : InterfaceSettings
  accounts : Credentials
  apps : List App
  deriving DecidableEq, Inhabited

/-- A way to the server, ready for calls. -/
inductive Transport where
  | shell (s : Shell)
  | endpoint (e : Endpoint)
  deriving DecidableEq

namespace Settings

def phpBinary (s : Settings) : String :=
  s.interface.phpBinary.getD "php"

def timeoutSeconds (s : Settings) : Nat :=
  s.interface.timeoutSeconds.getD 30

def required {α : Type} (field : String) (value : Option α) : Except Failure α :=
  match value with
  | some a => .ok a
  | none => .error (.missingSetting field)

def transport (s : Settings) : Except Failure Transport :=
  let timeoutMs := s.timeoutSeconds * 1000
  match s.interface.kind with
  | .cli =>
    (required "interface.server_root" s.interface.serverRoot).map fun root =>
      .shell ⟨s.phpBinary, root, timeoutMs⟩
  | .http =>
    (required "interface.url" s.interface.url).map fun url => .endpoint ⟨url, timeoutMs⟩

end Settings

end Shakedown
