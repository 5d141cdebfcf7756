/-!
Events that a run reports while it goes on.
-/

namespace Shakedown.Log

/-- From most to least urgent. -/
inductive Level where
  | error
  | warn
  | info
  | debug
  | trace
  deriving DecidableEq, Inhabited

namespace Level

def rank : Level → Nat
  | error => 1
  | warn => 2
  | info => 3
  | debug => 4
  | trace => 5

def name : Level → String
  | error => "ERROR"
  | warn => "WARN"
  | info => "INFO"
  | debug => "DEBUG"
  | trace => "TRACE"

end Level

inductive Area where
  | program
  | overrides
  | suite
  | expectations
  | accountsCase
  | filesCase
  | shell
  | endpoint
  deriving DecidableEq, Inhabited

def Area.name : Area → String
  | program => "andromeda_harness"
  | overrides => "andromeda_harness::config::cli"
  | suite => "andromeda_harness::core::harness"
  | expectations => "andromeda_harness::core::assert"
  | accountsCase => "andromeda_harness::app::cases::accounts"
  | filesCase => "andromeda_harness::app::cases::files"
  | shell => "andromeda_harness::adapters::cli"
  | endpoint => "andromeda_harness::adapters::http"

structure Event where
  level : Level
  area : Area
  message : String
  deriving DecidableEq, Inhabited

end Shakedown.Log
