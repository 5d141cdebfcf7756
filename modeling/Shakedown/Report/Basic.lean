import Shakedown.App
import Shakedown.Failure
import Shakedown.Instant

/-!
The report of a run: one outcome for each case, in the order of the cases.
-/

namespace Shakedown

inductive Outcome where
  | passed
  | installFailed (message : String) (severity : Severity)
  | failed (message : String) (severity : Severity)
  /-- Installed, but a later install failed. -/
  | notRun
  /-- An earlier install failed. -/
  | skipped
  deriving DecidableEq, Inhabited

def Outcome.severity? : Outcome → Option Severity
  | installFailed _ severity | failed _ severity => some severity
  | passed | notRun | skipped => none

structure CaseReport where
  name : String
  app : App
  outcome : Outcome
  durationMs : Nat
  deriving DecidableEq, Inhabited

structure Report where
  started : Instant
  finished : Instant
  cases : List CaseReport
  deriving DecidableEq, Inhabited

namespace Report

def passed (r : Report) : Nat :=
  r.cases.countP fun c => c.outcome == .passed

def failed (r : Report) : Nat :=
  r.cases.countP fun c => c.outcome.severity?.isSome

def isSuccess (r : Report) : Bool :=
  r.cases.all fun c => c.outcome == .passed

def worstSeverity? (r : Report) : Option Severity :=
  Severity.worst? (r.cases.filterMap fun c => c.outcome.severity?)

/-- The exit code of the worst failure; without one, 0 only if every case passed. -/
def exitCode (r : Report) : Nat :=
  match r.worstSeverity? with
  | some severity => severity.exitCode
  | none => if r.isSuccess then 0 else Severity.high.exitCode

end Report

end Shakedown
