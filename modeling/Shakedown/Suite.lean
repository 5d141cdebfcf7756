import Shakedown.Case
import Shakedown.Report.Basic

/-!
A suite runs its cases: first every install, then every test.

The first install that fails ends the run, since later apps may need that one. A failing test ends
nothing. There is a report for each case from the start, which is filled in as the run goes on.
-/

namespace Shakedown

variable {μ : Type}

/-- The cases of a suite, in the order in which they run. -/
structure Suite (μ : Type) where
  cases : List (Case μ)

/-- What came of one hook, and the whole milliseconds it took. -/
structure Attempt where
  result : Except Failure Unit
  elapsedMs : Nat

def Attempt.time (hook : Hook μ) (w : World μ) : Attempt × World μ :=
  let (result, after) := hook w
  (⟨result, (after.clock - w.clock) / 1000000⟩, after)

def Outcome.ofTests : Except Failure Unit → Outcome
  | .ok _ => .passed
  | .error f => .failed f.message f.severity

namespace CaseReport

/-- The report on a case before anything is attempted. -/
def pending (c : Case μ) : CaseReport where
  name := c.name
  app := c.app
  outcome := .skipped
  durationMs := 0

def withTime (r : CaseReport) (attempt : Attempt) : CaseReport :=
  { r with durationMs := r.durationMs + attempt.elapsedMs }

def withOutcome (r : CaseReport) (outcome : Outcome) : CaseReport :=
  { r with outcome := outcome }

end CaseReport

namespace Case

/-- Attempts the install and, when it succeeds, marks the app as installed in the registry of the
suite. An app that is no longer registered there is no failure. -/
def attemptInstall (c : Case μ) (w : World μ) : Attempt × World μ :=
  let (attempt, w) := Attempt.time c.install (w.note .info .suite ("Installing " ++ c.name))
  match attempt.result with
  | .error f =>
    (attempt, w.note .error .suite ("❌ " ++ c.name ++ " install failed: " ++ f.message))
  | .ok _ =>
    match w.own.markInstalled c.app with
    | .ok r => (attempt, { w with own := r })
    | .error f =>
      (attempt, w.note .warn .suite
        ("Could not mark " ++ c.app.name ++ " installed: " ++ f.message))

def attemptTests (c : Case μ) (w : World μ) : Attempt × World μ :=
  let (attempt, w) := Attempt.time c.tests (w.note .info .suite ("Testing " ++ c.name))
  match attempt.result with
  | .error f => (attempt, w.note .error .suite ("❌ " ++ c.name ++ " failed: " ++ f.message))
  | .ok _ => (attempt, w.note .info .suite ("✅ " ++ c.name ++ " passed"))

/-- Attempts the installs of the cases from `index` on, up to the first that fails, and writes what
comes of them into the reports. The answer is whether none failed. -/
def installEach : Nat → List (Case μ) → List CaseReport → World μ →
    Bool × List CaseReport × World μ
  | _, [], reports, w => (true, reports, w)
  | index, c :: rest, reports, w =>
    let (attempt, w) := c.attemptInstall w
    let reports := reports.modify index fun r => r.withTime attempt
    match attempt.result with
    | .error f =>
      let reports := reports.modify index fun r =>
        r.withOutcome (.installFailed f.message f.severity)
      let earlier := (reports.take index).map fun r => r.withOutcome .notRun
      (false, earlier ++ reports.drop index, w)
    | .ok _ => installEach (index + 1) rest reports w

/-- Attempts the tests of each case and writes what comes of them into its report. -/
def testEach : List (Case μ) → List CaseReport → World μ → List CaseReport × World μ
  | [], reports, w => (reports, w)
  | _ :: _, [], w => ([], w)
  | c :: rest, r :: reports, w =>
    let (attempt, w) := c.attemptTests w
    let (reports, w) := testEach rest reports w
    ((r.withTime attempt).withOutcome (.ofTests attempt.result) :: reports, w)

/-- Puts a case behind those of the apps that install before or with its own. -/
def insert (c : Case μ) : List (Case μ) → List (Case μ)
  | [] => [c]
  | d :: rest => if c.app.rank < d.app.rank then c :: d :: rest else d :: insert c rest

end Case

namespace Suite

def empty : Suite μ := ⟨[]⟩

def add (s : Suite μ) (c : Case μ) : Suite μ :=
  ⟨c.insert s.cases⟩

def addAll (s : Suite μ) (cases : List (Case μ)) : Suite μ :=
  cases.foldl add s

/-- The suite of the standard cases of some apps, all on its own registry. -/
def forApps (server : Server) (apps : List App) (credentials : Credentials) : Suite μ :=
  empty.addAll (Case.forApps server .own apps credentials)

def caseNames (s : Suite μ) : List String :=
  s.cases.map Case.name

def registerAll (s : Suite μ) (w : World μ) : World μ :=
  { w with own := (s.cases.map Case.app).foldl Registry.register w.own }

/-- Runs the suite: every install up to the first that fails and, if none does, every test. -/
def run (s : Suite μ) (w : World μ) : Report × World μ :=
  let started := w.clock
  let w := w.note .info .suite
    ("Running " ++ String.ofList (Decimal.digits s.cases.length) ++ " test case(s)")
  let (installed, reports, w) :=
    Case.installEach 0 s.cases (s.cases.map CaseReport.pending) (s.registerAll w)
  let (reports, w) := if installed then Case.testEach s.cases reports w else (reports, w)
  ({ started := Instant.ofNanos started
     finished := Instant.ofNanos w.clock
     cases := reports }, w)

end Suite

end Shakedown
