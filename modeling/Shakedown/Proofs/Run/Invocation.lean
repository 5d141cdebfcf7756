import Shakedown.Proofs.Run.Basic

/-!
# Which hooks a run invokes

A run is watched by giving it hooks that put themselves on record: each acts as the hook that it
stands for and then notes which hook it was and what came of it. Watching changes neither the report
nor the world that the run leaves, so the record tells what the run itself invokes.

There are two forms that the record can have. Either some install fails, and then it holds the
installs up to that one; or none does, and then it holds every install and after that every test.
What the hooks do to the registries, or to anything else in the world, has no part in it.
-/

namespace Shakedown

variable {μ : Type}

inductive Phase where
  | install
  | tests
  deriving DecidableEq

/-- That a hook of the case at some place, counted from 0, was invoked, and what it returned. -/
structure Invocation where
  phase : Phase
  index : Nat
  result : Except Failure Unit

namespace Phase

/-- One hook of each case in order, the first of them that of the case at `start`. -/
def invocationsFrom (phase : Phase) (start : Nat) : List (Except Failure Unit) → List Invocation
  | [] => []
  | result :: rest => ⟨phase, start, result⟩ :: phase.invocationsFrom (start + 1) rest

def invocations (phase : Phase) (results : List (Except Failure Unit)) : List Invocation :=
  phase.invocationsFrom 0 results

end Phase

namespace World

/-- The world as a hook sees it that knows nothing of a record. -/
def unrecorded (w : World (μ × List Invocation)) : World μ :=
  { w with memory := w.memory.1 }

/-- The world with a record beside its memory. -/
def recording (w : World μ) (record : List Invocation) : World (μ × List Invocation) :=
  { w with memory := (w.memory, record) }

end World

/-- Acts as a hook does and puts on record that it was invoked. -/
def Hook.recorded (phase : Phase) (index : Nat) (hook : Hook μ) : Hook (μ × List Invocation) :=
  fun w =>
    let (result, after) := hook w.unrecorded
    (result, after.recording (w.memory.2 ++ [⟨phase, index, result⟩]))

namespace Case

def recorded (index : Nat) (c : Case μ) : Case (μ × List Invocation) where
  name := c.name
  app := c.app
  install := Hook.recorded .install index c.install
  tests := Hook.recorded .tests index c.tests

/-- The cases with their hooks on record, the first of them as the case at `start`. -/
def recordedFrom (start : Nat) : List (Case μ) → List (Case (μ × List Invocation))
  | [] => []
  | c :: rest => c.recorded start :: recordedFrom (start + 1) rest

/-! ### Watching changes nothing -/

section Watching

variable (c : Case μ) (cases : List (Case μ)) (index : Nat) (w : World μ)
  (record : List Invocation)

theorem installHook_recorded :
    (c.recorded index).installHook (w.recording record) =
      ((c.installHook w).1, (c.installHook w).2.recording
        (record ++ [⟨.install, index, (c.installHook w).1⟩])) := rfl

theorem testsHook_recorded :
    (c.recorded index).testsHook (w.recording record) =
      ((c.testsHook w).1, (c.testsHook w).2.recording
        (record ++ [⟨.tests, index, (c.testsHook w).1⟩])) := rfl

theorem settleInstall_recorded (result : Except Failure Unit) :
    (c.recorded index).settleInstall result (w.recording record) =
      (c.settleInstall result w).recording record := by
  cases result with
  | error f => rfl
  | ok _ =>
    have hmark : (w.recording record).own.markInstalled (c.recorded index).app =
      w.own.markInstalled c.app := rfl
    unfold settleInstall
    dsimp only
    rw [hmark]
    cases w.own.markInstalled c.app <;> rfl

theorem settleTests_recorded (result : Except Failure Unit) :
    (c.recorded index).settleTests result (w.recording record) =
      (c.settleTests result w).recording record := by
  cases result <;> rfl

theorem attemptInstall_recorded :
    (c.recorded index).attemptInstall (w.recording record) =
      ((c.attemptInstall w).1, (c.attemptInstall w).2.recording
        (record ++ [⟨.install, index, (c.attemptInstall w).1.result⟩])) := by
  rw [attemptInstall_eq, attemptInstall_eq, installHook_recorded]
  simp only [settleInstall_recorded]
  rfl

theorem attemptTests_recorded :
    (c.recorded index).attemptTests (w.recording record) =
      ((c.attemptTests w).1, (c.attemptTests w).2.recording
        (record ++ [⟨.tests, index, (c.attemptTests w).1.result⟩])) := by
  rw [attemptTests_eq, attemptTests_eq, testsHook_recorded]
  simp only [settleTests_recorded]
  rfl

theorem installAll_recorded :
    installAll (recordedFrom index cases) (w.recording record) =
      ((installAll cases w).1, (installAll cases w).2.recording (record ++
        Phase.install.invocationsFrom index ((installAll cases w).1.map Attempt.result))) := by
  induction cases generalizing index w record with
  | nil => simp [recordedFrom, installAll, Phase.invocationsFrom]
  | cons c rest ih =>
    have hstep := attemptInstall_recorded c index w record
    cases hresult : (c.attemptInstall w).1.result with
    | error f =>
      rw [recordedFrom, installAll_cons_of_error rest hresult, installAll_cons_of_error]
      · simp [hstep, Phase.invocationsFrom]
      · rw [hstep, hresult]
    | ok u =>
      rw [recordedFrom, installAll_cons_of_ok rest hresult, installAll_cons_of_ok]
      · simp [hstep, ih, Phase.invocationsFrom]
      · rw [hstep, hresult]

theorem testAll_recorded :
    testAll (recordedFrom index cases) (w.recording record) =
      ((testAll cases w).1, (testAll cases w).2.recording (record ++
        Phase.tests.invocationsFrom index ((testAll cases w).1.map Attempt.result))) := by
  induction cases generalizing index w record with
  | nil => simp [recordedFrom, testAll, Phase.invocationsFrom]
  | cons c rest ih =>
    have hstep := attemptTests_recorded c index w record
    rw [recordedFrom, testAll_cons, testAll_cons, hstep, ih]
    simp [Phase.invocationsFrom]

end Watching

theorem map_app_recordedFrom (start : Nat) (cases : List (Case μ)) :
    (recordedFrom start cases).map app = cases.map app := by
  induction cases generalizing start with
  | nil => rfl
  | cons c rest ih => rw [recordedFrom, List.map_cons, List.map_cons, ih, recorded]

theorem length_recordedFrom (start : Nat) (cases : List (Case μ)) :
    (recordedFrom start cases).length = cases.length := by
  simpa using congrArg List.length (map_app_recordedFrom start cases)

/-- A report looks at the names and apps of the cases only. -/
theorem reports_recordedFrom (start : Nat) (cases : List (Case μ)) (installs tests : List Attempt) :
    reports (recordedFrom start cases) installs tests = reports cases installs tests := by
  induction cases generalizing start installs tests with
  | nil => rfl
  | cons c rest ih => rw [recordedFrom, reports, reports, ih, recorded]

end Case

namespace Suite

def recorded (s : Suite μ) : Suite (μ × List Invocation) :=
  ⟨Case.recordedFrom 0 s.cases⟩

def invocations (s : Suite μ) (w : World μ) : List Invocation :=
  (s.recorded.run (w.recording [])).2.memory.2

section Watching

variable (s : Suite μ) (w : World μ) (record : List Invocation)

theorem prepared_recorded :
    s.recorded.prepared (w.recording record) = (s.prepared w).recording record := by
  unfold prepared registerAll recorded
  rw [Case.length_recordedFrom, Case.map_app_recordedFrom]
  rfl

theorem installs_recorded :
    s.recorded.installs (w.recording record) =
      ((s.installs w).1,
        (s.installs w).2.recording (record ++ Phase.install.invocations (s.installResults w))) := by
  rw [installs, prepared_recorded]
  exact Case.installAll_recorded s.cases 0 (s.prepared w) record

theorem tests_recorded :
    s.recorded.tests (w.recording record) =
      ((s.tests w).1, (s.tests w).2.recording
        (record ++ Phase.install.invocations (s.installResults w) ++
          Phase.tests.invocations (s.testResults w))) := by
  unfold testResults tests
  rw [installs_recorded]
  by_cases hall : (s.installs w).1.all Attempt.succeeded = true
  · simp only [hall, if_true]
    exact Case.testAll_recorded s.cases 0 (s.installs w).2 _
  · simp only [hall]
    simp [Phase.invocations, Phase.invocationsFrom]

theorem run_recorded :
    s.recorded.run (w.recording record) =
      ((s.run w).1, (s.run w).2.recording
        (record ++ Phase.install.invocations (s.installResults w) ++
          Phase.tests.invocations (s.testResults w))) := by
  rw [run_eq, run_eq, tests_recorded, installs_recorded]
  simp only [recorded, Case.reports_recordedFrom]
  rfl

theorem invocations_eq :
    s.invocations w = Phase.install.invocations (s.installResults w) ++
      Phase.tests.invocations (s.testResults w) := by
  rw [invocations, run_recorded]
  rfl

end Watching

/-- Installs are invoked in order up to the first that fails and, if none does, then every test in
order. -/
theorem invocations_of_run (s : Suite μ) (w : World μ) :
    s.recorded.run (w.recording []) = ((s.run w).1, (s.run w).2.recording (s.invocations w)) ∧
      ((∃ k f, k < s.cases.length ∧
          s.invocations w =
            Phase.install.invocations (List.replicate k (.ok ()) ++ [.error f])) ∨
        ∃ results, results.length = s.cases.length ∧
          s.invocations w =
            Phase.install.invocations (List.replicate s.cases.length (.ok ())) ++
              Phase.tests.invocations results) := by
  constructor
  · rw [invocations_eq, run_recorded, List.nil_append]
  · rw [invocations_eq]
    rcases s.completed_or_aborted w with ⟨hinstalls, hlength⟩ | ⟨k, f, hk, hinstalls, htests⟩
    · exact Or.inr ⟨s.testResults w, hlength, by rw [hinstalls]⟩
    · refine Or.inl ⟨k, f, hk, ?_⟩
      rw [hinstalls, htests]
      exact List.append_nil _

end Suite

end Shakedown
