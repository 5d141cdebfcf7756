import Shakedown.Proofs.Run.Attempts

/-!
# The phases of a run

A run has two phases: the installs up to the first that fails and, if none does, all tests. The
installs are given here by what they return, and there are two forms: either every install returned
success, or a number of them did and the next one failed.
-/

namespace Shakedown

variable {μ : Type}

namespace Case

def installHook (c : Case μ) (w : World μ) : Except Failure Unit × World μ :=
  c.install (w.note .info .suite ("Installing " ++ c.name))

def testsHook (c : Case μ) (w : World μ) : Except Failure Unit × World μ :=
  c.tests (w.note .info .suite ("Testing " ++ c.name))

/-- What a run does when an install has returned: it notes a failure, and after a success it marks
the app as installed. -/
def settleInstall (c : Case μ) (result : Except Failure Unit) (w : World μ) : World μ :=
  match result with
  | .error f => w.note .error .suite ("❌ " ++ c.name ++ " install failed: " ++ f.message)
  | .ok _ =>
    match w.own.markInstalled c.app with
    | .ok r => { w with own := r }
    | .error f =>
      w.note .warn .suite ("Could not mark " ++ c.app.name ++ " installed: " ++ f.message)

def settleTests (c : Case μ) (result : Except Failure Unit) (w : World μ) : World μ :=
  match result with
  | .error f => w.note .error .suite ("❌ " ++ c.name ++ " failed: " ++ f.message)
  | .ok _ => w.note .info .suite ("✅ " ++ c.name ++ " passed")

theorem attemptInstall_eq (c : Case μ) (w : World μ) :
    c.attemptInstall w =
      (⟨(c.installHook w).1, ((c.installHook w).2.clock - w.clock) / 1000000⟩,
        c.settleInstall (c.installHook w).1 (c.installHook w).2) := by
  unfold attemptInstall Attempt.time
  change _ = (_, settleInstall c (c.install _).1 (c.install _).2)
  unfold installHook
  generalize c.install (w.note .info .suite ("Installing " ++ c.name)) = outcome
  obtain ⟨result, after⟩ := outcome
  cases result with
  | error f => rfl
  | ok _ =>
    simp only [settleInstall]
    cases after.own.markInstalled c.app <;> rfl

theorem attemptTests_eq (c : Case μ) (w : World μ) :
    c.attemptTests w =
      (⟨(c.testsHook w).1, ((c.testsHook w).2.clock - w.clock) / 1000000⟩,
        c.settleTests (c.testsHook w).1 (c.testsHook w).2) := by
  unfold attemptTests Attempt.time testsHook
  generalize c.tests (w.note .info .suite ("Testing " ++ c.name)) = outcome
  obtain ⟨result, after⟩ := outcome
  cases result <;> rfl

theorem result_attemptInstall (c : Case μ) (w : World μ) :
    (c.attemptInstall w).1.result = (c.installHook w).1 := by
  rw [attemptInstall_eq]

theorem result_attemptTests (c : Case μ) (w : World μ) :
    (c.attemptTests w).1.result = (c.testsHook w).1 := by
  rw [attemptTests_eq]

@[simp]
theorem calls_settleInstall (c : Case μ) (result : Except Failure Unit) (w : World μ) :
    (c.settleInstall result w).calls = w.calls := by
  unfold settleInstall
  cases result with
  | error f => rfl
  | ok _ => cases w.own.markInstalled c.app <;> rfl

@[simp]
theorem calls_settleTests (c : Case μ) (result : Except Failure Unit) (w : World μ) :
    (c.settleTests result w).calls = w.calls := by
  cases result <;> rfl

@[simp]
theorem own_settleTests (c : Case μ) (result : Except Failure Unit) (w : World μ) :
    (c.settleTests result w).own = w.own := by
  cases result <;> rfl

/-! ### The two phases -/

theorem length_testAll (cases : List (Case μ)) (w : World μ) :
    (testAll cases w).1.length = cases.length := by
  induction cases generalizing w with
  | nil => rfl
  | cons c rest ih => rw [testAll_cons, List.length_cons, List.length_cons, ih]

/-- The installs that run either all succeed, or all but the last of them do. -/
theorem installAll_results (cases : List (Case μ)) (w : World μ) :
    (installAll cases w).1.map Attempt.result = List.replicate cases.length (.ok ()) ∨
      ∃ k f, k < cases.length ∧
        (installAll cases w).1.map Attempt.result = List.replicate k (.ok ()) ++ [.error f] := by
  induction cases generalizing w with
  | nil => exact Or.inl rfl
  | cons c rest ih =>
    cases hresult : (c.attemptInstall w).1.result with
    | error f =>
      refine Or.inr ⟨0, f, Nat.succ_pos _, ?_⟩
      rw [installAll_cons_of_error rest hresult, List.map_cons, hresult]
      rfl
    | ok u =>
      rw [installAll_cons_of_ok rest hresult, List.map_cons, hresult]
      rcases ih (c.attemptInstall w).2 with hall | ⟨k, f, hk, hsome⟩
      · left
        rw [hall]
        rfl
      · refine Or.inr ⟨k + 1, f, Nat.succ_lt_succ hk, ?_⟩
        rw [hsome]
        rfl

end Case

theorem Attempt.all_succeeded_iff {attempts : List Attempt} :
    attempts.all Attempt.succeeded = true ↔
      attempts.map Attempt.result = List.replicate attempts.length (.ok ()) := by
  induction attempts with
  | nil => simp
  | cons a rest ih =>
    rw [List.all_cons, Bool.and_eq_true, ih, Attempt.succeeded_iff, List.map_cons,
      List.length_cons, List.replicate_succ, List.cons.injEq]

namespace Suite

def prepared (s : Suite μ) (w : World μ) : World μ :=
  s.registerAll (w.note .info .suite
    ("Running " ++ String.ofList (Decimal.digits s.cases.length) ++ " test case(s)"))

def installs (s : Suite μ) (w : World μ) : List Attempt × World μ :=
  Case.installAll s.cases (s.prepared w)

/-- The tests of a run and the world after them; there are none when an install failed. -/
def tests (s : Suite μ) (w : World μ) : List Attempt × World μ :=
  if (s.installs w).1.all Attempt.succeeded then Case.testAll s.cases (s.installs w).2
  else ([], (s.installs w).2)

def installResults (s : Suite μ) (w : World μ) : List (Except Failure Unit) :=
  (s.installs w).1.map Attempt.result

def testResults (s : Suite μ) (w : World μ) : List (Except Failure Unit) :=
  (s.tests w).1.map Attempt.result

theorem run_eq (s : Suite μ) (w : World μ) :
    s.run w =
      ({ started := Instant.ofNanos w.clock
         finished := Instant.ofNanos (s.tests w).2.clock
         cases := Case.reports s.cases (s.installs w).1 (s.tests w).1 }, (s.tests w).2) :=
  run_eq_reports s w

theorem cases_run (s : Suite μ) (w : World μ) :
    (s.run w).1.cases = Case.reports s.cases (s.installs w).1 (s.tests w).1 := by
  rw [run_eq]

theorem tests_of_installed {s : Suite μ} {w : World μ}
    (hall : s.installResults w = List.replicate s.cases.length (.ok ())) :
    s.tests w = Case.testAll s.cases (s.installs w).2 := by
  have hlength : (s.installs w).1.length = s.cases.length := by
    have := congrArg List.length hall
    simpa [installResults] using this
  rw [tests, if_pos]
  rw [Attempt.all_succeeded_iff, hlength]
  exact hall

theorem tests_of_failed {s : Suite μ} {w : World μ} {k : Nat} {f : Failure}
    (hsome : s.installResults w = List.replicate k (.ok ()) ++ [.error f]) :
    s.tests w = ([], (s.installs w).2) := by
  rw [tests, if_neg]
  intro hall
  rw [Attempt.all_succeeded_iff] at hall
  have hmem : Except.error f ∈ s.installResults w := by
    rw [hsome]
    simp
  rw [installResults, hall] at hmem
  exact nomatch List.eq_of_mem_replicate hmem

/-- A run is completed, with every install and every test, or it is aborted by a failing install
and has no test. -/
theorem completed_or_aborted (s : Suite μ) (w : World μ) :
    (s.installResults w = List.replicate s.cases.length (.ok ()) ∧
        (s.testResults w).length = s.cases.length) ∨
      ∃ k f, k < s.cases.length ∧
        s.installResults w = List.replicate k (.ok ()) ++ [.error f] ∧ s.testResults w = [] := by
  rcases Case.installAll_results s.cases (s.prepared w) with hall | ⟨k, f, hk, hsome⟩
  · refine Or.inl ⟨hall, ?_⟩
    rw [testResults, tests_of_installed hall, List.length_map, Case.length_testAll]
  · refine Or.inr ⟨k, f, hk, hsome, ?_⟩
    rw [testResults, tests_of_failed hsome, List.map_nil]

end Suite

end Shakedown
