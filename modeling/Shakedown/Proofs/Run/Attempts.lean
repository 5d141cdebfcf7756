import Shakedown.Suite

/-!
# The attempts of a run and its reports

A run writes into its reports as it goes on. The same reports are had at its end from the attempts
alone: those of the installs, up to the first that failed, and those of the tests.
-/

namespace Shakedown

variable {μ : Type}

def Attempt.succeeded (a : Attempt) : Bool :=
  match a.result with
  | .ok _ => true
  | .error _ => false

theorem Attempt.succeeded_iff {a : Attempt} : a.succeeded = true ↔ a.result = .ok () := by
  unfold succeeded
  cases a.result with
  | ok u => exact ⟨fun _ => rfl, fun _ => rfl⟩
  | error f => exact ⟨nofun, nofun⟩

/-- The outcome of a case from its install and its tests, as far as they were attempted. -/
def Outcome.ofAttempts : Option Attempt → Option Attempt → Outcome
  | none, _ => .skipped
  | some install, tests =>
    match install.result, tests with
    | .error f, _ => .installFailed f.message f.severity
    | .ok _, none => .notRun
    | .ok _, some tests => .ofTests tests.result

namespace Case

/-- Attempts the installs in order, up to the first that fails. -/
def installAll : List (Case μ) → World μ → List Attempt × World μ
  | [], w => ([], w)
  | c :: rest, w =>
    let (attempt, w) := c.attemptInstall w
    if attempt.succeeded then
      let (more, w) := installAll rest w
      (attempt :: more, w)
    else ([attempt], w)

def testAll : List (Case μ) → World μ → List Attempt × World μ
  | [], w => ([], w)
  | c :: rest, w =>
    let (attempt, w) := c.attemptTests w
    let (more, w) := testAll rest w
    (attempt :: more, w)

/-- Reports on the cases, whose attempts stand in the same order. -/
def reports : List (Case μ) → List Attempt → List Attempt → List CaseReport
  | [], _, _ => []
  | c :: rest, installs, tests =>
    let elapsed (attempt : Option Attempt) : Nat := (attempt.map Attempt.elapsedMs).getD 0
    { name := c.name
      app := c.app
      outcome := Outcome.ofAttempts installs.head? tests.head?
      durationMs := elapsed installs.head? + elapsed tests.head? } ::
      reports rest installs.tail tests.tail

theorem installAll_cons_of_ok {c : Case μ} {w : World μ} (rest : List (Case μ))
    (hok : (c.attemptInstall w).1.result = .ok ()) :
    installAll (c :: rest) w =
      ((c.attemptInstall w).1 :: (installAll rest (c.attemptInstall w).2).1,
        (installAll rest (c.attemptInstall w).2).2) :=
  if_pos (Attempt.succeeded_iff.mpr hok)

theorem installAll_cons_of_error {c : Case μ} {w : World μ} {f : Failure} (rest : List (Case μ))
    (herror : (c.attemptInstall w).1.result = .error f) :
    installAll (c :: rest) w = ([(c.attemptInstall w).1], (c.attemptInstall w).2) := by
  have hfailed : ¬(c.attemptInstall w).1.succeeded = true := by
    rw [Attempt.succeeded_iff, herror]
    simp
  exact if_neg hfailed

theorem testAll_cons (c : Case μ) (rest : List (Case μ)) (w : World μ) :
    testAll (c :: rest) w =
      ((c.attemptTests w).1 :: (testAll rest (c.attemptTests w).2).1,
        (testAll rest (c.attemptTests w).2).2) := rfl

/-! ### The installs -/

/-- The report on a case that is installed and not tested yet. -/
def installed (c : Case μ) (install : Attempt) : CaseReport :=
  (CaseReport.pending c).withTime install

theorem reports_nil (cases : List (Case μ)) :
    reports cases [] [] = cases.map CaseReport.pending := by
  induction cases with
  | nil => rfl
  | cons c rest ih =>
    rw [reports, List.tail_nil, ih]
    rfl

theorem reports_cons_of_ok (c : Case μ) (rest : List (Case μ)) {install : Attempt}
    (installs : List Attempt) (hok : install.result = .ok ()) :
    reports (c :: rest) (install :: installs) [] =
      (c.installed install).withOutcome .notRun :: reports rest installs [] := by
  simp [reports, installed, CaseReport.pending, CaseReport.withTime, CaseReport.withOutcome,
    Outcome.ofAttempts, hok]

theorem reports_cons_of_error (c : Case μ) (rest : List (Case μ)) {install : Attempt} {f : Failure}
    (herror : install.result = .error f) :
    reports (c :: rest) [install] [] =
      (c.installed install).withOutcome (.installFailed f.message f.severity) ::
        rest.map CaseReport.pending := by
  rw [← reports_nil]
  simp [reports, installed, CaseReport.pending, CaseReport.withTime, CaseReport.withOutcome,
    Outcome.ofAttempts, herror]

theorem modify_length {α : Type} (front rest : List α) (a : α) (f : α → α) :
    (front ++ a :: rest).modify front.length f = front ++ f a :: rest := by
  rw [List.modify_eq_take_drop, List.take_left, List.drop_left]
  rfl

section Each

variable (c : Case μ) (front : List CaseReport) (rest : List (Case μ)) (w : World μ)

theorem installEach_cons_of_ok (hok : (c.attemptInstall w).1.result = .ok ()) :
    installEach front.length (c :: rest) (front ++ (c :: rest).map CaseReport.pending) w =
      installEach (front ++ [c.installed (c.attemptInstall w).1]).length rest
        (front ++ [c.installed (c.attemptInstall w).1] ++ rest.map CaseReport.pending)
        (c.attemptInstall w).2 := by
  rw [installEach]
  simp only [hok, List.map_cons, modify_length, List.length_append, List.length_singleton,
    List.append_assoc, List.singleton_append]
  rfl

theorem installEach_cons_of_error {f : Failure}
    (herror : (c.attemptInstall w).1.result = .error f) :
    installEach front.length (c :: rest) (front ++ (c :: rest).map CaseReport.pending) w =
      (false,
        front.map (fun r => r.withOutcome .notRun) ++ reports (c :: rest) [(c.attemptInstall w).1] [],
        (c.attemptInstall w).2) := by
  rw [installEach, reports_cons_of_error c rest herror]
  simp only [herror, List.map_cons, modify_length, List.take_left, List.drop_left]
  rfl

/-- The reports before the case at hand belong to installs that succeeded; an abort is seen in all
of them, and the reports behind it are as they were to begin with. -/
theorem installEach_eq (cases : List (Case μ)) :
    installEach front.length cases (front ++ cases.map CaseReport.pending) w =
      ((installAll cases w).1.all Attempt.succeeded,
        if (installAll cases w).1.all Attempt.succeeded then
          front ++ List.zipWith installed cases (installAll cases w).1
        else
          front.map (fun r => r.withOutcome .notRun) ++ reports cases (installAll cases w).1 [],
        (installAll cases w).2) := by
  induction cases generalizing front w with
  | nil => simp [installEach, installAll]
  | cons c rest ih =>
    cases hresult : (c.attemptInstall w).1.result with
    | error f =>
      have hfailed : (c.attemptInstall w).1.succeeded = false := by
        simp [Attempt.succeeded, hresult]
      rw [installEach_cons_of_error c front rest w hresult, installAll_cons_of_error rest hresult]
      simp [hfailed]
    | ok u =>
      have hsucceeded := Attempt.succeeded_iff.mpr hresult
      rw [installEach_cons_of_ok c front rest w hresult, installAll_cons_of_ok rest hresult, ih,
        reports_cons_of_ok c rest _ hresult]
      simp [hsucceeded]

end Each

/-! ### The tests -/

theorem testEach_eq (cases : List (Case μ)) (installs : List Attempt) (w : World μ)
    (hlength : installs.length = cases.length) (hall : installs.all Attempt.succeeded = true) :
    testEach cases (List.zipWith installed cases installs) w =
      (reports cases installs (testAll cases w).1, (testAll cases w).2) := by
  induction cases generalizing installs w with
  | nil => rfl
  | cons c rest ih =>
    obtain ⟨install, more, rfl⟩ := List.exists_cons_of_length_eq_add_one hlength
    obtain ⟨hinstall, hmore⟩ := Bool.and_eq_true_iff.mp (List.all_cons.symm.trans hall)
    have hresult := Attempt.succeeded_iff.mp hinstall
    rw [List.zipWith_cons_cons, testEach]
    dsimp only
    rw [ih more _ (Nat.succ.inj hlength) hmore, testAll_cons, reports]
    simp [installed, CaseReport.pending, CaseReport.withTime, CaseReport.withOutcome,
      Outcome.ofAttempts, hresult]

theorem length_installAll (cases : List (Case μ)) (w : World μ)
    (hall : (installAll cases w).1.all Attempt.succeeded = true) :
    (installAll cases w).1.length = cases.length := by
  induction cases generalizing w with
  | nil => rfl
  | cons c rest ih =>
    cases hresult : (c.attemptInstall w).1.result with
    | error f =>
      rw [installAll_cons_of_error rest hresult] at hall
      simp [Attempt.succeeded, hresult] at hall
    | ok u =>
      rw [installAll_cons_of_ok rest hresult] at hall ⊢
      rw [List.all_cons, Bool.and_eq_true] at hall
      rw [List.length_cons, List.length_cons, ih _ hall.2]

end Case

/-- The reports that a run fills in are those of its attempts. -/
theorem Suite.run_eq_reports (s : Suite μ) (w : World μ) :
    s.run w =
      (let prepared := s.registerAll (w.note .info .suite
        ("Running " ++ String.ofList (Decimal.digits s.cases.length) ++ " test case(s)"))
      let (installs, installed) := Case.installAll s.cases prepared
      let (tests, tested) :=
        if installs.all Attempt.succeeded then Case.testAll s.cases installed else ([], installed)
      ({ started := Instant.ofNanos w.clock
         finished := Instant.ofNanos tested.clock
         cases := Case.reports s.cases installs tests }, tested)) := by
  rw [run]
  have hinstalls := Case.installEach_eq [] (s.registerAll (w.note .info .suite
    ("Running " ++ String.ofList (Decimal.digits s.cases.length) ++ " test case(s)"))) s.cases
  simp only [List.length_nil, List.nil_append, List.map_nil] at hinstalls
  simp only [hinstalls]
  generalize s.registerAll _ = prepared
  cases hall : (Case.installAll s.cases prepared).1.all Attempt.succeeded with
  | true =>
    simp only [if_true, Case.testEach_eq _ _ _ (Case.length_installAll _ _ hall) hall]
  | false => simp

end Shakedown
