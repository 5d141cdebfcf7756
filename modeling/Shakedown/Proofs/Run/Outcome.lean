import Shakedown.Proofs.Run.Invocation

/-!
# What a run reports

A report names the cases of the suite in their order, and their outcomes follow from what the hooks
returned: from nothing else, neither the registries nor whether an app could be marked as installed.
-/

namespace Shakedown

variable {μ : Type}

/-- The outcomes of `n` cases when the install of the one at `k` is the first to fail. -/
def Outcome.aborted (n k : Nat) (f : Failure) : List Outcome :=
  List.replicate k .notRun ++
    .installFailed f.message f.severity :: List.replicate (n - k - 1) .skipped

/-- The outcome of a case from what its hooks returned, as far as they were invoked. -/
def Outcome.ofResults : Option (Except Failure Unit) → Option (Except Failure Unit) → Outcome
  | none, _ => .skipped
  | some (.error f), _ => .installFailed f.message f.severity
  | some (.ok _), none => .notRun
  | some (.ok _), some result => ofTests result

def Report.outcomes (r : Report) : List Outcome :=
  r.cases.map CaseReport.outcome

/-! ### Reading outcomes off the attempts -/

theorem Outcome.ofAttempts_eq (install tests : Option Attempt) :
    ofAttempts install tests =
      ofResults (install.map Attempt.result) (tests.map Attempt.result) := by
  cases install with
  | none => rfl
  | some install =>
    obtain ⟨result, elapsed⟩ := install
    cases result with
    | error f => rfl
    | ok u =>
      cases tests with
      | none => rfl
      | some tests =>
        obtain ⟨result, elapsed⟩ := tests
        cases result <;> rfl

namespace Case

variable {cases : List (Case μ)} {installs tests : List Attempt}

theorem map_name_reports : (reports cases installs tests).map CaseReport.name = cases.map name := by
  induction cases generalizing installs tests with
  | nil => rfl
  | cons c rest ih => rw [reports, List.map_cons, List.map_cons, ih]

theorem map_app_reports : (reports cases installs tests).map CaseReport.app = cases.map app := by
  induction cases generalizing installs tests with
  | nil => rfl
  | cons c rest ih => rw [reports, List.map_cons, List.map_cons, ih]

theorem map_outcome_reports_cons (c : Case μ) :
    (reports (c :: cases) installs tests).map CaseReport.outcome =
      Outcome.ofAttempts installs.head? tests.head? ::
        (reports cases installs.tail tests.tail).map CaseReport.outcome := rfl

/-- Cases whose install was not attempted are skipped. -/
theorem map_outcome_reports_nil :
    (reports cases [] tests).map CaseReport.outcome = List.replicate cases.length .skipped := by
  induction cases generalizing tests with
  | nil => rfl
  | cons c rest ih =>
    rw [map_outcome_reports_cons, List.tail_nil, ih]
    rfl

theorem getElem?_map_outcome_reports (i : Nat) :
    ((reports cases installs tests).map CaseReport.outcome)[i]? =
      cases[i]?.map fun _ =>
        Outcome.ofResults (installs.map Attempt.result)[i]? (tests.map Attempt.result)[i]? := by
  induction cases generalizing installs tests i with
  | nil => rfl
  | cons c rest ih =>
    rw [map_outcome_reports_cons]
    cases i with
    | zero =>
      rw [List.getElem?_cons_zero, Outcome.ofAttempts_eq, List.head?_eq_getElem?,
        List.head?_eq_getElem?, List.getElem?_map, List.getElem?_map]
      rfl
    | succ i =>
      rw [List.getElem?_cons_succ, ih, List.getElem?_cons_succ, List.map_tail, List.map_tail,
        List.getElem?_tail, List.getElem?_tail]

theorem map_outcome_reports_of_failed {k : Nat} {f : Failure} (hk : k < cases.length)
    (hinstalls : installs.map Attempt.result = List.replicate k (.ok ()) ++ [.error f]) :
    (reports cases installs []).map CaseReport.outcome = Outcome.aborted cases.length k f := by
  induction cases generalizing k installs with
  | nil => exact absurd hk (Nat.not_lt_zero k)
  | cons c rest ih =>
    cases installs with
    | nil => simp at hinstalls
    | cons a more =>
      rw [map_outcome_reports_cons]
      cases k with
      | zero =>
        -- the failing install is the last attempt, so nothing is known of the cases behind it
        obtain ⟨hresult, hmore⟩ : a.result = .error f ∧ more = [] := by simpa using hinstalls
        subst hmore
        rw [List.tail_cons, map_outcome_reports_nil]
        simp [Outcome.ofAttempts, Outcome.aborted, hresult]
      | succ k =>
        obtain ⟨hresult, hmore⟩ :
            a.result = .ok () ∧
              more.map Attempt.result = List.replicate k (.ok ()) ++ [.error f] := by
          simpa [List.replicate_succ] using hinstalls
        rw [List.tail_cons, List.tail_nil, ih (Nat.lt_of_succ_lt_succ hk) hmore]
        simp [Outcome.ofAttempts, Outcome.aborted, hresult, List.replicate_succ]

theorem map_outcome_reports_of_installed
    (hinstalls : installs.map Attempt.result = List.replicate cases.length (.ok ()))
    (htests : tests.length = cases.length) :
    (reports cases installs tests).map CaseReport.outcome =
      (tests.map Attempt.result).map Outcome.ofTests := by
  induction cases generalizing installs tests with
  | nil =>
    rw [List.length_eq_zero_iff.mp htests]
    rfl
  | cons c rest ih =>
    obtain ⟨a, more, rfl⟩ : ∃ a more, installs = a :: more := by
      cases installs with
      | nil => simp at hinstalls
      | cons a more => exact ⟨a, more, rfl⟩
    obtain ⟨b, others, rfl⟩ := List.exists_cons_of_length_eq_add_one htests
    obtain ⟨hresult, hmore⟩ :
        a.result = .ok () ∧ more.map Attempt.result = List.replicate rest.length (.ok ()) := by
      simpa [List.replicate_succ] using hinstalls
    have hothers : others.length = rest.length := Nat.succ.inj htests
    rw [map_outcome_reports_cons, List.tail_cons, List.tail_cons, ih hmore hothers]
    cases hb : b.result <;> simp [Outcome.ofAttempts, Outcome.ofTests, hresult, hb]

end Case

namespace Suite

variable {s : Suite μ} {w : World μ}

theorem map_name_cases (s : Suite μ) (w : World μ) :
    (s.run w).1.cases.map CaseReport.name = s.cases.map Case.name := by
  rw [cases_run, Case.map_name_reports]

theorem map_app_cases (s : Suite μ) (w : World μ) :
    (s.run w).1.cases.map CaseReport.app = s.cases.map Case.app := by
  rw [cases_run, Case.map_app_reports]

theorem outcomes_of_failed {k : Nat} {f : Failure} (hk : k < s.cases.length)
    (hinstalls : s.installResults w = List.replicate k (.ok ()) ++ [.error f]) :
    (s.run w).1.outcomes = Outcome.aborted s.cases.length k f := by
  rw [Report.outcomes, cases_run, tests_of_failed hinstalls]
  exact Case.map_outcome_reports_of_failed hk hinstalls

theorem outcomes_of_installed
    (hinstalls : s.installResults w = List.replicate s.cases.length (.ok ())) :
    (s.run w).1.outcomes = (s.testResults w).map Outcome.ofTests := by
  have htests : (s.tests w).1.length = s.cases.length := by
    rw [tests_of_installed hinstalls, Case.length_testAll]
  rw [Report.outcomes, cases_run]
  exact Case.map_outcome_reports_of_installed hinstalls htests

theorem getElem?_outcomes (s : Suite μ) (w : World μ) (i : Nat) :
    (s.run w).1.outcomes[i]? =
      s.cases[i]?.map fun _ =>
        Outcome.ofResults (s.installResults w)[i]? (s.testResults w)[i]? := by
  rw [Report.outcomes, cases_run]
  exact Case.getElem?_map_outcome_reports i

end Suite

/-! ### Reading results off the record -/

def Phase.resultsIn (phase : Phase) (record : List Invocation) : List (Except Failure Unit) :=
  (record.filter fun i => i.phase = phase).map Invocation.result

namespace Phase

theorem resultsIn_append (phase : Phase) (first second : List Invocation) :
    phase.resultsIn (first ++ second) = phase.resultsIn first ++ phase.resultsIn second := by
  rw [resultsIn, List.filter_append, List.map_append, resultsIn, resultsIn]

theorem resultsIn_invocationsFrom (phase other : Phase) (start : Nat)
    (results : List (Except Failure Unit)) :
    phase.resultsIn (other.invocationsFrom start results) =
      if other = phase then results else [] := by
  induction results generalizing start with
  | nil => simp [invocationsFrom, resultsIn]
  | cons result rest ih =>
    have hrest := ih (start + 1)
    unfold resultsIn at hrest ⊢
    rw [invocationsFrom, List.filter_cons]
    by_cases heq : other = phase
    · simpa [heq] using hrest
    · simpa [heq] using hrest

theorem mem_invocationsFrom {phase other : Phase} {start i : Nat} {result : Except Failure Unit}
    {results : List (Except Failure Unit)} :
    ⟨other, i, result⟩ ∈ phase.invocationsFrom start results ↔
      other = phase ∧ ∃ k, i = start + k ∧ results[k]? = some result := by
  induction results generalizing start with
  | nil => simp [invocationsFrom]
  | cons first rest ih =>
    rw [invocationsFrom, List.mem_cons, ih, Invocation.mk.injEq]
    constructor
    · rintro (⟨hphase, hi, hresult⟩ | ⟨hphase, k, hi, hresult⟩)
      · exact ⟨hphase, 0, hi, by rw [hresult]; rfl⟩
      · exact ⟨hphase, k + 1, by omega, hresult⟩
    · rintro ⟨hphase, k, hi, hresult⟩
      cases k with
      | zero => exact Or.inl ⟨hphase, hi, (Option.some.inj hresult).symm⟩
      | succ k => exact Or.inr ⟨hphase, k, by omega, hresult⟩

theorem mem_resultsIn_append {record : List Invocation} {result : Except Failure Unit} :
    result ∈ install.resultsIn record ++ tests.resultsIn record ↔
      ∃ i ∈ record, i.result = result := by
  rw [List.mem_append, resultsIn, resultsIn, List.mem_map, List.mem_map]
  constructor
  · rintro (⟨i, hi, hresult⟩ | ⟨i, hi, hresult⟩)
    · exact ⟨i, (List.mem_filter.mp hi).1, hresult⟩
    · exact ⟨i, (List.mem_filter.mp hi).1, hresult⟩
  · rintro ⟨i, hi, hresult⟩
    cases hphase : i.phase with
    | install => exact Or.inl ⟨i, List.mem_filter.mpr ⟨hi, by simpa using hphase⟩, hresult⟩
    | tests => exact Or.inr ⟨i, List.mem_filter.mpr ⟨hi, by simpa using hphase⟩, hresult⟩

end Phase

namespace Suite

variable (s : Suite μ) (w : World μ)

theorem resultsIn_invocations_install :
    Phase.install.resultsIn (s.invocations w) = s.installResults w := by
  simp [invocations_eq, Phase.invocations, Phase.resultsIn_append, Phase.resultsIn_invocationsFrom]

theorem resultsIn_invocations_tests :
    Phase.tests.resultsIn (s.invocations w) = s.testResults w := by
  simp [invocations_eq, Phase.invocations, Phase.resultsIn_append, Phase.resultsIn_invocationsFrom]

theorem mem_invocations_install {i : Nat} {result : Except Failure Unit} :
    ⟨.install, i, result⟩ ∈ s.invocations w ↔ (s.installResults w)[i]? = some result := by
  rw [invocations_eq, List.mem_append, Phase.invocations, Phase.invocations,
    Phase.mem_invocationsFrom, Phase.mem_invocationsFrom]
  simp

theorem mem_invocations_tests {i : Nat} {result : Except Failure Unit} :
    ⟨.tests, i, result⟩ ∈ s.invocations w ↔ (s.testResults w)[i]? = some result := by
  rw [invocations_eq, List.mem_append, Phase.invocations, Phase.invocations,
    Phase.mem_invocationsFrom, Phase.mem_invocationsFrom]
  simp

/-- Runs of as many cases whose hooks returned the same have the same outcomes. -/
theorem outcomes_congr {ν : Type} {s : Suite μ} {w : World μ} {s' : Suite ν} {w' : World ν}
    (hlength : s'.cases.length = s.cases.length)
    (hinvocations : s'.invocations w' = s.invocations w) :
    (s'.run w').1.outcomes = (s.run w).1.outcomes := by
  have hinstalls : s'.installResults w' = s.installResults w := by
    rw [← resultsIn_invocations_install, hinvocations, resultsIn_invocations_install]
  have htests : s'.testResults w' = s.testResults w := by
    rw [← resultsIn_invocations_tests, hinvocations, resultsIn_invocations_tests]
  rcases s.completed_or_aborted w with ⟨hall, -⟩ | ⟨k, f, hk, hsome, -⟩
  · rw [outcomes_of_installed hall, ← htests]
    exact outcomes_of_installed (by rw [hinstalls, hall, hlength])
  · rw [outcomes_of_failed hk hsome, ← hlength]
    exact outcomes_of_failed (hlength ▸ hk) (hinstalls.trans hsome)

/-- There is one report for each case, in order, and the outcomes follow from what the hooks
return. -/
theorem outcomes_of_run (s : Suite μ) (w : World μ) :
    (s.run w).1.cases.map CaseReport.name = s.cases.map Case.name ∧
      (s.run w).1.cases.map CaseReport.app = s.cases.map Case.app ∧
      ((∃ k f, k < s.cases.length ∧
          s.invocations w =
            Phase.install.invocations (List.replicate k (.ok ()) ++ [.error f]) ∧
          (s.run w).1.outcomes = Outcome.aborted s.cases.length k f) ∨
        ∃ results, results.length = s.cases.length ∧
          s.invocations w =
            Phase.install.invocations (List.replicate s.cases.length (.ok ())) ++
              Phase.tests.invocations results ∧
          (s.run w).1.outcomes = results.map Outcome.ofTests) ∧
      ∀ {ν : Type} (s' : Suite ν) (w' : World ν), s'.cases.length = s.cases.length →
        s'.invocations w' = s.invocations w → (s'.run w').1.outcomes = (s.run w).1.outcomes := by
  refine ⟨map_name_cases s w, map_app_cases s w, ?_, fun s' w' => outcomes_congr⟩
  rw [invocations_eq]
  rcases s.completed_or_aborted w with ⟨hinstalls, hlength⟩ | ⟨k, f, hk, hinstalls, htests⟩
  · exact Or.inr ⟨s.testResults w, hlength, by rw [hinstalls], outcomes_of_installed hinstalls⟩
  · refine Or.inl ⟨k, f, hk, ?_, outcomes_of_failed hk hinstalls⟩
    rw [hinstalls, htests]
    exact List.append_nil _

end Suite

end Shakedown
