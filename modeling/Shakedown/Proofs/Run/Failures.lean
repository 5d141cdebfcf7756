import Shakedown.Proofs.Run.Outcome

/-!
# Failures and exit codes

The exit code of a run follows from what its hooks failed with, and from nothing else in the report:
the worst of these failures decides. A critical failure decides over a high one, although the order
of the exit codes is another than that of the severities.
-/

namespace Shakedown

variable {μ : Type}

def failuresIn (results : List (Except Failure Unit)) : List Failure :=
  results.filterMap fun
    | .ok _ => none
    | .error f => some f

theorem mem_failuresIn {results : List (Except Failure Unit)} {f : Failure} :
    f ∈ failuresIn results ↔ Except.error f ∈ results := by
  unfold failuresIn
  rw [List.mem_filterMap]
  constructor
  · rintro ⟨result, hmem, hresult⟩
    cases result with
    | ok u => exact nomatch hresult
    | error g => exact Option.some.inj hresult ▸ hmem
  · intro hmem
    exact ⟨_, hmem, rfl⟩

theorem failuresIn_append (first second : List (Except Failure Unit)) :
    failuresIn (first ++ second) = failuresIn first ++ failuresIn second :=
  List.filterMap_append ..

theorem failuresIn_replicate_ok (n : Nat) : failuresIn (List.replicate n (.ok ())) = [] := by
  rw [List.eq_nil_iff_forall_not_mem]
  intro f hf
  exact nomatch List.eq_of_mem_replicate (mem_failuresIn.mp hf)

def exitCodeOf (fs : List Failure) : Nat :=
  match Severity.worst? (fs.map Failure.severity) with
  | some severity => severity.exitCode
  | none => 0

/-- The exit code names the severity of one of the failures, and none of them is more severe. -/
theorem exitCodeOf_spec (fs : List Failure) :
    fs = [] ∧ exitCodeOf fs = 0 ∨
      ∃ f ∈ fs, exitCodeOf fs = f.severity.exitCode ∧
        ∀ g ∈ fs, g.severity.rank ≤ f.severity.rank := by
  unfold exitCodeOf
  cases hworst : Severity.worst? (fs.map Failure.severity) with
  | none => exact Or.inl ⟨List.map_eq_nil_iff.mp (Severity.worst?_eq_none_iff.mp hworst), rfl⟩
  | some severity =>
    obtain ⟨hmem, hle⟩ := Severity.worst?_eq_some hworst
    obtain ⟨f, hf, rfl⟩ := List.mem_map.mp hmem
    exact Or.inr ⟨f, hf, rfl, fun g hg => hle _ (List.mem_map_of_mem hg)⟩

section ExitCodeOf

variable {fs : List Failure}

theorem exitCodeOf_eq_three_iff : exitCodeOf fs = 3 ↔ ∃ f ∈ fs, f.severity = .critical := by
  rcases exitCodeOf_spec fs with ⟨rfl, hcode⟩ | ⟨f, hf, hcode, hle⟩
  · simp [hcode]
  · rw [hcode]
    constructor
    · intro hthree
      refine ⟨f, hf, ?_⟩
      revert hthree
      cases f.severity <;> decide
    · rintro ⟨g, hg, hcritical⟩
      have hrank := hle g hg
      rw [hcritical] at hrank
      revert hrank
      cases f.severity <;> decide

theorem exitCodeOf_eq_zero_iff : exitCodeOf fs = 0 ↔ fs = [] := by
  rcases exitCodeOf_spec fs with ⟨rfl, hcode⟩ | ⟨f, hf, hcode, -⟩
  · simp [hcode]
  · have hne : fs ≠ [] := List.ne_nil_of_mem hf
    rw [hcode]
    cases f.severity <;> simp [Severity.exitCode, hne]

/-- Without a failure of the settings the exit code is not 2. -/
theorem exitCodeOf_ne_two (hfs : ∀ f ∈ fs, f.severity ≠ .medium) : exitCodeOf fs ≠ 2 := by
  rcases exitCodeOf_spec fs with ⟨-, hcode⟩ | ⟨f, hf, hcode, -⟩
  · simp [hcode]
  · have hmedium := hfs f hf
    rw [hcode]
    revert hmedium
    cases f.severity <;> decide

theorem exitCodeOf_le_three : exitCodeOf fs ≤ 3 := by
  rcases exitCodeOf_spec fs with ⟨-, hcode⟩ | ⟨f, -, hcode, -⟩
  · simp [hcode]
  · rw [hcode]
    cases f.severity <;> decide

end ExitCodeOf

/-! ### From the outcomes to the failures -/

def Outcome.Shows (o : Outcome) (f : Failure) : Prop :=
  o = .installFailed f.message f.severity ∨ o = .failed f.message f.severity

/-- Tests that fail show so in the outcome, with the severity of the failure. -/
theorem Outcome.severities_ofTests (results : List (Except Failure Unit)) :
    (results.map ofTests).filterMap severity? = (failuresIn results).map Failure.severity := by
  induction results with
  | nil => rfl
  | cons result rest ih =>
    unfold failuresIn at ih ⊢
    cases result with
    | ok u => rw [List.map_cons, List.filterMap_cons, ofTests, severity?, ih]; rfl
    | error f => rw [List.map_cons, List.filterMap_cons, ofTests, severity?, ih]; rfl

theorem Outcome.severities_aborted (n k : Nat) (f : Failure) :
    (aborted n k f).filterMap severity? = [f.severity] := by
  unfold aborted
  simp [severity?, List.filterMap_append, List.filterMap_replicate]

namespace Report

variable (r : Report)

theorem worstSeverity?_eq :
    r.worstSeverity? = Severity.worst? (r.outcomes.filterMap Outcome.severity?) := by
  rw [outcomes, List.filterMap_map]
  rfl

theorem isSuccess_iff : r.isSuccess = true ↔ ∀ o ∈ r.outcomes, o = .passed := by
  rw [isSuccess, outcomes, List.all_eq_true, List.forall_mem_map]
  exact forall₂_congr fun c _ => beq_iff_eq

theorem exitCode_eq_zero_iff : r.exitCode = 0 ↔ ∀ c ∈ r.cases, c.outcome = .passed := by
  have hpassed : r.isSuccess = true ↔ ∀ c ∈ r.cases, c.outcome = .passed := by
    rw [isSuccess_iff, outcomes, List.forall_mem_map]
  rw [← hpassed, exitCode, worstSeverity?]
  cases hworst : Severity.worst? (r.cases.filterMap fun c => c.outcome.severity?) with
  | none => cases r.isSuccess <;> simp [Severity.exitCode]
  | some severity =>
    -- the outcome that this severity is from did not pass
    obtain ⟨hmem, -⟩ := Severity.worst?_eq_some hworst
    obtain ⟨c, hc, hsevere⟩ := List.mem_filterMap.mp hmem
    have hfailed : r.isSuccess ≠ true := by
      intro hsuccess
      rw [hpassed.mp hsuccess c hc] at hsevere
      cases hsevere
    cases severity <;> simp [Severity.exitCode, hfailed]

end Report

namespace Suite

variable (s : Suite μ) (w : World μ)

def failures : List Failure :=
  failuresIn (s.installResults w ++ s.testResults w)

theorem severities_of_run :
    (s.run w).1.outcomes.filterMap Outcome.severity? = (s.failures w).map Failure.severity := by
  unfold failures
  rcases s.completed_or_aborted w with ⟨hall, -⟩ | ⟨k, f, hk, hsome, htests⟩
  · rw [outcomes_of_installed hall, hall, failuresIn_append, failuresIn_replicate_ok,
      List.nil_append, Outcome.severities_ofTests]
  · rw [outcomes_of_failed hk hsome, hsome, htests, List.append_nil, failuresIn_append,
      failuresIn_replicate_ok, Outcome.severities_aborted]
    rfl

theorem mem_failures {f : Failure} :
    f ∈ s.failures w ↔ ∃ i ∈ s.invocations w, i.result = .error f := by
  rw [← Phase.mem_resultsIn_append, resultsIn_invocations_install, resultsIn_invocations_tests]
  exact mem_failuresIn

/-- An outcome that has a severity has it from a failure of a hook. -/
theorem shows_of_run :
    ∀ o ∈ (s.run w).1.outcomes, o.severity?.isSome → ∃ f ∈ s.failures w, o.Shows f := by
  unfold failures
  intro o ho hsevere
  rcases s.completed_or_aborted w with ⟨hall, -⟩ | ⟨k, f, hk, hsome, -⟩
  · rw [outcomes_of_installed hall] at ho
    obtain ⟨result, hresult, rfl⟩ := List.mem_map.mp ho
    cases result with
    | ok u => exact nomatch hsevere
    | error f => exact ⟨f, mem_failuresIn.mpr (List.mem_append_right _ hresult), Or.inr rfl⟩
  · rw [outcomes_of_failed hk hsome, Outcome.aborted, List.mem_append, List.mem_cons] at ho
    rcases ho with hbefore | rfl | hbehind
    · rw [List.eq_of_mem_replicate hbefore] at hsevere
      exact absurd hsevere (by decide)
    · refine ⟨f, mem_failuresIn.mpr (List.mem_append_left _ ?_), Or.inl rfl⟩
      rw [hsome]
      exact List.mem_append_right _ List.mem_cons_self
    · rw [List.eq_of_mem_replicate hbehind] at hsevere
      exact absurd hsevere (by decide)

theorem passed_of_no_failures (hnone : s.failures w = []) :
    ∀ o ∈ (s.run w).1.outcomes, o = .passed := by
  unfold failures at hnone
  rcases s.completed_or_aborted w with ⟨hall, -⟩ | ⟨k, f, -, hsome, -⟩
  · rw [outcomes_of_installed hall]
    intro o ho
    obtain ⟨result, hresult, rfl⟩ := List.mem_map.mp ho
    cases result with
    | ok u => rfl
    | error f =>
      have hmem := mem_failuresIn.mpr (List.mem_append_right (s.installResults w) hresult)
      rw [hnone] at hmem
      exact absurd hmem List.not_mem_nil
  · rw [hsome, failuresIn_append, failuresIn_append] at hnone
    exact absurd hnone (by simp [failuresIn])

theorem exitCode_of_run : (s.run w).1.exitCode = exitCodeOf (s.failures w) := by
  rw [Report.exitCode, Report.worstSeverity?_eq, severities_of_run, exitCodeOf]
  cases hworst : Severity.worst? ((s.failures w).map Failure.severity) with
  | some severity => rfl
  | none =>
    have hnone := List.map_eq_nil_iff.mp (Severity.worst?_eq_none_iff.mp hworst)
    exact if_pos ((Report.isSuccess_iff _).mpr (s.passed_of_no_failures w hnone))

/-- The exit code of a run follows from the severities in its report. -/
theorem exitCode_congr {ν : Type} {s : Suite μ} {w : World μ} {s' : Suite ν} {w' : World ν}
    (hseverities : (s'.run w').1.outcomes.map Outcome.severity? =
      (s.run w).1.outcomes.map Outcome.severity?) :
    (s'.run w').1.exitCode = (s.run w).1.exitCode := by
  have hfailures : (s'.failures w').map Failure.severity = (s.failures w).map Failure.severity := by
    have hfilter := congrArg (List.filterMap id) hseverities
    rw [List.filterMap_map, List.filterMap_map] at hfilter
    rw [← severities_of_run, ← severities_of_run]
    exact hfilter
  rw [exitCode_of_run, exitCode_of_run, exitCodeOf, exitCodeOf, hfailures]

end Suite

end Shakedown
