import Shakedown.Proofs.Run.Failures

/-!
# The totals of a report

The numbers that a report is summed up by are computed apart from each other: some look at which
cases passed, and some at which have a severity. They agree, and none of them depends on the order
of the cases. In the report of a run there are moreover no cases that neither passed nor failed,
unless one failed to install.
-/

namespace Shakedown

variable {μ : Type}

namespace Severity

theorem rank_injective {a b : Severity} (h : a.rank = b.rank) : a = b := by
  revert h
  cases a <;> cases b <;> decide

theorem worst?_eq_some_iff {l : List Severity} {s : Severity} :
    worst? l = some s ↔ s ∈ l ∧ ∀ t ∈ l, t.rank ≤ s.rank := by
  refine ⟨worst?_eq_some, ?_⟩
  rintro ⟨hmem, hle⟩
  cases hworst : worst? l with
  | none => exact absurd hmem (worst?_eq_none_iff.mp hworst ▸ List.not_mem_nil)
  | some t =>
    obtain ⟨hmem', hle'⟩ := worst?_eq_some hworst
    rw [rank_injective (Nat.le_antisymm (hle t hmem') (hle' s hmem))]

/-- The worst of some severities depends on which they are, and not on their order. -/
theorem worst?_perm {l l' : List Severity} (hperm : l.Perm l') : worst? l = worst? l' := by
  apply Option.ext
  intro s
  simp only [worst?_eq_some_iff, hperm.mem_iff]

end Severity

theorem Outcome.severity?_eq_some_iff {o : Outcome} {severity : Severity} :
    o.severity? = some severity ↔
      ∃ message, o = .installFailed message severity ∨ o = .failed message severity := by
  cases o <;> simp [severity?]

theorem Outcome.isSome_severity?_ofTests (result : Except Failure Unit) :
    (ofTests result).severity?.isSome = true ↔ ¬(ofTests result == .passed) = true := by
  cases result <;> simp [ofTests, severity?]

theorem Outcome.ne_passed_of_mem_aborted {n k : Nat} {f : Failure} {o : Outcome}
    (ho : o ∈ aborted n k f) : o ≠ .passed := by
  rw [aborted, List.mem_append, List.mem_cons, List.mem_replicate, List.mem_replicate] at ho
  rcases ho with ⟨-, rfl⟩ | rfl | ⟨-, rfl⟩ <;> simp

namespace Report

variable (r : Report)

theorem passed_eq : r.passed = r.outcomes.countP fun o => o == .passed := by
  rw [outcomes, List.countP_map]
  rfl

theorem failed_eq : r.failed = (r.outcomes.filterMap Outcome.severity?).length := by
  rw [List.length_filterMap_eq_countP, outcomes, List.countP_map]
  rfl

theorem length_outcomes : r.outcomes.length = r.cases.length :=
  List.length_map _

theorem worstSeverity?_eq_none_iff : r.worstSeverity? = none ↔ r.failed = 0 := by
  rw [worstSeverity?_eq, Severity.worst?_eq_none_iff, failed_eq, List.length_eq_zero_iff]

theorem worstSeverity?_eq_some_iff {severity : Severity} :
    r.worstSeverity? = some severity ↔
      (∃ c ∈ r.cases, c.outcome.severity? = some severity) ∧
        ∀ c ∈ r.cases, ∀ other, c.outcome.severity? = some other → other.rank ≤ severity.rank := by
  rw [worstSeverity?, Severity.worst?_eq_some_iff, List.mem_filterMap]
  refine and_congr_right fun _ => ?_
  simp only [List.mem_filterMap]
  constructor
  · exact fun h c hc other hother => h other ⟨c, hc, hother⟩
  · rintro h other ⟨c, hc, hother⟩
    exact h c hc other hother

theorem passed_eq_length_iff : r.passed = r.cases.length ↔ r.isSuccess = true := by
  rw [passed, List.countP_eq_length, isSuccess, List.all_eq_true]

theorem exitCode_of_worst {severity : Severity} (hworst : r.worstSeverity? = some severity) :
    r.exitCode = severity.exitCode := by
  rw [exitCode, hworst]

/-- A case that neither passed nor failed keeps a report without failures from success. -/
theorem exitCode_of_none_failed (hnone : r.failed = 0)
    (hother : ∃ c ∈ r.cases, c.outcome = .notRun ∨ c.outcome = .skipped) : r.exitCode = 1 := by
  rw [exitCode, r.worstSeverity?_eq_none_iff.mpr hnone]
  have hfalse : r.isSuccess ≠ true := by
    intro hsuccess
    obtain ⟨c, hc, houtcome⟩ := hother
    have hpassed := (r.isSuccess_iff.mp hsuccess) c.outcome (List.mem_map_of_mem hc)
    rw [hpassed] at houtcome
    exact absurd houtcome (by decide)
  exact if_neg hfalse

section Perm

variable {r} {r' : Report}

theorem worstSeverity?_perm (hperm : r.cases.Perm r'.cases) :
    r.worstSeverity? = r'.worstSeverity? :=
  Severity.worst?_perm (hperm.filterMap _)

theorem isSuccess_perm (hperm : r.cases.Perm r'.cases) : r.isSuccess = r'.isSuccess := by
  rw [Bool.eq_iff_iff, ← passed_eq_length_iff, ← passed_eq_length_iff, hperm.length_eq, passed,
    passed, hperm.countP_eq]

theorem exitCode_perm (hperm : r.cases.Perm r'.cases) : r.exitCode = r'.exitCode := by
  rw [exitCode, exitCode, worstSeverity?_perm hperm, isSuccess_perm hperm]

end Perm

end Report

/-! ### The report of a run -/

namespace Suite

variable {s : Suite μ} {w : World μ}

theorem exitCode_of_run_eq_zero_iff :
    (s.run w).1.exitCode = 0 ↔ (s.run w).1.failed = 0 := by
  rw [exitCode_of_run, exitCodeOf_eq_zero_iff, Report.failed_eq, severities_of_run,
    List.length_map, List.length_eq_zero_iff]

/-- Without an install that fails every case has passed or failed. -/
theorem passed_add_failed_of_installed
    (hinstalls : s.installResults w = List.replicate s.cases.length (.ok ())) :
    (s.run w).1.passed + (s.run w).1.failed = (s.run w).1.cases.length := by
  have hfailed : (s.run w).1.failed =
      (s.run w).1.outcomes.countP fun o => decide ¬(o == .passed) = true := by
    rw [Report.failed_eq, List.length_filterMap_eq_countP, outcomes_of_installed hinstalls]
    refine List.countP_congr fun o ho => ?_
    obtain ⟨result, -, rfl⟩ := List.mem_map.mp ho
    rw [Outcome.isSome_severity?_ofTests, decide_eq_true_eq]
  rw [Report.passed_eq, hfailed, ← Report.length_outcomes]
  exact (List.length_eq_countP_add_countP _).symm

/-- An aborted run has one failure, and no case has passed. -/
theorem passed_failed_of_aborted {k : Nat} {f : Failure} (hk : k < s.cases.length)
    (hinstalls : s.installResults w = List.replicate k (.ok ()) ++ [.error f]) :
    (s.run w).1.passed = 0 ∧ (s.run w).1.failed = 1 := by
  rw [Report.passed_eq, Report.failed_eq, outcomes_of_failed hk hinstalls,
    Outcome.severities_aborted]
  refine ⟨?_, rfl⟩
  rw [List.countP_eq_zero]
  exact fun o ho hpassed => Outcome.ne_passed_of_mem_aborted ho (eq_of_beq hpassed)

end Suite

/-- The worst severity and the exit code follow from the outcomes, in whichever order these come. -/
theorem Suite.totals_of_run (s : Suite μ) (w : World μ) :
    (∀ r : Report,
      (r.worstSeverity? = none ↔ r.failed = 0) ∧
        (∀ severity, r.worstSeverity? = some severity ↔
          (∃ c ∈ r.cases, ∃ message,
            c.outcome = .installFailed message severity ∨ c.outcome = .failed message severity) ∧
          ∀ c ∈ r.cases, ∀ message other,
            c.outcome = .installFailed message other ∨ c.outcome = .failed message other →
              other.rank ≤ severity.rank) ∧
        (r.exitCode = 0 ↔ r.isSuccess = true) ∧
        (r.isSuccess = true ↔ r.passed = r.cases.length) ∧
        (r.worstSeverity? = some .critical → r.exitCode = 3) ∧
        (r.worstSeverity? = some .high → r.exitCode = 1) ∧
        (r.worstSeverity? = some .medium → r.exitCode = 2) ∧
        (r.failed = 0 → (∃ c ∈ r.cases, c.outcome = .notRun ∨ c.outcome = .skipped) →
          r.exitCode = 1) ∧
        ∀ r' : Report, r'.cases.Perm r.cases →
          r'.passed = r.passed ∧ r'.failed = r.failed ∧ r'.isSuccess = r.isSuccess ∧
            r'.worstSeverity? = r.worstSeverity? ∧ r'.exitCode = r.exitCode) ∧
      let ran := (s.run w).1
      (ran.exitCode = 0 ↔ ran.failed = 0) ∧
        ((∀ i f, ⟨.install, i, .error f⟩ ∉ s.invocations w) →
          ran.passed + ran.failed = ran.cases.length) ∧
        ((∃ i f, ⟨.install, i, .error f⟩ ∈ s.invocations w) → ran.passed = 0 ∧ ran.failed = 1) := by
  refine ⟨fun r => ?_, exitCode_of_run_eq_zero_iff, fun hinstalled => ?_, ?_⟩
  · refine ⟨r.worstSeverity?_eq_none_iff, fun severity => ?_, ?_, r.passed_eq_length_iff.symm,
      r.exitCode_of_worst, r.exitCode_of_worst, r.exitCode_of_worst, r.exitCode_of_none_failed,
      fun r' hperm => ⟨hperm.countP_eq _, hperm.countP_eq _, Report.isSuccess_perm hperm,
        Report.worstSeverity?_perm hperm, Report.exitCode_perm hperm⟩⟩
    · rw [r.worstSeverity?_eq_some_iff]
      simp only [Outcome.severity?_eq_some_iff, forall_exists_index]
      exact and_congr_right fun _ => forall₂_congr fun c _ => forall_comm
    · rw [r.exitCode_eq_zero_iff, r.isSuccess_iff, Report.outcomes, List.forall_mem_map]
  · rcases s.completed_or_aborted w with ⟨hall, -⟩ | ⟨k, f, -, hsome, -⟩
    · exact passed_add_failed_of_installed hall
    · refine absurd ((mem_invocations_install s w).mpr ?_) (hinstalled k f)
      rw [hsome]
      simp
  · rintro ⟨i, f, hmem⟩
    rcases s.completed_or_aborted w with ⟨hall, -⟩ | ⟨k, g, hk, hsome, -⟩
    · have hresult := (mem_invocations_install s w).mp hmem
      rw [hall] at hresult
      cases List.eq_of_mem_replicate (List.mem_of_getElem? hresult)
    · exact passed_failed_of_aborted hk hsome

end Shakedown
