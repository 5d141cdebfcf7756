import Shakedown.Proofs.Case.Standard
import Shakedown.Proofs.Run.Failures
import Shakedown.Proofs.Suite.Order

/-!
# Runs of the standard suites

A run of the standard cases of some apps sends the installs of these apps until one of them is not
answered with success. Only if all are does it send the calls of the tests, and then it sends all
of them. The administrator that the install of `accounts` records stays on record while later apps
are installed, so no test misses it, and every failure of a run is the verdict on an answer to one
of its calls.
-/

namespace Shakedown

variable {μ : Type}

namespace Case

section Attempts

variable (server : Server) (credentials : Credentials) (a : App) (w : World μ)

theorem attemptInstall_standard :
    ((standard server .own credentials a).attemptInstall w).1.result =
        (server.answer w.calls (Call.install credentials a)).verdict ∧
      ((standard server .own credentials a).attemptInstall w).2.calls =
        w.calls ++ [Call.install credentials a] := by
  rw [result_attemptInstall, attemptInstall_eq]
  dsimp only
  rw [calls_settleInstall]
  exact install_standard server .own credentials a (w.note ..)

theorem hasAdmin_attemptInstall
    (hok : ((standard server .own credentials a).attemptInstall w).1.result = .ok ())
    (hadmin : a = .accounts ∨ w.own.HasAdmin credentials.username) :
    ((standard server .own credentials a).attemptInstall w).2.own.HasAdmin
      credentials.username := by
  rw [result_attemptInstall] at hok
  rw [attemptInstall_eq]
  exact hasAdmin_settleInstall _ _ (hasAdmin_install server credentials a (w.note ..) hok hadmin)

theorem attemptTests_standard (hadmin : a ≠ .core → w.own.HasAdmin credentials.username) :
    ((standard server .own credentials a).attemptTests w).1.result =
        testVerdict server w.calls a ∧
      ((standard server .own credentials a).attemptTests w).2.calls =
        w.calls ++ a.testCall?.toList ∧
      ((standard server .own credentials a).attemptTests w).2.own = w.own := by
  obtain ⟨hresult, hcalls⟩ := tests_standard server credentials a
    (w.note .info .suite ("Testing " ++ (standard server .own credentials a : Case μ).name)) hadmin
  rw [result_attemptTests, attemptTests_eq]
  dsimp only
  rw [calls_settleTests, own_settleTests]
  exact ⟨hresult, hcalls, own_tests_standard server credentials a (w.note ..)⟩

end Attempts

section Phases

variable (server : Server) (credentials : Credentials) (apps : List App) (w : World μ)

/-- The installs go on as long as they are answered with success. What they return are the verdicts
on the answers to the calls that were sent. -/
theorem installAll_standard :
    (installAll (apps.map (standard server .own credentials)) w).2.calls =
        w.calls ++ server.sentOf w.calls (apps.map (Call.install credentials)) ∧
      (installAll (apps.map (standard server .own credentials)) w).1.map Attempt.result =
        (server.answered w.calls
          (server.sentOf w.calls (apps.map (Call.install credentials)))).map Answered.verdict := by
  induction apps generalizing w with
  | nil => exact ⟨(List.append_nil w.calls).symm, rfl⟩
  | cons a rest ih =>
    obtain ⟨hresult, hcalls⟩ := attemptInstall_standard server credentials a w
    rw [List.map_cons, List.map_cons]
    cases hverdict : (server.answer w.calls (Call.install credentials a)).verdict with
    | error f =>
      rw [installAll_cons_of_error _ (hresult.trans hverdict),
        Server.sentOf_cons_of_error server _ hverdict]
      refine ⟨hcalls, ?_⟩
      rw [Server.answered_singleton, List.map_singleton, List.map_singleton, hresult]
    | ok u =>
      obtain ⟨hsent, hresults⟩ := ih ((standard server .own credentials a).attemptInstall w).2
      rw [hcalls] at hsent hresults
      rw [installAll_cons_of_ok _ (hresult.trans hverdict),
        Server.sentOf_cons_of_ok server _ hverdict]
      constructor
      · rw [hsent, List.append_assoc, List.singleton_append]
      · rw [List.map_cons, hresult, hresults, Server.answered, List.map_cons]

/-- After installs that all succeeded the administrator is on record, if `accounts` was among the
apps or if it was on record before. -/
theorem hasAdmin_installAll
    (hall : (installAll (apps.map (standard server .own credentials)) w).1.map Attempt.result =
      List.replicate apps.length (.ok ()))
    (hadmin : .accounts ∈ apps ∨ w.own.HasAdmin credentials.username) :
    (installAll (apps.map (standard server .own credentials)) w).2.own.HasAdmin
      credentials.username := by
  induction apps generalizing w with
  | nil => exact hadmin.resolve_left List.not_mem_nil
  | cons a rest ih =>
    rw [List.map_cons] at hall ⊢
    cases hresult : ((standard server .own credentials a).attemptInstall w).1.result with
    | error f =>
      rw [installAll_cons_of_error _ hresult, List.map_singleton, hresult] at hall
      exact nomatch (List.cons.inj hall).1
    | ok u =>
      rw [installAll_cons_of_ok _ hresult] at hall ⊢
      have hstep := hasAdmin_attemptInstall server credentials a w hresult
      refine ih _ (List.cons.inj hall).2 ?_
      rcases hadmin with hmem | hbefore
      · rcases List.mem_cons.mp hmem with ha | hlater
        · exact Or.inr (hstep (Or.inl ha.symm))
        · exact Or.inl hlater
      · exact Or.inr (hstep (Or.inr hbefore))

/-- What tests return, one after the other, when the administrator is on record. -/
def testVerdicts (server : Server) : List Call → List App → List (Except Failure Unit)
  | _, [] => []
  | before, a :: rest =>
    testVerdict server before a :: testVerdicts server (before ++ a.testCall?.toList) rest

theorem testAll_standard (hadmin : ∀ a ∈ apps, a ≠ .core → w.own.HasAdmin credentials.username) :
    (testAll (apps.map (standard server .own credentials)) w).1.map Attempt.result =
        testVerdicts server w.calls apps ∧
      (testAll (apps.map (standard server .own credentials)) w).2.calls =
        w.calls ++ apps.filterMap App.testCall? := by
  induction apps generalizing w with
  | nil => exact ⟨rfl, (List.append_nil w.calls).symm⟩
  | cons a rest ih =>
    obtain ⟨hresult, hcalls, hown⟩ :=
      attemptTests_standard server credentials a w (hadmin a List.mem_cons_self)
    have hrest := ih ((standard server .own credentials a).attemptTests w).2 fun b hb hcore => by
      rw [hown]
      exact hadmin b (List.mem_cons_of_mem a hb) hcore
    rw [List.map_cons, testAll_cons]
    dsimp only
    rw [List.map_cons, hrest.1, hrest.2, hresult, hcalls, testVerdicts, List.filterMap_cons]
    cases a <;> simp [App.testCall?]

/-- Tests that send no call do not fail. -/
theorem failuresIn_testVerdicts (before : List Call) :
    failuresIn (testVerdicts server before apps) =
      failuresIn
        ((server.answered before (apps.filterMap App.testCall?)).map Answered.verdict) := by
  induction apps generalizing before with
  | nil => rfl
  | cons a rest ih =>
    have hrest := ih (before ++ a.testCall?.toList)
    unfold failuresIn at hrest ⊢
    rw [testVerdicts, List.filterMap_cons, hrest, List.filterMap_cons (f := App.testCall?),
      testVerdict]
    cases a.testCall? with
    | none => rw [Option.toList_none, List.append_nil]
    | some call => rfl

end Phases

end Case

namespace Suite

variable {server : Server} {credentials : Credentials} {apps : List App} {s : Suite μ}
  (hcases : s.cases = apps.map (Case.standard server .own credentials)) (w : World μ)

include hcases

theorem installs_standard :
    (s.installs w).2.calls =
        w.calls ++ server.sentOf w.calls (apps.map (Call.install credentials)) ∧
      s.installResults w =
        (server.answered w.calls
          (server.sentOf w.calls (apps.map (Call.install credentials)))).map Answered.verdict := by
  have hinstalls := Case.installAll_standard server credentials apps (s.prepared w)
  rwa [← hcases] at hinstalls

theorem installResults_standard_iff :
    s.installResults w = List.replicate s.cases.length (.ok ()) ↔
      ∀ x ∈ server.answered w.calls (apps.map (Call.install credentials)), x.AsExpected := by
  obtain ⟨-, hresults⟩ := installs_standard hcases w
  have hlength : s.cases.length = (apps.map (Call.install credentials)).length := by
    rw [hcases, List.length_map, List.length_map]
  rw [hresults, hlength]
  exact server.verdicts_sentOf_iff w.calls _

theorem tests_standard (hneeds : ∀ a ∈ apps, a ≠ .core → .accounts ∈ apps)
    (hall : s.installResults w = List.replicate s.cases.length (.ok ())) :
    (s.tests w).2.calls = (s.installs w).2.calls ++ apps.filterMap App.testCall? ∧
      s.testResults w = Case.testVerdicts server (s.installs w).2.calls apps := by
  have hlength : s.cases.length = apps.length := by rw [hcases, List.length_map]
  have hadmin : ∀ a ∈ apps, a ≠ .core →
      (s.installs w).2.own.HasAdmin credentials.username := by
    intro a ha hcore
    rw [hlength] at hall
    rw [installResults, installs, hcases] at hall
    rw [installs, hcases]
    exact Case.hasAdmin_installAll server credentials apps (s.prepared w) hall
      (Or.inl (hneeds a ha hcore))
  obtain ⟨hverdicts, hcalls⟩ :=
    Case.testAll_standard server credentials apps (s.installs w).2 hadmin
  rw [testResults, tests_of_installed hall, hcases]
  exact ⟨hcalls, hverdicts⟩

/-- What a run of standard cases sends, and how it fails. -/
theorem run_standard (hneeds : ∀ a ∈ apps, a ≠ .core → .accounts ∈ apps) :
    ∃ sent, (s.run w).2.calls = w.calls ++ sent ∧
      s.failures w = failuresIn ((server.answered w.calls sent).map Answered.verdict) ∧
      ((∃ accepted call rest,
          apps.map (Call.install credentials) = accepted ++ call :: rest ∧
          sent = accepted ++ [call] ∧
          (∀ x ∈ server.answered w.calls accepted, x.AsExpected) ∧
          ¬(server.answer (w.calls ++ accepted) call).AsExpected) ∨
        (sent = apps.map (Call.install credentials) ++ apps.filterMap App.testCall? ∧
          (∀ x ∈ server.answered w.calls (apps.map (Call.install credentials)), x.AsExpected) ∧
          (s.run w).1.outcomes =
            (Case.testVerdicts server (w.calls ++ apps.map (Call.install credentials)) apps).map
              Outcome.ofTests)) := by
  obtain ⟨hsent, hresults⟩ := installs_standard hcases w
  have hiff := installResults_standard_iff hcases w
  have hcalls : (s.run w).2.calls = (s.tests w).2.calls := by rw [run_eq]
  rw [hcalls]
  rcases server.sentOf_cases w.calls (apps.map (Call.install credentials)) with
    ⟨hwhole, hall⟩ | ⟨accepted, call, rest, hplan, hcut, hall, hnot⟩
  · have hinstalls := hiff.mpr hall
    obtain ⟨htests, hverdicts⟩ := tests_standard hcases w hneeds hinstalls
    rw [hsent, hwhole] at htests hverdicts
    rw [hwhole] at hresults
    refine ⟨_, htests.trans (List.append_assoc ..), ?_, Or.inr ⟨rfl, hall, ?_⟩⟩
    · rw [failures, hresults, hverdicts, failuresIn_append, Case.failuresIn_testVerdicts,
        Server.answered_append, List.map_append, failuresIn_append]
    · rw [outcomes_of_installed hinstalls, hverdicts]
  · have hmem : server.answer (w.calls ++ accepted) call ∈
        server.answered w.calls (apps.map (Call.install credentials)) := by
      rw [hplan, Server.answered_append]
      exact List.mem_append_right _ List.mem_cons_self
    rcases s.completed_or_aborted w with ⟨hinstalls, -⟩ | ⟨k, f, -, hsome, htests⟩
    · exact absurd (hiff.mp hinstalls _ hmem) hnot
    · refine ⟨_, ?_, ?_, Or.inl ⟨accepted, call, rest, hplan, hcut, hall, hnot⟩⟩
      · rw [tests_of_failed hsome]
        exact hsent
      · rw [failures, htests, List.append_nil, hresults]

end Suite

end Shakedown
