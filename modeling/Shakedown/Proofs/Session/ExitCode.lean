import Shakedown.Proofs.Run.Selection
import Shakedown.Proofs.Settings.Acceptance
import Shakedown.Proofs.Transport.Failure
import Shakedown.Proofs.Transport.Sending

/-!
# The exit code of a session

The calls of a run tell its exit code: 3 if one of them yielded no envelope, else 1 if one of the
envelopes was not what its call expects, else 0. The code 2 is left for settings that cannot be
used, which are found out before the first call.
-/

namespace Shakedown

/-! ### The exit code of verdicts -/

namespace Answered

theorem verdict_of_error {x : Answered} {f : Failure} (hresult : x.result = .error f) :
    x.verdict = .error f := by
  rw [verdict, hresult]

/-- A failure on the way to the server is critical, and any other is high. -/
theorem severity_of_verdict {x : Answered} {f : Failure}
    (hway : ∀ g, x.result = .error g → g.OnTheWay) (herror : x.verdict = .error f) :
    (x.result = .error f ∧ f.severity = .critical) ∨
      ((∃ e, x.result = .ok e ∧ ¬x.call.Expects e) ∧ f.severity = .high) := by
  rcases verdict_eq_error herror with hresult | ⟨hunexpected, hcategory⟩
  · exact Or.inl ⟨hresult, (hway f hresult).severity_eq⟩
  · refine Or.inr ⟨hunexpected, ?_⟩
    rw [Failure.severity, hcategory]
    rfl

section ExitCode

variable {answers : List Answered}

theorem mem_failuresIn_verdicts {f : Failure} :
    f ∈ failuresIn (answers.map verdict) ↔ ∃ x ∈ answers, x.verdict = .error f := by
  rw [mem_failuresIn, List.mem_map]

theorem failuresIn_verdicts_eq_nil_iff :
    failuresIn (answers.map verdict) = [] ↔ ∀ x ∈ answers, x.AsExpected := by
  rw [List.eq_nil_iff_forall_not_mem]
  constructor
  · intro hnone x hx
    cases hverdict : x.verdict with
    | ok u => exact verdict_eq_ok_iff.mp hverdict
    | error f => exact absurd (mem_failuresIn_verdicts.mpr ⟨x, hx, hverdict⟩) (hnone f)
  · intro hall f hf
    obtain ⟨x, hx, hverdict⟩ := mem_failuresIn_verdicts.mp hf
    rw [verdict_eq_ok_iff.mpr (hall x hx)] at hverdict
    exact nomatch hverdict

theorem not_exists_error_iff :
    (¬∃ x ∈ answers, ∃ f, x.result = .error f) ↔ ∀ x ∈ answers, ∃ e, x.result = .ok e := by
  constructor
  · intro hnone x hx
    cases hresult : x.result with
    | ok e => exact ⟨e, rfl⟩
    | error f => exact absurd ⟨x, hx, f, hresult⟩ hnone
  · rintro henvelopes ⟨x, hx, f, herror⟩
    obtain ⟨e, hresult⟩ := henvelopes x hx
    rw [hresult] at herror
    exact nomatch herror

/-- Where every call yielded an envelope, only an envelope can be other than expected. -/
theorem not_forall_asExpected_iff (henvelopes : ∀ x ∈ answers, ∃ e, x.result = .ok e) :
    (¬∀ x ∈ answers, x.AsExpected) ↔
      ∃ x ∈ answers, ∃ e, x.result = .ok e ∧ ¬x.call.Expects e := by
  constructor
  · intro hsome
    obtain ⟨x, hx⟩ := Classical.not_forall.mp hsome
    obtain ⟨hmem, hunexpected⟩ := Classical.not_imp.mp hx
    obtain ⟨e, hresult⟩ := henvelopes x hmem
    refine ⟨x, hmem, e, hresult, ?_⟩
    intro hexpects
    exact hunexpected ⟨e, hresult, hexpects⟩
  · rintro ⟨x, hx, e, hresult, hbroken⟩ hall
    obtain ⟨e', hresult', hexpects⟩ := hall x hx
    rw [hresult] at hresult'
    cases hresult'
    exact hbroken hexpects

variable (hway : ∀ x ∈ answers, ∀ f, x.result = .error f → f.OnTheWay)

include hway

theorem exitCode_eq_three_iff :
    exitCodeOf (failuresIn (answers.map verdict)) = 3 ↔
      ∃ x ∈ answers, ∃ f, x.result = .error f := by
  rw [exitCodeOf_eq_three_iff]
  constructor
  · rintro ⟨f, hf, hcritical⟩
    obtain ⟨x, hx, hverdict⟩ := mem_failuresIn_verdicts.mp hf
    rcases severity_of_verdict (hway x hx) hverdict with ⟨hresult, -⟩ | ⟨-, hhigh⟩
    · exact ⟨x, hx, f, hresult⟩
    · rw [hcritical] at hhigh
      exact nomatch hhigh
  · rintro ⟨x, hx, f, hresult⟩
    have hmem := mem_failuresIn_verdicts.mpr ⟨x, hx, verdict_of_error hresult⟩
    exact ⟨f, hmem, (hway x hx f hresult).severity_eq⟩

theorem exitCode_ne_two : exitCodeOf (failuresIn (answers.map verdict)) ≠ 2 := by
  apply exitCodeOf_ne_two
  intro f hf hmedium
  obtain ⟨x, hx, hverdict⟩ := mem_failuresIn_verdicts.mp hf
  rcases severity_of_verdict (hway x hx) hverdict with ⟨-, hcritical⟩ | ⟨-, hhigh⟩
  · rw [hmedium] at hcritical
    exact nomatch hcritical
  · rw [hmedium] at hhigh
    exact nomatch hhigh

theorem exitCode_eq_one_iff :
    exitCodeOf (failuresIn (answers.map verdict)) = 1 ↔
      (∀ x ∈ answers, ∃ e, x.result = .ok e) ∧
        ∃ x ∈ answers, ∃ e, x.result = .ok e ∧ ¬x.call.Expects e := by
  have htwo := exitCode_ne_two hway
  have hle : exitCodeOf (failuresIn (answers.map verdict)) ≤ 3 := exitCodeOf_le_three
  have hone : exitCodeOf (failuresIn (answers.map verdict)) = 1 ↔
      exitCodeOf (failuresIn (answers.map verdict)) ≠ 3 ∧
        exitCodeOf (failuresIn (answers.map verdict)) ≠ 0 := by
    omega
  have hthree : exitCodeOf (failuresIn (answers.map verdict)) ≠ 3 ↔
      ∀ x ∈ answers, ∃ e, x.result = .ok e :=
    (not_congr (exitCode_eq_three_iff hway)).trans not_exists_error_iff
  have hzero : exitCodeOf (failuresIn (answers.map verdict)) ≠ 0 ↔
      ¬∀ x ∈ answers, x.AsExpected :=
    not_congr (exitCodeOf_eq_zero_iff.trans failuresIn_verdicts_eq_nil_iff)
  rw [hone, hthree, hzero]
  exact and_congr_right not_forall_asExpected_iff

end ExitCode

end Answered

namespace Session

theorem onTheWay_of_answered {around : Surroundings} {transport : Transport}
    (before calls : List Call) :
    ∀ x ∈ (serverOf around transport).answered before calls,
      ∀ f, x.result = .error f → f.OnTheWay := by
  intro x hx f herror
  obtain ⟨-, earlier, hanswer⟩ := Server.mem_answered _ hx
  rw [hanswer] at herror
  exact onTheWay_of_serverOf herror

variable {server : Server} {apps : List App} {credentials : Credentials} {clock : Nat}

/-- The failures of a run are the verdicts on the answers to its calls. -/
theorem exitCode_runApps (hclosed : ∀ a ∈ apps, ∀ b ∈ a.needs, b ∈ apps) :
    (runApps server apps credentials clock).1.exitCode =
      exitCodeOf (failuresIn ((server.answered []
        (runApps server apps credentials clock).2.calls).map Answered.verdict)) := by
  obtain ⟨sent, hsent, hfailures, -⟩ :=
    Suite.run_standard (Suite.cases_forApps server apps credentials)
      { World.start (Registry.ofApps apps) () with clock := clock }
      (App.accounts_mem_selected hclosed)
  change (runApps server apps credentials clock).2.calls = [] ++ sent at hsent
  rw [hsent, List.nil_append]
  exact (Suite.exitCode_of_run _ _).trans (congrArg exitCodeOf hfailures)

theorem exitCode_runApps_ne_two {around : Surroundings} {transport : Transport}
    (hclosed : ∀ a ∈ apps, ∀ b ∈ a.needs, b ∈ apps) :
    (runApps (serverOf around transport) apps credentials clock).1.exitCode ≠ 2 := by
  rw [exitCode_runApps hclosed]
  exact Answered.exitCode_ne_two (onTheWay_of_answered [] _)

/-- A session sends calls only in a run of accepted settings. -/
theorem run_cases (around : Surroundings) (a : Arguments) :
    (run around a).calls = [] ∨
      ∃ told settings transport, settings.validate around.environment = .ok () ∧
        run around a = realRun told around a settings transport := by
  unfold run
  cases settingsFor around a with
  | error f => exact Or.inl rfl
  | ok loaded =>
    dsimp only
    cases hvalid : (a.override loaded).validate around.environment with
    | error f => exact Or.inl rfl
    | ok u =>
      dsimp only
      by_cases hdry : a.dryRun = true
      · rw [if_pos hdry]
        exact Or.inl rfl
      · rw [if_neg hdry]
        cases (a.override loaded).transport with
        | error f => exact Or.inl rfl
        | ok transport => exact Or.inr ⟨_, _, transport, hvalid, rfl⟩

theorem calls_eq_nil_of_two {around : Surroundings} {a : Arguments}
    (htwo : (run around a).exitCode = 2) : (run around a).calls = [] := by
  rcases run_cases around a with hnone | ⟨told, settings, transport, hvalid, hrun⟩
  · exact hnone
  · obtain ⟨-, -, -, -, happs⟩ := Settings.validate_eq_ok_iff.mp hvalid
    obtain ⟨-, hclosed⟩ := Settings.validateApps_eq_ok_iff.mp happs
    rw [hrun] at htwo
    exact absurd htwo (exitCode_runApps_ne_two hclosed)

/-- A run ends with 3 if a call yields no envelope, else with 1 if one is not as expected, else
with 0. -/
theorem exitCode_of_validate (around : Surroundings) (settings : Settings) (clock : Nat)
    (hvalid : settings.validate around.environment = .ok ()) :
    (∃ transport, settings.transport = .ok transport ∧
      let server := serverOf around transport
      let outcome := runApps server settings.apps settings.accounts clock
      let answers := server.answered [] outcome.2.calls
      (outcome.1.exitCode = 3 ↔ ∃ x ∈ answers, ∃ f, x.result = .error f) ∧
        (outcome.1.exitCode = 1 ↔
          (∀ x ∈ answers, ∃ e, x.result = .ok e) ∧
            ∃ x ∈ answers, ∃ e, x.result = .ok e ∧ ¬x.call.Expects e) ∧
        (outcome.1.exitCode = 0 ↔ ∀ x ∈ answers, ∃ e, x.result = .ok e ∧ x.call.Expects e) ∧
        outcome.1.exitCode ≠ 2) ∧
      ∀ a, (run around a).exitCode = 2 → (run around a).calls = [] := by
  obtain ⟨hinterface, -, -, -, happs⟩ := Settings.validate_eq_ok_iff.mp hvalid
  obtain ⟨transport, htransport⟩ := Settings.exists_transport hinterface
  obtain ⟨-, hclosed⟩ := Settings.validateApps_eq_ok_iff.mp happs
  refine ⟨⟨transport, htransport, ?_⟩, fun a => calls_eq_nil_of_two⟩
  intro server outcome answers
  have hcode : outcome.1.exitCode = exitCodeOf (failuresIn (answers.map Answered.verdict)) :=
    exitCode_runApps hclosed
  have hway : ∀ x ∈ answers, ∀ f, x.result = .error f → f.OnTheWay :=
    onTheWay_of_answered [] outcome.2.calls
  rw [hcode]
  exact ⟨Answered.exitCode_eq_three_iff hway, Answered.exitCode_eq_one_iff hway,
    exitCodeOf_eq_zero_iff.trans Answered.failuresIn_verdicts_eq_nil_iff,
    Answered.exitCode_ne_two hway⟩

theorem exitCode_of_validate_refused :
    let settings : Settings := ⟨⟨.cli, none, some "/srv", none, none⟩, ⟨"admin", "secret"⟩, [.core]⟩
    let around : Surroundings :=
      { environment := fun _ => none
        file := fun _ => .error .nulInArgument
        launch := fun _ _ _ => (.refused .nulInArgument, 0)
        exchange := fun _ _ _ => (.unreachable, 0)
        clock := 0 }
    settings.validate around.environment = .ok () ∧
      ∃ transport, settings.transport = .ok transport ∧
        (runApps (serverOf around transport) settings.apps settings.accounts 0).1.exitCode = 3 := by
  intro settings around
  have hvalid : settings.validate around.environment = .ok () :=
    eq_ok_of_toOption (by decide +kernel)
  obtain ⟨⟨transport, htransport, hthree, -⟩, -⟩ := exitCode_of_validate around settings 0 hvalid
  let shell : Shell := ⟨settings.phpBinary, "/srv", settings.timeoutSeconds * 1000⟩
  obtain rfl : .shell shell = transport := Except.ok.inj htransport
  have hcalls : (runApps (serverOf around (.shell shell)) settings.apps
      settings.accounts 0).2.calls = [Call.install settings.accounts .core] := by
    rw [runApps, Suite.forApps_eq]
    decide +kernel
  have hstart : shell.canStart (Call.install settings.accounts .core) = true := by decide +kernel
  refine ⟨hvalid, _, htransport, hthree.mpr ?_⟩
  rw [hcalls]
  exact ⟨_, List.mem_cons_self, .system .nulInArgument, Shell.result_server hstart⟩

end Session

end Shakedown
