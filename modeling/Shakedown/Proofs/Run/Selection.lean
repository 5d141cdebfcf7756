import Shakedown.Proofs.Run.Standard

/-!
# Runs for a selection of apps

A selection of apps can be run when it holds some app, and with each app everything that it needs.
It then holds `core`, and `accounts` if it holds `files`, so the suite has one of three forms.
-/

namespace Shakedown

variable {μ : Type}

namespace App

theorem selected_of_closed {apps : List App} (hne : apps ≠ [])
    (hclosed : ∀ a ∈ apps, ∀ b ∈ a.needs, b ∈ apps) :
    selected apps = [core] ∨ selected apps = [core, accounts] ∨
      selected apps = [core, accounts, files] := by
  have hcore : core ∈ apps := by
    obtain ⟨a, ha⟩ := List.exists_mem_of_ne_nil apps hne
    cases a with
    | core => exact ha
    | accounts => exact hclosed accounts ha core (by decide)
    | files => exact hclosed files ha core (by decide)
  unfold selected
  by_cases haccounts : accounts ∈ apps
  · by_cases hfiles : files ∈ apps
    · simp [hcore, haccounts, hfiles]
    · simp [hcore, haccounts, hfiles]
  · have hfiles : files ∉ apps := fun hmem =>
      haccounts (hclosed files hmem accounts (by decide))
    simp [hcore, haccounts, hfiles]

/-- A closed selection holds `accounts` when it holds anything but `core`. -/
theorem accounts_mem_selected {apps : List App}
    (hclosed : ∀ a ∈ apps, ∀ b ∈ a.needs, b ∈ apps) :
    ∀ a ∈ selected apps, a ≠ core → accounts ∈ selected apps := by
  intro a ha hcore
  rw [mem_selected] at ha ⊢
  cases a with
  | core => exact absurd rfl hcore
  | accounts => exact ha
  | files => exact hclosed files ha accounts (by decide)

theorem testCalls_of_closed {apps : List App} (hne : apps ≠ [])
    (hclosed : ∀ a ∈ apps, ∀ b ∈ a.needs, b ∈ apps) :
    (selected apps).filterMap testCall? =
      Call.toUnknownApp :: if files ∈ apps then [Call.readSettings] else [] := by
  have hfiles : (if files ∈ apps then [Call.readSettings] else []) =
      if files ∈ selected apps then [Call.readSettings] else [] := by
    simp only [mem_selected]
  rw [hfiles]
  rcases selected_of_closed hne hclosed with h | h | h <;> rw [h] <;> rfl

end App

theorem Outcome.ofTests_eq_passed_iff {result : Except Failure Unit} :
    Outcome.ofTests result = .passed ↔ result = .ok () := by
  cases result with
  | ok u => exact ⟨fun _ => rfl, fun _ => rfl⟩
  | error f => exact ⟨nofun, nofun⟩

/-- The report on a case names its app and its outcome at the same place. -/
theorem Report.mem_zip_outcomes {r : Report} {c : CaseReport} (hc : c ∈ r.cases) :
    (c.app, c.outcome) ∈ (r.cases.map CaseReport.app).zip r.outcomes := by
  rw [outcomes, List.zip_map']
  exact List.mem_map_of_mem hc

theorem Case.outcomes_of_closed {server : Server} {apps : List App} {before : List Call}
    (hne : apps ≠ []) (hclosed : ∀ a ∈ apps, ∀ b ∈ a.needs, b ∈ apps) {a : App} {o : Outcome}
    (hmem : (a, o) ∈ (App.selected apps).zip
      ((Case.testVerdicts server before (App.selected apps)).map Outcome.ofTests)) :
    (a = .core → (o = .passed ↔
        (server.answer before Call.toUnknownApp).Refused "UNKNOWN_APP")) ∧
      (a = .accounts → o = .passed) ∧
      (a = .files → (o = .passed ↔
        (server.answer (before ++ [Call.toUnknownApp]) Call.readSettings).Succeeded)) := by
  have hcore : Outcome.ofTests (server.answer before Call.toUnknownApp).verdict = .passed ↔
      (server.answer before Call.toUnknownApp).Refused "UNKNOWN_APP" :=
    Outcome.ofTests_eq_passed_iff.trans
      (Answered.verdict_eq_ok_iff.trans (Answered.asExpected_iff_refused rfl))
  have hfiles (earlier : List Call) :
      Outcome.ofTests (server.answer earlier Call.readSettings).verdict = .passed ↔
        (server.answer earlier Call.readSettings).Succeeded :=
    Outcome.ofTests_eq_passed_iff.trans
      (Answered.verdict_eq_ok_iff.trans
        (Answered.asExpected_iff_succeeded (by decide : "files" ≠ "notanapp")))
  rcases App.selected_of_closed hne hclosed with h | h | h
  · rw [h] at hmem
    obtain ⟨rfl, rfl⟩ : a = .core ∧ o = _ := by simpa [testVerdicts] using hmem
    exact ⟨fun _ => hcore, by simp, by simp⟩
  · rw [h] at hmem
    obtain ⟨rfl, rfl⟩ | ⟨rfl, rfl⟩ : a = .core ∧ o = _ ∨ a = .accounts ∧ o = _ := by
      simpa [testVerdicts] using hmem
    · exact ⟨fun _ => hcore, by simp, by simp⟩
    · exact ⟨by simp, fun _ => rfl, by simp⟩
  · rw [h] at hmem
    obtain ⟨rfl, rfl⟩ | ⟨rfl, rfl⟩ | ⟨rfl, rfl⟩ :
        a = .core ∧ o = _ ∨ a = .accounts ∧ o = _ ∨ a = .files ∧ o = _ := by
      simpa [testVerdicts] using hmem
    · exact ⟨fun _ => hcore, by simp, by simp⟩
    · exact ⟨by simp, fun _ => rfl, by simp⟩
    · refine ⟨by simp, by simp, fun _ => ?_⟩
      exact hfiles (before ++ [Call.toUnknownApp])

namespace Suite

/-- A run sends the installs of its apps in order and, if all succeed, the calls of their tests. -/
theorem run_forApps (server : Server) (apps : List App) (credentials : Credentials) (w : World μ)
    (hne : apps ≠ []) (hclosed : ∀ a ∈ apps, ∀ b ∈ a.needs, b ∈ apps) :
    let s : Suite μ := forApps server apps credentials
    let plan := (App.selected apps).map (Call.install credentials)
    (s.run w).1.cases.map CaseReport.app = App.selected apps ∧
      ∃ sent, (s.run w).2.calls = w.calls ++ sent ∧
        ((∃ accepted call rest, plan = accepted ++ call :: rest ∧ sent = accepted ++ [call] ∧
            (∀ x ∈ server.answered w.calls accepted, x.Succeeded) ∧
            ¬(server.answer (w.calls ++ accepted) call).Succeeded) ∨
          (sent = plan ++ Call.toUnknownApp ::
              (if .files ∈ apps then [Call.readSettings] else []) ∧
            (∀ x ∈ server.answered w.calls plan, x.Succeeded) ∧
            ∀ c ∈ (s.run w).1.cases,
              (c.app = .core → (c.outcome = .passed ↔
                (server.answer (w.calls ++ plan) Call.toUnknownApp).Refused "UNKNOWN_APP")) ∧
              (c.app = .accounts → c.outcome = .passed) ∧
              (c.app = .files → (c.outcome = .passed ↔
                (server.answer (w.calls ++ plan ++ [Call.toUnknownApp])
                  Call.readSettings).Succeeded)))) ∧
        ∀ c ∈ (s.run w).1.cases, c.outcome.severity?.isSome →
          ∃ i ∈ s.invocations w, ∃ f, i.result = .error f ∧ c.outcome.Shows f ∧
            (f.category = .assertion ∨
              ∃ x ∈ server.answered w.calls sent, x.result = .error f) := by
  intro s plan
  have hcases : s.cases = (App.selected apps).map (Case.standard server .own credentials) :=
    cases_forApps server apps credentials
  have happs : (s.run w).1.cases.map CaseReport.app = App.selected apps := by
    rw [map_app_cases, hcases, List.map_map]
    exact (List.map_congr_left fun a _ => Case.app_standard server .own credentials a).trans
      (List.map_id _)
  obtain ⟨sent, hsent, hfailures, hform⟩ :=
    run_standard hcases w (App.accounts_mem_selected hclosed)
  refine ⟨happs, sent, hsent, ?_, ?_⟩
  · rcases hform with ⟨accepted, call, rest, hplan, hcut, hexpected, hnot⟩ |
      ⟨hall, hexpected, houtcomes⟩
    · change plan = accepted ++ call :: rest at hplan
      have haccepted : ∀ c ∈ accepted, c ∈ plan := by
        intro c hc
        rw [hplan]
        exact List.mem_append_left (call :: rest) hc
      have hcall : call ∈ plan := by
        rw [hplan]
        exact List.mem_append_right accepted List.mem_cons_self
      refine Or.inl ⟨accepted, call, rest, hplan, hcut, ?_, ?_⟩
      · intro x hx
        have hmem := haccepted x.call (Server.mem_answered server hx).1
        exact (Answered.asExpected_iff_of_install hmem).mp (hexpected x hx)
      · intro hsucceeded
        exact hnot ((Answered.asExpected_iff_of_install hcall).mpr hsucceeded)
    · refine Or.inr ⟨by rw [hall, App.testCalls_of_closed hne hclosed], ?_, ?_⟩
      · intro x hx
        have hmem := (Server.mem_answered server hx).1
        exact (Answered.asExpected_iff_of_install hmem).mp (hexpected x hx)
      · intro c hc
        have hmem := Report.mem_zip_outcomes hc
        rw [happs, houtcomes] at hmem
        exact Case.outcomes_of_closed hne hclosed hmem
  · intro c hc hsevere
    obtain ⟨f, hf, hshows⟩ := shows_of_run s w c.outcome (List.mem_map_of_mem hc) hsevere
    obtain ⟨i, hi, hresult⟩ := (mem_failures s w).mp hf
    refine ⟨i, hi, f, hresult, hshows, ?_⟩
    rw [hfailures, mem_failuresIn] at hf
    obtain ⟨x, hx, hverdict⟩ := List.mem_map.mp hf
    rcases Answered.verdict_eq_error hverdict with hanswer | ⟨-, hcategory⟩
    · exact Or.inr ⟨x, hx, hanswer⟩
    · exact Or.inl hcategory

theorem run_forApps_repeated :
    let server : Server := fun _ _ => { result := .ok (.success .null) }
    let apps : List App := [.files, .core, .accounts, .files]
    apps ≠ [] ∧ (∀ a ∈ apps, ∀ b ∈ a.needs, b ∈ apps) ∧
      ((forApps server apps ⟨"admin", "secret"⟩ : Suite Unit).run
          (World.start Registry.empty ())).1.cases.map CaseReport.app =
        [.core, .accounts, .files] := by
  intro server apps
  have hne : apps ≠ [] := by decide
  have hclosed : ∀ a ∈ apps, ∀ b ∈ a.needs, b ∈ apps := by decide
  obtain ⟨happs, -⟩ :=
    run_forApps server apps ⟨"admin", "secret"⟩ (World.start Registry.empty ()) hne hclosed
  exact ⟨hne, hclosed, happs⟩

end Suite

end Shakedown
