import Shakedown.Proofs.Run.Effect

/-!
# What one hook may do

An install sends one call and fails for what comes of that call alone. If it fails then it has
written nothing, and if it succeeds then only that of `accounts` writes, where the case is built:
it registers `accounts` if need be and replaces its administrator. Tests never write.
-/

namespace Shakedown

variable {μ : Type}

namespace Answered

/-- A call to an app that the server knows fails with what the call failed with, or with a complaint
that gives the code and the message of the answer. -/
theorem verdict_eq_error_iff {x : Answered} {f : Failure} (hknown : x.call.app ≠ "notanapp") :
    x.verdict = .error f ↔
      x.result = .error f ∨
        ∃ e, x.result = .ok e ∧ e.ok = false ∧
          f = .unexpected x.call.app x.call.action e.code (e.message.getD "no message") := by
  unfold verdict
  cases x.result with
  | error g => simp
  | ok e =>
    dsimp only
    rw [show Case.unknownName = "notanapp" from rfl, if_neg hknown, Envelope.requireOk]
    by_cases hok : e.ok = true
    · simp [hok, Except.map]
    · rw [if_neg hok]
      constructor
      · rintro ⟨⟩
        exact Or.inr ⟨e, rfl, eq_false_of_ne_true hok, rfl⟩
      · rintro (herror | ⟨_, hresult, -, rfl⟩)
        · cases herror
        · cases hresult
          rfl

theorem success?_of_verdict_error {x : Answered} {f : Failure} (hknown : x.call.app ≠ "notanapp")
    (herror : x.verdict = .error f) : x.success? = none := by
  rw [← Option.not_isSome_iff_eq_none, isSome_success?_iff, ← asExpected_iff_succeeded hknown,
    ← verdict_eq_ok_iff, herror]
  exact nofun

theorem success?_of_verdict_ok {x : Answered} (hknown : x.call.app ≠ "notanapp")
    (hok : x.verdict = .ok ()) : ∃ e, x.success? = some e := by
  rwa [verdict_eq_ok_iff, asExpected_iff_succeeded hknown, ← isSome_success?_iff,
    Option.isSome_iff_exists] at hok

end Answered

theorem Registry.record?_registerAdmin (r : Registry) (a b : App) (admin : Admin) :
    (r.registerAdmin a admin).record? b =
      if b = a then some ⟨(r.id? a).getD a, r.isInstalled a, some admin⟩ else r.record? b := by
  unfold registerAdmin isInstalled id?
  rw [record?_set]
  cases r.record? a <;> rfl

namespace Case

variable (server : Server) (base : Base) (credentials : Credentials) (a : App) (w : World μ)

/-! ### Installs -/

theorem registry_of_install_error {f : Failure}
    (herror : ((standard server base credentials a).install w).1 = .error f) :
    ((standard server base credentials a).install w).2.registry = w.registry := by
  rw [(install_standard server base credentials a w).1] at herror
  have hnone := Answered.success?_of_verdict_error (Call.app_install_ne credentials a) herror
  funext b
  rw [registry_install_standard, hnone]

theorem registry_of_install_ok
    (hok : ((standard server base credentials a).install w).1 = .ok ()) :
    ∃ e, (server w.calls (Call.install credentials a)).result = .ok e ∧
      ∀ b, ((standard server base credentials a).install w).2.registry b =
        afterInstall base credentials a e b (w.registry b) := by
  rw [(install_standard server base credentials a w).1] at hok
  obtain ⟨e, he⟩ := Answered.success?_of_verdict_ok (Call.app_install_ne credentials a) hok
  refine ⟨e, (Answered.success?_eq_some_iff.mp he).1, fun b => ?_⟩
  rw [registry_install_standard, he]

theorem afterInstall_of_base_ne {b : Base} (hne : b ≠ base) (e : Envelope) (r : Registry) :
    afterInstall base credentials a e b r = r :=
  if_neg fun h => hne h.2.symm

/-! ### Tests -/

theorem calls_of_tests :
    ((standard server base credentials a).tests w).2.calls = w.calls ∨
      ∃ call, a.testCall? = some call ∧
        ((standard server base credentials a).tests w).2.calls = w.calls ++ [call] := by
  rw [(tests_of_lookup server base credentials a w).2.1]
  rcases lookup_cases credentials a (w.registry base) with hok | ⟨f, herror, -⟩
  · rw [hok]
    cases htest : a.testCall? with
    | none => exact Or.inl (List.append_nil w.calls)
    | some call => exact Or.inr ⟨call, rfl, rfl⟩
  · rw [herror]
    exact Or.inl (List.append_nil w.calls)

theorem tests_of_no_admin (hne : a ≠ .core) {f : Failure}
    (herror : (w.registry base).admin .accounts = .error f) :
    ((standard server base credentials a).tests w).1 = .error f ∧
      ((standard server base credentials a).tests w).2.calls = w.calls := by
  obtain ⟨hresult, hcalls, -⟩ := tests_of_lookup server base credentials a w
  rw [lookup_of_error hne herror] at hresult hcalls
  exact ⟨hresult, hcalls.trans (List.append_nil w.calls)⟩

/-- An install sends one call and fails for its answer alone; tests send at most one and write
nothing. -/
theorem hooks_of_standard (server : Server) (base : Base) (credentials : Credentials) (a : App)
    (w : World μ) :
    let c : Case μ := standard server base credentials a
    let result := (server w.calls (Call.install credentials a)).result
    let installed := c.install w
    let tested := c.tests w
    (installed.2.calls = w.calls ++ [Call.install credentials a] ∧
        (Call.install credentials a).app = a.name ∧
        (Call.install credentials a).action = "install") ∧
      (∀ f, installed.1 = .error f ↔
        result = .error f ∨
          ∃ e, result = .ok e ∧ e.ok = false ∧
            f = .unexpected a.name "install" e.code (e.message.getD "no message")) ∧
      (∀ f, installed.1 = .error f → installed.2.registry = w.registry) ∧
      (installed.1 = .ok () →
        (a ≠ .accounts → installed.2.registry = w.registry) ∧
        (∀ b, b ≠ base → installed.2.registry b = w.registry b) ∧
        (a = .accounts → ∃ e admin, result = .ok e ∧ admin.username = credentials.username ∧
          (∀ id, admin.id = some id ↔
            ∃ data, e.appdata = some data ∧ data.member? "id" = some (.str id)) ∧
          ∀ other, (installed.2.registry base).record? other =
            if other = .accounts then
              some ⟨((w.registry base).id? .accounts).getD .accounts,
                (w.registry base).isInstalled .accounts, some admin⟩
            else (w.registry base).record? other)) ∧
      tested.2.registry = w.registry ∧
      (tested.2.calls = w.calls ∨
        ∃ call, a.testCall? = some call ∧ tested.2.calls = w.calls ++ [call]) ∧
      (a ≠ .core → ∀ f, (w.registry base).admin .accounts = .error f →
        tested.1 = .error f ∧ tested.2.calls = w.calls) := by
  intro c result installed tested
  obtain ⟨hverdict, hcalls⟩ := install_standard server base credentials a w
  refine ⟨⟨hcalls, rfl, rfl⟩, fun f => ?_,
    fun f => registry_of_install_error server base credentials a w, fun hok => ?_,
    (tests_of_lookup server base credentials a w).2.2, calls_of_tests server base credentials a w,
    fun hne f => tests_of_no_admin server base credentials a w hne⟩
  · rw [show installed.1 = _ from hverdict]
    exact Answered.verdict_eq_error_iff (Call.app_install_ne credentials a)
  · obtain ⟨e, hresult, hregistry⟩ := registry_of_install_ok server base credentials a w hok
    refine ⟨fun hne => ?_, fun b hne => ?_, ?_⟩
    · funext b
      exact (hregistry b).trans (afterInstall_of_ne base credentials a hne e b _)
    · exact (hregistry b).trans (afterInstall_of_base_ne base credentials a hne e _)
    · rintro rfl
      refine ⟨e, confirmed credentials e.appdata, hresult, rfl,
        Placed.id_confirmed credentials e.appdata, fun other => ?_⟩
      have hbase := hregistry base
      rw [afterInstall, if_pos ⟨rfl, rfl⟩] at hbase
      rw [show installed.2.registry base = _ from hbase, Registry.record?_registerAdmin]

end Case

end Shakedown
