import Shakedown.Settings.Validate

/-!
# Which settings are accepted

Settings are accepted when each of the rules passes them. Accepted settings lead to a transport, and
their apps can be run: there is some app, and with each app everything that it needs.
-/

namespace Shakedown

/-- Two checks, one after the other, pass what both of them pass. -/
theorem checks_eq_ok_iff {first second : Except Failure Unit} :
    (first >>= fun _ => second) = .ok () ↔ first = .ok () ∧ second = .ok () := by
  cases first with
  | error f => exact ⟨nofun, nofun⟩
  | ok u => exact ⟨fun hsecond => ⟨rfl, hsecond⟩, And.right⟩

theorem eq_ok_of_toOption {ε α : Type} {x : Except ε α} {a : α} (h : x.toOption = some a) :
    x = .ok a := by
  cases x with
  | error e => exact nomatch h
  | ok b => exact congrArg Except.ok (Option.some.inj h)

namespace Settings

variable {env : Environment} {s : Settings}

theorem validate_eq_ok_iff :
    s.validate env = .ok () ↔
      s.validateInterface = .ok () ∧ s.validateTimeout = .ok () ∧
        checkNotBlank "accounts.admin_username" s.accounts.username = .ok () ∧
        s.validatePassword env = .ok () ∧ s.validateApps = .ok () := by
  rw [validate, checks_eq_ok_iff, checks_eq_ok_iff, checks_eq_ok_iff, checks_eq_ok_iff]

theorem lacking?_eq_none_iff {apps : List App} {a : App} :
    lacking? apps a = none ↔ ∀ b ∈ a.needs, b ∈ apps := by
  rw [lacking?, Option.map_eq_none_iff, List.find?_eq_none]
  simp

theorem validateApps_eq_ok_iff :
    s.validateApps = .ok () ↔ s.apps ≠ [] ∧ ∀ a ∈ s.apps, ∀ b ∈ a.needs, b ∈ s.apps := by
  have hlacking : s.apps.findSome? (lacking? s.apps) = none ↔
      ∀ a ∈ s.apps, ∀ b ∈ a.needs, b ∈ s.apps := by
    rw [List.findSome?_eq_none_iff]
    exact forall₂_congr fun a _ => lacking?_eq_none_iff
  rw [← hlacking, validateApps]
  by_cases hempty : s.apps.isEmpty = true
  · rw [if_pos hempty]
    exact ⟨nofun, fun h => absurd (List.isEmpty_iff.mp hempty) h.1⟩
  · rw [if_neg hempty, and_iff_right (fun h => hempty (List.isEmpty_iff.mpr h))]
    cases s.apps.findSome? (lacking? s.apps) with
    | none => exact ⟨fun _ => rfl, fun _ => rfl⟩
    | some lack => exact ⟨nofun, nofun⟩

/-- The setting that a transport needs is one that its check looks at. -/
theorem exists_transport (hinterface : s.validateInterface = .ok ()) :
    ∃ transport, s.transport = .ok transport := by
  unfold validateInterface at hinterface
  unfold transport
  cases hkind : s.interface.kind with
  | cli =>
    cases hroot : s.interface.serverRoot with
    | none =>
      rw [hkind, hroot] at hinterface
      exact nomatch hinterface
    | some root => exact ⟨_, rfl⟩
  | http =>
    cases hurl : s.interface.url with
    | none =>
      rw [hkind, hurl] at hinterface
      exact nomatch hinterface
    | some url => exact ⟨_, rfl⟩

end Settings

end Shakedown
