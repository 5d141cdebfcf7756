import Shakedown.Proofs.Registry.Fields
import Shakedown.Proofs.Suite.Order

/-!
# The set of the apps

Of the apps that are asked for only the set matters, not in which order or how often they are named.
A suite that is put together by hand, with one standard case for each of them added in any order, is
the same suite as well.
-/

namespace Shakedown

variable {μ : Type}

theorem App.selected_congr {apps apps' : List App} (hsame : ∀ a, a ∈ apps' ↔ a ∈ apps) :
    selected apps' = selected apps := by
  unfold selected
  simp only [hsame]

namespace Suite

variable (server : Server) (credentials : Credentials)

theorem forApps_congr {apps apps' : List App} (hsame : ∀ a, a ∈ apps' ↔ a ∈ apps) :
    (forApps server apps' credentials : Suite μ) = forApps server apps credentials := by
  rw [forApps_eq, forApps_eq, App.selected_congr hsame]

/-- Standard cases of the same apps that stand in install order are the same list of cases. -/
theorem standard_eq_of_perm {cases : List (Case μ)} {apps : List App}
    (hperm : cases.Perm (apps.map (Case.standard server .own credentials)))
    (hcases : cases.Pairwise fun c d => c.app.rank ≤ d.app.rank)
    (happs : apps.Pairwise fun a b => a.rank ≤ b.rank) :
    cases = apps.map (Case.standard server .own credentials) := by
  have hsorted : (apps.map (Case.standard server .own credentials : App → Case μ)).Pairwise
      fun c d => c.app.rank ≤ d.app.rank :=
    Case.pairwise_standard server .own credentials happs
  refine List.Perm.eq_of_pairwise ?_ hcases hsorted hperm
  intro c d hc hd hcd hdc
  obtain ⟨a, -, rfl⟩ := List.mem_map.mp (hperm.mem_iff.mp hc)
  obtain ⟨b, -, rfl⟩ := List.mem_map.mp hd
  rw [Case.app_standard, Case.app_standard] at hcd hdc
  rw [App.rank_injective (Nat.le_antisymm hcd hdc)]

theorem addAll_standard {apps order : List App} (hdistinct : order.Nodup)
    (horder : ∀ a, a ∈ order ↔ a ∈ apps) :
    (empty.addAll (order.map (Case.standard server .own credentials)) : Suite μ) =
      forApps server apps credentials := by
  have hperm : (empty.addAll (order.map (Case.standard server .own credentials)) :
      Suite μ).cases.Perm ((App.selected apps).map (Case.standard server .own credentials)) :=
    (cases_addAll_perm empty _).trans ((App.perm_selected hdistinct horder).map _)
  have hsorted := pairwise_cases_addAll (s := (empty : Suite μ))
    (order.map (Case.standard server .own credentials)) List.Pairwise.nil
  rw [forApps_eq]
  exact congrArg Suite.mk
    (standard_eq_of_perm server credentials hperm hsorted (App.selected_sorted apps))

/-- Of the apps of a suite only the set matters, and neither does the order in which cases are
added. -/
theorem run_of_same_apps (apps apps' order : List App) (w : World μ)
    (hsame : ∀ a, a ∈ apps' ↔ a ∈ apps) (hdistinct : order.Nodup)
    (horder : ∀ a, a ∈ order ↔ a ∈ apps) :
    let s : Suite μ := forApps server apps credentials
    let s' : Suite μ := forApps server apps' credentials
    let added : Suite μ := empty.addAll (order.map (Case.standard server .own credentials))
    let on (apps : List App) : World μ := { w with own := Registry.ofApps apps }
    s'.caseNames = s.caseNames ∧ added.caseNames = s.caseNames ∧
      s'.run (on apps') = s.run (on apps) ∧ added.run (on apps) = s.run (on apps) ∧
      added.run (on apps') = s.run (on apps) := by
  intro s s' added on
  have hs : s' = s := forApps_congr server credentials hsame
  have hadded : added = s := addAll_standard server credentials hdistinct horder
  have hon : on apps' = on apps := by
    change ({ w with own := Registry.ofApps apps' } : World μ) = _
    rw [Registry.ofApps_congr hsame]
  rw [hs, hadded, hon]
  exact ⟨rfl, rfl, rfl, rfl, rfl⟩

theorem run_of_same_apps_reordered :
    let server : Server := fun _ _ => { result := .ok (.success .null) }
    let credentials : Credentials := ⟨"admin", "secret"⟩
    let apps : List App := [.files, .core, .accounts, .files]
    let apps' : List App := [.core, .accounts, .files, .core]
    let order : List App := [.accounts, .files, .core]
    let w : World Unit := World.start Registry.empty ()
    let s : Suite Unit := forApps server apps credentials
    let added : Suite Unit := empty.addAll (order.map (Case.standard server .own credentials))
    (∀ a, a ∈ apps' ↔ a ∈ apps) ∧ order.Nodup ∧ (∀ a, a ∈ order ↔ a ∈ apps) ∧
      added.run { w with own := Registry.ofApps apps' } =
        s.run { w with own := Registry.ofApps apps } := by
  intro server credentials apps apps' order w s added
  have hsame : ∀ a, a ∈ apps' ↔ a ∈ apps := by
    intro a
    cases a <;> decide
  have hdistinct : order.Nodup := by decide
  have horder : ∀ a, a ∈ order ↔ a ∈ apps := by
    intro a
    cases a <;> decide
  obtain ⟨-, -, -, -, hadded⟩ :=
    run_of_same_apps server credentials apps apps' order w hsame hdistinct horder
  exact ⟨hsame, hdistinct, horder, hadded⟩

end Suite

end Shakedown
