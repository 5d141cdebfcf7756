import Shakedown.Proofs.Run.Selection
import Shakedown.Proofs.Settings.Order

/-!
# Which lists of apps are accepted

The rules on the apps look at the list as it is written, and a run builds its cases from the apps on
it, in install order. The two fit together: a list is accepted just when these cases are an initial
part of all there are. So neither the order of a list nor a repetition decides whether it is
accepted, though the order decides which missing app is reported.
-/

namespace Shakedown

variable {μ : Type}

namespace App

/-- What an app needs installs before it, so it stands on every initial part that the app is on. -/
theorem mem_of_prefix_all {l : List App} (hinitial : l <+: all) {a b : App} (ha : a ∈ l)
    (hb : b ∈ a.needs) : b ∈ l := by
  obtain ⟨rest, hall⟩ := hinitial
  have hsorted : (l ++ rest).Pairwise fun a b => a.rank < b.rank := by
    rw [hall]
    decide
  have hmem : b ∈ l ++ rest := by
    rw [hall]
    exact mem_all b
  apply (List.mem_append.mp hmem).resolve_right
  intro hrest
  have hbefore := (List.pairwise_append.mp hsorted).2.2 a ha b hrest
  have hneed := rank_lt_of_mem_needs hb
  omega

theorem selected_prefix_all_iff {apps : List App} (hne : apps ≠ []) :
    selected apps <+: all ↔ ∀ a ∈ apps, ∀ b ∈ a.needs, b ∈ apps := by
  constructor
  · intro hinitial a ha b hb
    rw [← mem_selected] at ha ⊢
    exact mem_of_prefix_all hinitial ha hb
  · intro hclosed
    rcases selected_of_closed hne hclosed with h | h | h <;> rw [h] <;> decide

theorem selected_ne_nil {apps : List App} (hne : apps ≠ []) : selected apps ≠ [] := by
  obtain ⟨a, ha⟩ := List.exists_mem_of_ne_nil apps hne
  exact List.ne_nil_of_mem (mem_selected.mpr ha)

end App

namespace Settings

variable {env : Environment} {s : Settings}

/-- With settings that are accepted, another list of apps is all that is left to object to. -/
theorem validate_withApps (hvalid : s.validate env = .ok ()) (apps : List App) :
    ({ s with apps := apps } : Settings).validate env =
      ({ s with apps := apps } : Settings).validateApps := by
  obtain ⟨hinterface, htimeout, husername, hpassword, -⟩ := validate_eq_ok_iff.mp hvalid
  have hrest : ({ s with apps := apps } : Settings).validate env =
      (s.validateInterface >>= fun _ => s.validateTimeout >>= fun _ =>
        checkNotBlank "accounts.admin_username" s.accounts.username >>= fun _ =>
          s.validatePassword env >>= fun _ => ({ s with apps := apps } : Settings).validateApps) :=
    rfl
  rw [hrest, hinterface, htimeout, husername, hpassword]
  rfl

theorem validate_withApps_eq_ok_iff (hvalid : s.validate env = .ok ()) {apps : List App}
    (hne : apps ≠ []) :
    ({ s with apps := apps } : Settings).validate env = .ok () ↔
      ∀ a ∈ apps, ∀ b ∈ a.needs, b ∈ apps := by
  rw [validate_withApps hvalid, validateApps_eq_ok_iff]
  exact and_iff_right hne

theorem message_lacks (app need : App) :
    (Failure.invalidSetting "run.apps" app.name (.lacks app need)).message =
      "Invalid value '" ++ app.name ++ "' for run.apps: " ++
        (app.name ++ " requires " ++ need.name) := by
  cases app <;> cases need <;> decide

/-- A list of apps is accepted just when the apps of its cases are an initial part of all apps. -/
theorem apps_of_validate (env : Environment) (s : Settings) (server : Server) (base : Base)
    (apps : List App) (hvalid : s.validate env = .ok ()) (hne : apps ≠ []) :
    let selecting (apps : List App) : Settings := { s with apps := apps }
    let cases : List (Case μ) := Case.forApps server base apps s.accounts
    ((selecting apps).validate env = .ok () ↔
        cases.map Case.app ≠ [] ∧ cases.map Case.app <+: App.all) ∧
      (∀ f, (selecting apps).validate env = .error f →
        ∃ before app after met need more, apps = before ++ app :: after ∧
          (∀ a ∈ before, ∀ b ∈ a.needs, b ∈ apps) ∧
          app.needs = met ++ need :: more ∧ (∀ b ∈ met, b ∈ apps) ∧ need ∉ apps ∧
          f = .invalidSetting "run.apps" app.name (.lacks app need) ∧
          f.message = "Invalid value '" ++ app.name ++ "' for run.apps: " ++
            (app.name ++ " requires " ++ need.name)) ∧
      ∀ apps', (∀ a, a ∈ apps' ↔ a ∈ apps) →
        ((selecting apps').validate env = .ok () ↔ (selecting apps).validate env = .ok ()) := by
  intro selecting cases
  have hclosed := validate_withApps_eq_ok_iff hvalid hne
  refine ⟨?_, ?_, ?_⟩
  · have happs : cases.map Case.app = App.selected apps :=
      Case.map_app_forApps server base s.accounts apps
    rw [hclosed, happs, App.selected_prefix_all_iff hne, and_iff_right (App.selected_ne_nil hne)]
  · intro f herror
    rw [validate_withApps hvalid] at herror
    have hbroken : Breaks env (selecting apps) .someApp f ∨ Breaks env (selecting apps) .needs f :=
      validateApps_eq_error_iff.mp herror
    rcases hbroken with hbreaks | hbreaks
    · cases hbreaks with
      | noApps hnil => exact absurd hnil hne
    · cases hbreaks with
      | @lacks before after app need met more happs hbefore hneeds hmet hlacks =>
        exact ⟨before, app, after, met, need, more, happs, hbefore, hneeds, hmet, hlacks, rfl,
          message_lacks app need⟩
  · intro apps' hsame
    have hne' : apps' ≠ [] := by
      obtain ⟨a, ha⟩ := List.exists_mem_of_ne_nil apps hne
      exact List.ne_nil_of_mem ((hsame a).mpr ha)
    rw [hclosed, validate_withApps_eq_ok_iff hvalid hne']
    simp only [hsame]

/-- A list out of order and with a repetition is accepted, and so is any other of the same apps. On
one that lacks `core`, the first app that needs it is reported. -/
theorem apps_of_validate_out_of_order :
    let env : Environment := fun _ => none
    let s : Settings := ⟨{ kind := .cli, serverRoot := some "/srv" }, ⟨"admin", "secret"⟩, [.core]⟩
    let selecting (apps : List App) : Settings := { s with apps := apps }
    s.validate env = .ok () ∧
      (selecting [.files, .core, .accounts, .files]).validate env = .ok () ∧
      (selecting [.core, .files, .accounts]).validate env = .ok () ∧
      (selecting [.files, .accounts]).validate env ≠ .ok () ∧
      (selecting [.files, .accounts]).validate env =
        .error (.invalidSetting "run.apps" "files" (.lacks .files .core)) := by
  intro env s selecting
  let server : Server := fun _ _ => { result := .ok (.success .null) }
  have hvalid : s.validate env = .ok () := eq_ok_of_toOption (by decide +kernel)
  obtain ⟨haccepted, -, hsame⟩ := @apps_of_validate Unit env s server .own
    [.files, .core, .accounts, .files] hvalid (by decide)
  obtain ⟨hlacking, -, -⟩ := @apps_of_validate Unit env s server .own
    [.files, .accounts] hvalid (by decide)
  have hall : (selecting [.files, .core, .accounts, .files]).validate env = .ok () :=
    haccepted.mpr (by rw [Case.map_app_forApps]; decide)
  have hreordered : ∀ a, a ∈ [App.core, .files, .accounts] ↔
      a ∈ [App.files, .core, .accounts, .files] := by
    intro a
    cases a <;> decide
  refine ⟨hvalid, hall, (hsame _ hreordered).mpr hall, ?_, ?_⟩
  · rw [Ne, hlacking, Case.map_app_forApps]
    decide
  · rw [validate_withApps hvalid]
    rfl

end Settings

end Shakedown
