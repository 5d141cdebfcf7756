import Shakedown.Registry

/-!
# What a registry says about an app

The id of its record if it is registered, whether it is installed, and who its administrator is:
registries that say the same about every app are equal, and each operation changes one of the three.
The id is that of the app itself, which every operation keeps.
-/

namespace Shakedown.Registry

/-- The id in the record of an app. -/
def id? (r : Registry) (a : App) : Option App :=
  (r.record? a).map Record.id

/-- Every record has the id of the app that it is stored under. -/
def Keyed (r : Registry) : Prop :=
  ∀ a e, r.record? a = some e → e.id = a

def isInstalled (r : Registry) (a : App) : Bool :=
  ((r.record? a).map Record.installed).getD false

def admin? (r : Registry) (a : App) : Option Admin :=
  (r.record? a).bind Record.admin

/-- The registry with an app marked as installed, which has no effect if it is not registered. -/
def marked (r : Registry) (a : App) : Registry :=
  match r.record? a with
  | some e => r.set a { e with installed := true }
  | none => r

theorem ext_fields {r s : Registry} (hid : ∀ a, r.id? a = s.id? a)
    (hinstalled : ∀ a, r.isInstalled a = s.isInstalled a)
    (hadmin : ∀ a, r.admin? a = s.admin? a) : r = s := by
  ext a : 1
  have hid := hid a
  have hinstalled := hinstalled a
  have hadmin := hadmin a
  unfold id? at hid
  unfold isInstalled at hinstalled
  unfold admin? at hadmin
  cases hr : r.record? a with
  | none =>
    cases hs : s.record? a with
    | none => rfl
    | some e => simp [hr, hs] at hid
  | some e =>
    cases hs : s.record? a with
    | none => simp [hr, hs] at hid
    | some e' =>
      obtain ⟨id, installed, admin⟩ := e
      obtain ⟨id', installed', admin'⟩ := e'
      simp only [hr, hs, Option.map_some, Option.getD_some, Option.bind_some,
        Option.some.injEq] at hid hinstalled hadmin
      rw [hid, hinstalled, hadmin]

section Operations

variable (r : Registry) (a b : App)

@[simp]
theorem contains_register : (r.register b).contains a = (r.contains a || decide (a = b)) := by
  unfold contains
  rw [record?_register]
  by_cases hab : a = b <;> simp [hab]

@[simp]
theorem isInstalled_register : (r.register b).isInstalled a = r.isInstalled a := by
  unfold isInstalled
  rw [record?_register]
  by_cases hab : a = b
  · subst hab
    cases r.record? a <;> simp
  · simp [hab]

@[simp]
theorem admin?_register : (r.register b).admin? a = r.admin? a := by
  unfold admin?
  rw [record?_register]
  by_cases hab : a = b
  · subst hab
    cases r.record? a <;> simp
  · simp [hab]

@[simp]
theorem contains_registerAdmin (admin : Admin) :
    (r.registerAdmin b admin).contains a = (r.contains a || decide (a = b)) := by
  unfold contains registerAdmin
  by_cases hab : a = b <;> simp [hab]

@[simp]
theorem isInstalled_registerAdmin (admin : Admin) :
    (r.registerAdmin b admin).isInstalled a = r.isInstalled a := by
  unfold isInstalled registerAdmin
  by_cases hab : a = b
  · subst hab
    cases r.record? a <;> simp
  · simp [hab]

@[simp]
theorem admin?_registerAdmin (admin : Admin) :
    (r.registerAdmin b admin).admin? a = if a = b then some admin else r.admin? a := by
  unfold admin? registerAdmin
  by_cases hab : a = b <;> simp [hab]

@[simp]
theorem contains_marked : (r.marked b).contains a = r.contains a := by
  unfold contains marked
  cases hb : r.record? b with
  | none => rfl
  | some e => by_cases hab : a = b <;> simp [hab, hb]

@[simp]
theorem isInstalled_marked :
    (r.marked b).isInstalled a = (r.isInstalled a || (r.contains b && decide (b = a))) := by
  unfold isInstalled contains marked
  cases hb : r.record? b with
  | none => simp
  | some e =>
    by_cases hab : a = b
    · simp [hab]
    · simp [hab, Ne.symm hab]

@[simp]
theorem admin?_marked : (r.marked b).admin? a = r.admin? a := by
  unfold admin? marked
  cases hb : r.record? b with
  | none => rfl
  | some e => by_cases hab : a = b <;> simp [hab, hb]

end Operations

section RegisterAll

variable (apps : List App) (r : Registry) (a : App)

theorem contains_foldl_register :
    (apps.foldl register r).contains a = (r.contains a || decide (a ∈ apps)) := by
  induction apps generalizing r with
  | nil => simp
  | cons b rest ih =>
    rw [List.foldl_cons, ih, contains_register]
    simp [Bool.or_assoc]

theorem isInstalled_foldl_register :
    (apps.foldl register r).isInstalled a = r.isInstalled a := by
  induction apps generalizing r with
  | nil => rfl
  | cons b rest ih => rw [List.foldl_cons, ih, isInstalled_register]

theorem admin?_foldl_register : (apps.foldl register r).admin? a = r.admin? a := by
  induction apps generalizing r with
  | nil => rfl
  | cons b rest ih => rw [List.foldl_cons, ih, admin?_register]

end RegisterAll

/-! ### Ids -/

/-- Records keep their ids, and a new one has the id of its app. -/
def KeepsIds (r s : Registry) : Prop :=
  ∀ a, s.id? a = r.id? a ∨ r.id? a = none ∧ s.id? a = some a

section Ids

variable {r s t : Registry}

theorem isSome_id? (r : Registry) (a : App) : (r.id? a).isSome = r.contains a :=
  Option.isSome_map

theorem KeepsIds.refl (r : Registry) : r.KeepsIds r :=
  fun _ => Or.inl rfl

theorem KeepsIds.trans (hrs : r.KeepsIds s) (hst : s.KeepsIds t) : r.KeepsIds t := by
  intro a
  rcases hst a with ht | ⟨hs, ht⟩
  · rw [ht]
    exact hrs a
  · rcases hrs a with hr | ⟨-, hr⟩
    · exact Or.inr ⟨hr.symm.trans hs, ht⟩
    · rw [hs] at hr
      cases hr

theorem KeepsIds.id?_eq (hkeeps : r.KeepsIds s) {a : App}
    (hcontains : s.contains a = r.contains a) : s.id? a = r.id? a := by
  rcases hkeeps a with hkept | ⟨hr, hs⟩
  · exact hkept
  · rw [← isSome_id?, ← isSome_id?, hr, hs] at hcontains
    cases hcontains

/-- Storing an app under the id that it has, or else under its own, keeps the ids. -/
theorem keepsIds_set (r : Registry) (a : App) {e : Record} (he : e.id = (r.id? a).getD a) :
    r.KeepsIds (r.set a e) := by
  intro b
  unfold id? at he ⊢
  by_cases hb : b = a
  · subst hb
    cases hrecord : r.record? b <;> simp_all
  · simp [hb]

theorem keepsIds_register (r : Registry) (a : App) : r.KeepsIds (r.register a) := by
  unfold register
  cases hrecord : r.record? a with
  | some e => exact KeepsIds.refl r
  | none => exact keepsIds_set r a (by simp [id?, hrecord])

theorem keepsIds_registerAdmin (r : Registry) (a : App) (admin : Admin) :
    r.KeepsIds (r.registerAdmin a admin) := by
  refine keepsIds_set r a ?_
  unfold id?
  cases r.record? a <;> rfl

theorem keepsIds_marked (r : Registry) (a : App) : r.KeepsIds (r.marked a) := by
  unfold marked
  cases hrecord : r.record? a with
  | some e => exact keepsIds_set r a (by simp [id?, hrecord])
  | none => exact KeepsIds.refl r

theorem keepsIds_foldl_register (r : Registry) (apps : List App) :
    r.KeepsIds (apps.foldl register r) := by
  induction apps generalizing r with
  | nil => exact KeepsIds.refl r
  | cons a rest ih => exact (keepsIds_register r a).trans (ih _)

theorem keyed_iff : r.Keyed ↔ empty.KeepsIds r := by
  refine forall_congr' fun a => ?_
  unfold id? empty
  cases r.record? a <;> simp

theorem Keyed.of_keepsIds (hkeyed : r.Keyed) (hkeeps : r.KeepsIds s) : s.Keyed :=
  keyed_iff.mpr ((keyed_iff.mp hkeyed).trans hkeeps)

theorem keyed_ofApps (apps : List App) : (ofApps apps).Keyed :=
  keyed_iff.mpr (keepsIds_foldl_register empty apps)

theorem Keyed.id?_eq (hkeyed : r.Keyed) (a : App) :
    r.id? a = if r.contains a then some a else none := by
  unfold id? contains
  cases hrecord : r.record? a with
  | none => rfl
  | some e => exact congrArg some (hkeyed a e hrecord)

end Ids

/-- Which apps are registered together matters, and neither their order nor their number does. -/
theorem ofApps_congr {apps apps' : List App} (hsame : ∀ a, a ∈ apps' ↔ a ∈ apps) :
    ofApps apps' = ofApps apps := by
  have hcontains (a : App) : (ofApps apps').contains a = (ofApps apps).contains a := by
    unfold ofApps
    rw [contains_foldl_register, contains_foldl_register]
    simp [hsame a]
  apply ext_fields
  · intro a
    rw [(keyed_ofApps apps').id?_eq, (keyed_ofApps apps).id?_eq, hcontains]
  · intro a
    unfold ofApps
    rw [isInstalled_foldl_register, isInstalled_foldl_register]
  · intro a
    unfold ofApps
    rw [admin?_foldl_register, admin?_foldl_register]

end Shakedown.Registry
