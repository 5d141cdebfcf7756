import Shakedown.Proofs.Registry.Fields
import Shakedown.Proofs.Result

/-!
# What a registry tells of its history

A registry is filled by operations, some of which fail. Whatever they were, the registry tells what
happened: an app is registered if it was to begin with or if an operation saw to it, it is installed
if it was marked as such, and its administrator is the one that was assigned last. Each operation
rewrites the record of one app at most, so this is shown for a single operation and carries over to
any number of them.
-/

namespace Shakedown.Registry

/-! ### Operations -/

inductive Operation where
  | register (a : App)
  /-- Registers an app and assigns the administrator of the record that is returned. -/
  | registerAdmin (a : App) (admin : Admin)
  | markInstalled (a : App)
  | setAdmin (a : App) (admin : Admin)
  | get (a : App)
  | admin (a : App)
  | contains (a : App)
  deriving DecidableEq

/-- What an operation yields. -/
inductive Yield where
  | done
  | found (registered : Bool)
  | record (e : Record)
  | admin (admin : Admin)
  deriving DecidableEq

/-- An operation with what came of it. -/
abbrev Event := Operation × Except Failure Yield

/-- A registry after an attempt to change it. -/
def settled (r : Registry) : Except Failure Registry → Except Failure Yield × Registry
  | .ok s => (.ok .done, s)
  | .error f => (.error f, r)

def perform (r : Registry) : Operation → Except Failure Yield × Registry
  | .register a => (((r.register a).get a).map .record, r.register a)
  | .registerAdmin a admin => (.ok .done, r.registerAdmin a admin)
  | .markInstalled a => r.settled (r.markInstalled a)
  | .setAdmin a admin => r.settled (r.setAdmin a admin)
  | .get a => ((r.get a).map .record, r)
  | .admin a => ((r.admin a).map .admin, r)
  | .contains a => (.ok (.found (r.contains a)), r)

def afterAll (r : Registry) (ops : List Operation) : Registry :=
  ops.foldl (fun r op => (r.perform op).2) r

/-- Operations one after the other, each with what came of it. -/
def history : Registry → List Operation → List Event
  | _, [] => []
  | r, op :: rest => (op, (r.perform op).1) :: history (r.perform op).2 rest

namespace Operation

def app : Operation → App
  | register a | registerAdmin a _ | markInstalled a | setAdmin a _ | get a | admin a
  | contains a => a

/-- The record of the app that an operation names, as the operation leaves it. -/
def rewrite : Operation → Option Record → Option Record
  | register a, e? => some (e?.getD { id := a })
  | registerAdmin a account, e? => some { e?.getD { id := a } with admin := some account }
  | markInstalled _, e? => e?.map fun e => { e with installed := true }
  | setAdmin _ account, e? => e?.map fun e => { e with admin := some account }
  | get _, e? | admin _, e? | contains _, e? => e?

def Registers (a : App) : Operation → Prop
  | register b | registerAdmin b _ => b = a
  | markInstalled _ | setAdmin .. | get _ | admin _ | contains _ => False

end Operation

namespace Event

def Installs (a : App) : Event → Prop
  | (.markInstalled b, .ok _) => b = a
  | _ => False

/-- The administrator that an event assigned to an app. -/
def assigned? (a : App) : Event → Option Admin
  | (.registerAdmin b admin, .ok _) | (.setAdmin b admin, .ok _) =>
    if b = a then some admin else none
  | _ => none

end Event

/-- The administrators that were assigned to an app, in this order. -/
def assigned (a : App) (events : List Event) : List Admin :=
  events.filterMap (Event.assigned? a)

/-- An app is among those that a registry began with, or an operation has registered it. -/
def Registered (apps : List App) (events : List Event) (a : App) : Prop :=
  a ∈ apps ∨ ∃ e ∈ events, e.1.Registers a

/-- A registry that began with some apps tells what happened to it. -/
structure Tells (r : Registry) (apps : List App) (events : List Event) : Prop where
  contains_iff : ∀ a, r.contains a = true ↔ Registered apps events a
  isInstalled_iff : ∀ a, r.isInstalled a = true ↔ ∃ e ∈ events, e.Installs a
  admin?_eq : ∀ a, r.admin? a = (assigned a events).getLast?

/-- What a registry says of an app is never taken back. -/
structure Grows (r s : Registry) : Prop where
  contains : ∀ a, r.contains a = true → s.contains a = true
  isInstalled : ∀ a, r.isInstalled a = true → s.isInstalled a = true
  admin? : ∀ a, (r.admin? a).isSome → (s.admin? a).isSome

/-! ### One operation -/

section Perform

variable (r : Registry) (op : Operation) (a b : App)

/-- An operation rewrites the record of the app that it names and no other. -/
theorem record?_perform :
    (r.perform op).2.record? b =
      if b = op.app then op.rewrite (r.record? b) else r.record? b := by
  cases op with
  | register a =>
    by_cases hb : b = a <;> simp [perform, Operation.app, Operation.rewrite, record?_register, hb]
  | registerAdmin a admin =>
    by_cases hb : b = a <;> simp [perform, Operation.app, Operation.rewrite, registerAdmin, hb]
  | markInstalled a =>
    by_cases hb : b = a <;> cases hrecord : r.record? a <;>
      simp [perform, Operation.app, Operation.rewrite, markInstalled, Registry.get, settled,
        Except.map, hrecord, hb]
  | setAdmin a admin =>
    by_cases hb : b = a <;> cases hrecord : r.record? a <;>
      simp [perform, Operation.app, Operation.rewrite, setAdmin, Registry.get, settled, Except.map,
        hrecord, hb]
  | get a | admin a | contains a => simp [perform, Operation.rewrite]

theorem get_cases :
    (∃ e, r.record? a = some e ∧ r.get a = .ok e ∧ r.contains a = true) ∨
      r.record? a = none ∧ r.get a = .error (.appNotFound a.name) ∧ r.contains a = false := by
  unfold Registry.get contains
  cases r.record? a with
  | none => exact Or.inr ⟨rfl, rfl, rfl⟩
  | some e => exact Or.inl ⟨e, rfl, rfl, rfl⟩

theorem perform_markInstalled :
    r.perform (.markInstalled a) = ((r.get a).map fun _ => .done, r.marked a) := by
  rw [perform, markInstalled, marked]
  rcases get_cases r a with ⟨e, hrecord, hget, -⟩ | ⟨hrecord, hget, -⟩ <;>
    rw [hrecord, hget] <;> rfl

/-- Where the app is registered, assigning its administrator is the same with and without
registering it first. -/
theorem perform_setAdmin (account : Admin) :
    r.perform (.setAdmin a account) =
      ((r.get a).map fun _ => .done,
        if r.contains a then r.registerAdmin a account else r) := by
  rw [perform, setAdmin, registerAdmin]
  rcases get_cases r a with ⟨e, hrecord, hget, hcontains⟩ | ⟨hrecord, hget, hcontains⟩ <;>
    rw [hrecord, hget, hcontains] <;> rfl

theorem contains_perform :
    (r.perform op).2.contains a = true ↔ r.contains a = true ∨ op.Registers a := by
  cases op with
  | register b | registerAdmin b account => simp [perform, Operation.Registers, @eq_comm _ a b]
  | markInstalled b => simp [perform_markInstalled, Operation.Registers]
  | setAdmin b account =>
    rw [perform_setAdmin]
    by_cases hb : r.contains b = true
    · have hkept : a = b → r.contains a = true := fun h => h ▸ hb
      simpa [hb, Operation.Registers] using hkept
    · simp [hb, Operation.Registers]
  | get b | admin b | contains b => simp [perform, Operation.Registers]

theorem isInstalled_perform :
    (r.perform op).2.isInstalled a = true ↔
      r.isInstalled a = true ∨ Event.Installs a (op, (r.perform op).1) := by
  cases op with
  | register b | registerAdmin b account => simp [perform, Event.Installs]
  | markInstalled b =>
    rw [perform_markInstalled]
    rcases get_cases r b with ⟨e, -, hget, hcontains⟩ | ⟨-, hget, hcontains⟩ <;>
      simp [hget, hcontains, Except.map, Event.Installs]
  | setAdmin b account =>
    rw [perform_setAdmin]
    by_cases hb : r.contains b = true <;> simp [hb, Event.Installs]
  | get b | admin b | contains b => simp [perform, Event.Installs]

theorem admin?_perform :
    (r.perform op).2.admin? a =
      (Event.assigned? a (op, (r.perform op).1)).or (r.admin? a) := by
  cases op with
  | register b => simp [perform, Event.assigned?]
  | registerAdmin b account =>
    by_cases hab : a = b
    · simp [perform, Event.assigned?, hab]
    · simp [perform, Event.assigned?, hab, Ne.symm hab]
  | markInstalled b => simp [perform_markInstalled, Event.assigned?]
  | setAdmin b account =>
    rw [perform_setAdmin]
    rcases get_cases r b with ⟨e, -, hget, hcontains⟩ | ⟨-, hget, hcontains⟩
    · by_cases hab : a = b
      · simp [hget, hcontains, Except.map, Event.assigned?, hab]
      · simp [hget, hcontains, Except.map, Event.assigned?, hab, Ne.symm hab]
    · simp [hget, hcontains, Except.map, Event.assigned?]
  | get b | admin b | contains b => simp [perform, Event.assigned?]

theorem keepsIds_perform : r.KeepsIds (r.perform op).2 := by
  cases op with
  | register a => exact keepsIds_register r a
  | registerAdmin a account => exact keepsIds_registerAdmin r a account
  | markInstalled a =>
    rw [perform_markInstalled]
    exact keepsIds_marked r a
  | setAdmin a account =>
    rw [perform_setAdmin]
    dsimp only
    split
    · exact keepsIds_registerAdmin r a account
    · exact KeepsIds.refl r
  | get a | admin a | contains a => exact KeepsIds.refl r

theorem eq_of_error {f : Failure} (hfails : (r.perform op).1 = .error f) :
    (r.perform op).2 = r := by
  cases op with
  | register a =>
    rw [perform, Registry.get, record?_register, if_pos rfl] at hfails
    cases hfails
  | registerAdmin a account => cases hfails
  | markInstalled a =>
    rw [perform] at hfails ⊢
    cases hmarked : r.markInstalled a with
    | error g => rfl
    | ok s =>
      rw [hmarked] at hfails
      cases hfails
  | setAdmin a account =>
    rw [perform] at hfails ⊢
    cases hset : r.setAdmin a account with
    | error g => rfl
    | ok s =>
      rw [hset] at hfails
      cases hfails
  | get a | admin a | contains a => rfl

end Perform

/-! ### Any number of operations -/

theorem keepsIds_afterAll (r : Registry) (ops : List Operation) : r.KeepsIds (r.afterAll ops) := by
  induction ops generalizing r with
  | nil => exact KeepsIds.refl r
  | cons op rest ih => exact (keepsIds_perform r op).trans (ih _)

section Tells

variable {r : Registry} {apps : List App} {events : List Event}

theorem tells_ofApps (apps : List App) : (ofApps apps).Tells apps [] where
  contains_iff a := by
    rw [ofApps, contains_foldl_register]
    simp [empty, contains, Registered]
  isInstalled_iff a := by
    rw [ofApps, isInstalled_foldl_register]
    simp [empty, isInstalled]
  admin?_eq a := by
    rw [ofApps, admin?_foldl_register]
    rfl

theorem Tells.perform (htells : r.Tells apps events) (op : Operation) :
    (r.perform op).2.Tells apps (events ++ [(op, (r.perform op).1)]) where
  contains_iff a := by
    rw [contains_perform, htells.contains_iff]
    simp [Registered, or_and_right, exists_or, or_assoc]
  isInstalled_iff a := by
    rw [isInstalled_perform, htells.isInstalled_iff]
    simp [or_and_right, exists_or]
  admin?_eq a := by
    have hlast : (List.filterMap (Event.assigned? a) [(op, (r.perform op).1)]).getLast? =
        Event.assigned? a (op, (r.perform op).1) := by
      cases hassigned : Event.assigned? a (op, (r.perform op).1) <;> simp [hassigned]
    rw [admin?_perform, htells.admin?_eq, assigned, assigned, List.filterMap_append,
      List.getLast?_append, hlast]

theorem Tells.afterAll (htells : r.Tells apps events) (ops : List Operation) :
    (r.afterAll ops).Tells apps (events ++ r.history ops) := by
  induction ops generalizing r events with
  | nil =>
    rw [history, List.append_nil]
    exact htells
  | cons op rest ih =>
    have hrest := ih (htells.perform op)
    rw [List.append_assoc, List.singleton_append] at hrest
    exact hrest

end Tells

theorem Grows.refl (r : Registry) : r.Grows r :=
  ⟨fun _ => id, fun _ => id, fun _ => id⟩

theorem Grows.trans {r s t : Registry} (hrs : r.Grows s) (hst : s.Grows t) : r.Grows t :=
  ⟨fun a h => hst.contains a (hrs.contains a h),
    fun a h => hst.isInstalled a (hrs.isInstalled a h), fun a h => hst.admin? a (hrs.admin? a h)⟩

theorem grows_perform (r : Registry) (op : Operation) : r.Grows (r.perform op).2 where
  contains a h := (contains_perform r op a).mpr (Or.inl h)
  isInstalled a h := (isInstalled_perform r op a).mpr (Or.inl h)
  admin? a h := by
    rw [admin?_perform, Option.isSome_or, h, Bool.or_true]

theorem grows_afterAll (r : Registry) (ops : List Operation) : r.Grows (r.afterAll ops) := by
  induction ops generalizing r with
  | nil => exact Grows.refl r
  | cons op rest ih => exact (grows_perform r op).trans (ih _)

/-! ### What can be read off -/

section Readings

variable {r : Registry} {a : App} {f : Failure}

theorem Keyed.map_id_toList (hkeyed : r.Keyed) :
    r.toList.map Record.id = App.all.filter r.contains := by
  rw [toList, List.map_filterMap, ← List.filterMap_eq_filter]
  congr 1
  funext a
  rw [← id?, hkeyed.id?_eq a]
  rfl

theorem Keyed.pairwise_toList (hkeyed : r.Keyed) :
    (r.toList.map Record.id).Pairwise fun a b => a.rank < b.rank := by
  rw [hkeyed.map_id_toList]
  exact List.Pairwise.filter _ (by decide : App.all.Pairwise fun a b => a.rank < b.rank)

theorem Keyed.record?_eq_some_iff (hkeyed : r.Keyed) {e : Record} :
    r.record? a = some e ↔ e ∈ r.toList ∧ e.id = a := by
  rw [toList, List.mem_filterMap]
  constructor
  · intro hrecord
    exact ⟨⟨a, App.mem_all a, hrecord⟩, hkeyed a e hrecord⟩
  · rintro ⟨⟨b, -, hrecord⟩, rfl⟩
    rwa [hkeyed b e hrecord]

theorem get_eq_ok_iff {e : Record} : r.get a = .ok e ↔ r.record? a = some e := by
  unfold Registry.get
  cases r.record? a <;> simp

theorem get_eq_error_iff :
    r.get a = .error f ↔ ¬r.contains a = true ∧ f = .appNotFound a.name := by
  rcases get_cases r a with ⟨e, -, hget, hcontains⟩ | ⟨-, hget, hcontains⟩ <;>
    simp [hget, hcontains, eq_comm]

/-- A record that an operation yields is the one that it leaves. -/
theorem get_of_record (r : Registry) (op : Operation) {e : Record}
    (hrecord : (r.perform op).1 = .ok (.record e)) : (r.perform op).2.get op.app = .ok e := by
  cases op with
  | register a | get a =>
    obtain ⟨e', hget, he⟩ := map_eq_ok_iff.mp hrecord
    cases he
    exact hget
  | admin a =>
    obtain ⟨account, -, he⟩ := map_eq_ok_iff.mp hrecord
    cases he
  | markInstalled a =>
    rw [perform] at hrecord
    cases hmarked : r.markInstalled a <;> rw [hmarked] at hrecord <;> cases hrecord
  | setAdmin a account =>
    rw [perform] at hrecord
    cases hset : r.setAdmin a account <;> rw [hset] at hrecord <;> cases hrecord
  | registerAdmin a account | contains a => cases hrecord

theorem markInstalled_eq_error_iff : r.markInstalled a = .error f ↔ r.get a = .error f := by
  unfold markInstalled
  cases r.get a <;> simp [Except.map]

theorem setAdmin_eq_error_iff {account : Admin} :
    r.setAdmin a account = .error f ↔ r.get a = .error f := by
  unfold setAdmin
  cases r.get a <;> simp [Except.map]

theorem admin_eq_ok_iff {account : Admin} :
    r.admin a = .ok account ↔ r.admin? a = some account := by
  unfold admin admin? Registry.get
  cases r.record? a with
  | none => simp
  | some e => cases hadmin : e.admin <;> simp [hadmin]

theorem admin_eq_error_iff :
    r.admin a = .error f ↔ r.get a = .error f ∨
      r.contains a = true ∧ r.admin? a = none ∧ f = .adminNotSet a.name := by
  unfold admin admin? Registry.get contains
  cases r.record? a with
  | none => simp
  | some e => cases hadmin : e.admin <;> simp [hadmin, eq_comm]

theorem register_of_contains (hcontains : r.contains a = true) : r.register a = r := by
  obtain ⟨e, hrecord⟩ := Option.isSome_iff_exists.mp hcontains
  rw [register, hrecord]

end Readings

/-- After any operations a registry holds each registered app under its own id, in install order,
and what it says is what the operations say. -/
theorem registry_of_history (apps : List App) (ops : List Operation) :
    let r := (ofApps apps).afterAll ops
    let events := (ofApps apps).history ops
    ((r.toList.map Record.id).Pairwise fun a b => a.rank < b.rank) ∧
      (∀ a e, r.get a = .ok e ↔ e ∈ r.toList ∧ e.id = a) ∧
      (∀ a, r.contains a = true ↔ Registered apps events a) ∧
      (∀ a, r.isInstalled a = true ↔ ∃ e ∈ events, e.Installs a) ∧
      (∀ a account, r.admin a = .ok account ↔ (assigned a events).getLast? = some account) ∧
      (∀ a f, r.get a = .error f ↔ ¬Registered apps events a ∧ f = .appNotFound a.name) ∧
      (∀ a f, r.markInstalled a = .error f ↔
        ¬Registered apps events a ∧ f = .appNotFound a.name) ∧
      (∀ a account f, r.setAdmin a account = .error f ↔
        ¬Registered apps events a ∧ f = .appNotFound a.name) ∧
      (∀ a f, r.admin a = .error f ↔
        ¬Registered apps events a ∧ f = .appNotFound a.name ∨
          Registered apps events a ∧ assigned a events = [] ∧ f = .adminNotSet a.name) ∧
      (∀ op, (∀ b, b ≠ op.app → (r.perform op).2.record? b = r.record? b) ∧
        (r.perform op).2.record? op.app = op.rewrite (r.record? op.app) ∧
        (∀ e, (r.perform op).1 = .ok (.record e) →
          (r.perform op).2.get op.app = .ok e ∧ e.id = op.app) ∧
        ∀ f, (r.perform op).1 = .error f → (r.perform op).2 = r) ∧
      (∀ a, r.contains a = true → r.register a = r) ∧
      ∀ more, r.Grows (r.afterAll more) := by
  intro r events
  have htells : r.Tells apps events := (tells_ofApps apps).afterAll ops
  have hkeyed : r.Keyed := (keyed_ofApps apps).of_keepsIds (keepsIds_afterAll _ ops)
  have hget (a : App) (f : Failure) :
      r.get a = .error f ↔ ¬Registered apps events a ∧ f = .appNotFound a.name := by
    rw [get_eq_error_iff, htells.contains_iff]
  refine ⟨hkeyed.pairwise_toList, fun a e => get_eq_ok_iff.trans hkeyed.record?_eq_some_iff,
    htells.contains_iff,
    htells.isInstalled_iff, ?_, hget, fun a f => markInstalled_eq_error_iff.trans (hget a f),
    fun a account f => setAdmin_eq_error_iff.trans (hget a f), ?_, ?_,
    fun a => register_of_contains, grows_afterAll r⟩
  · intro a account
    rw [admin_eq_ok_iff, htells.admin?_eq]
  · intro a f
    rw [admin_eq_error_iff, hget, htells.contains_iff, htells.admin?_eq,
      List.getLast?_eq_none_iff]
  · intro op
    refine ⟨?_, ?_, fun e hrecord => ?_, fun f => eq_of_error r op⟩
    · intro b hb
      rw [record?_perform, if_neg hb]
    · rw [record?_perform, if_pos rfl]
    · have hstored := get_of_record r op hrecord
      exact ⟨hstored, hkeyed.of_keepsIds (keepsIds_perform r op) op.app e
        (get_eq_ok_iff.mp hstored)⟩

/-- An assignment that fails is none, and of two that succeed the second one counts. -/
example :
    let events := (ofApps [.files]).history
      [.setAdmin .accounts ⟨none, "first"⟩, .registerAdmin .accounts ⟨none, "second"⟩,
        .register .accounts, .setAdmin .accounts ⟨none, "third"⟩]
    assigned .accounts events = [⟨none, "second"⟩, ⟨none, "third"⟩] := by
  decide

end Shakedown.Registry
