import Shakedown.Failure
import Shakedown.Text.Quoted

/-!
The registry: what a run knows about each app.

An app is registered at most once and never unregistered. Every operation names one app and
leaves what is recorded about the others alone.
-/

namespace Shakedown

/-- The administrator that a server created, as far as a run got to know it. -/
structure Admin where
  id : Option String
  username : String
  deriving DecidableEq, Inhabited

def Admin.debug (a : Admin) : String :=
  let id := match a.id with
    | none => "None"
    | some id => "Some(" ++ Text.quote id ++ ")"
  "AdminAccount \x7b id: " ++ id ++ ", username: " ++ Text.quote a.username ++ " \x7d"

/-- What is known about one app, which `id` names. -/
structure Record where
  id : App
  installed : Bool := false
  admin : Option Admin := none
  deriving DecidableEq, Inhabited

structure Registry where
  record? : App → Option Record

namespace Registry

def empty : Registry := ⟨fun _ => none⟩

instance : Inhabited Registry := ⟨empty⟩

def contains (r : Registry) (a : App) : Bool :=
  (r.record? a).isSome

def set (r : Registry) (a : App) (e : Record) : Registry :=
  ⟨fun b => if b = a then some e else r.record? b⟩

/-- Registers an app; what is known about a registered one stays. -/
def register (r : Registry) (a : App) : Registry :=
  match r.record? a with
  | some _ => r
  | none => r.set a { id := a }

def ofApps (apps : List App) : Registry :=
  apps.foldl register empty

/-- Registers an app if needed and makes `admin` its administrator. -/
def registerAdmin (r : Registry) (a : App) (admin : Admin) : Registry :=
  r.set a { (r.record? a).getD { id := a } with admin := some admin }

def get (r : Registry) (a : App) : Except Failure Record :=
  match r.record? a with
  | some e => .ok e
  | none => .error (.appNotFound a.name)

def markInstalled (r : Registry) (a : App) : Except Failure Registry :=
  (r.get a).map fun e => r.set a { e with installed := true }

def setAdmin (r : Registry) (a : App) (admin : Admin) : Except Failure Registry :=
  (r.get a).map fun e => r.set a { e with admin := some admin }

def admin (r : Registry) (a : App) : Except Failure Admin :=
  match r.get a with
  | .error f => .error f
  | .ok e =>
    match e.admin with
    | some admin => .ok admin
    | none => .error (.adminNotSet a.name)

/-- The records of the registered apps, in install order. -/
def toList (r : Registry) : List Record :=
  App.all.filterMap r.record?

@[ext]
theorem ext {r s : Registry} (h : ∀ a, r.record? a = s.record? a) : r = s := by
  cases r
  cases s
  congr
  exact funext h

@[simp]
theorem record?_set (r : Registry) (a b : App) (e : Record) :
    (r.set a e).record? b = if b = a then some e else r.record? b := rfl

theorem record?_register (r : Registry) (a b : App) :
    (r.register a).record? b =
      if b = a then some ((r.record? a).getD { id := a }) else r.record? b := by
  unfold register
  split
  · rename_i e h
    split
    · rename_i hb
      simp [hb, h]
    · rfl
  · rename_i h
    simp [h]

@[simp]
theorem admin_registerAdmin (r : Registry) (a : App) (admin : Admin) :
    (r.registerAdmin a admin).admin a = .ok admin := by
  simp [Registry.admin, get, registerAdmin]

theorem markInstalled_eq_ok_iff {r s : Registry} {a : App} :
    r.markInstalled a = .ok s ↔
      ∃ e, r.record? a = some e ∧ s = r.set a { e with installed := true } := by
  unfold markInstalled get
  cases r.record? a <;> simp [Except.map, eq_comm]

theorem admin_of_markInstalled {r s : Registry} {a : App} (h : r.markInstalled a = .ok s)
    (b : App) : s.admin b = r.admin b := by
  obtain ⟨e, he, rfl⟩ := markInstalled_eq_ok_iff.mp h
  unfold admin get
  by_cases hb : b = a
  · subst hb
    simp [he]
  · simp [hb]

end Registry

end Shakedown
