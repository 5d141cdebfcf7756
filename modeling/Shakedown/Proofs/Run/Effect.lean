import Shakedown.Proofs.Run.Placed

/-!
# What a run leaves in the registries

A run registers the apps of all its cases, marks those as installed whose install succeeded, and
keeps the administrator of the last install of `accounts` that succeeded. The first two happen in
its own registry wherever the case is placed, and the last in the registry of the case. Nothing else
is written, and nothing in an aborted run is taken back.
-/

namespace Shakedown

variable {μ : Type}

namespace Placed

/-- An attempted install has put `admin` on record: it has the name that was asked for, and the id
that the answer gives, if that is a text. -/
def Records (b : Base) (x : Placed × Answered) (admin : Admin) : Prop :=
  x.1.app = .accounts ∧ x.1.base = b ∧
    ∃ e, x.2.result = .ok e ∧ e.ok = true ∧ admin.username = x.1.credentials.username ∧
      ∀ id, admin.id = some id ↔
        ∃ data, e.appdata = some data ∧ data.member? "id" = some (.str id)

def recorded? (b : Base) (x : Placed × Answered) : Option Admin :=
  if x.1.app = .accounts ∧ x.1.base = b then
    x.2.success?.map fun e => Case.confirmed x.1.credentials e.appdata
  else none

theorem id_confirmed (credentials : Credentials) (appdata : Option Json) (id : String) :
    (Case.confirmed credentials appdata).id = some id ↔
      ∃ data, appdata = some data ∧ data.member? "id" = some (.str id) := by
  unfold Case.confirmed
  constructor
  · intro hid
    obtain ⟨j, hj, htext⟩ := Option.bind_eq_some_iff.mp hid
    obtain ⟨data, hdata, hmember⟩ := Option.bind_eq_some_iff.mp hj
    refine ⟨data, hdata, ?_⟩
    cases j with
    | str s =>
      obtain rfl : s = id := Option.some.inj htext
      exact hmember
    | _ => exact nomatch htext
  · rintro ⟨data, rfl, hmember⟩
    simp [hmember, Json.text?]

theorem recorded?_eq_some_iff {b : Base} {x : Placed × Answered} {admin : Admin} :
    recorded? b x = some admin ↔ Records b x admin := by
  unfold recorded? Records
  by_cases hplace : x.1.app = .accounts ∧ x.1.base = b
  · rw [if_pos hplace, ← and_assoc, and_iff_right hplace, Option.map_eq_some_iff]
    refine exists_congr fun e => ?_
    rw [Answered.success?_eq_some_iff, and_assoc]
    refine and_congr_right fun _ => and_congr_right fun _ => ?_
    constructor
    · rintro rfl
      exact ⟨rfl, id_confirmed x.1.credentials e.appdata⟩
    · rintro ⟨hname, hid⟩
      have hids : (Case.confirmed x.1.credentials e.appdata).id = admin.id := by
        apply Option.ext
        intro id
        rw [id_confirmed, hid]
      cases admin with
      | mk id username =>
        obtain rfl : username = _ := hname
        obtain rfl : _ = id := hids
        rfl
  · rw [if_neg hplace]
    exact ⟨nofun, fun h => absurd ⟨h.1, h.2.1⟩ hplace⟩

/-! ### One install -/

section Settle

variable (b : Base) (r : Registry) (x : Placed × Answered) (a : App)

theorem keepsIds_settle : r.KeepsIds (settle b r x) := by
  unfold settle Case.afterInstall
  cases x.2.success? with
  | none => exact Registry.KeepsIds.refl r
  | some e =>
    have hinstall : r.KeepsIds
        (if x.1.app = .accounts ∧ x.1.base = b then
          r.registerAdmin .accounts (Case.confirmed x.1.credentials e.appdata) else r) := by
      split
      · exact Registry.keepsIds_registerAdmin _ _ _
      · exact Registry.KeepsIds.refl r
    cases b with
    | own => exact hinstall.trans (Registry.keepsIds_marked _ _)
    | guest => exact hinstall

theorem contains_settle :
    (settle b r x).contains a =
      (r.contains a || (decide (a = .accounts) && (recorded? b x).isSome)) := by
  unfold settle recorded? Case.afterInstall
  cases x.2.success? with
  | none => simp
  | some e =>
    by_cases hplace : x.1.app = .accounts ∧ x.1.base = b
    · cases b <;> simp [hplace]
    · cases b <;> simp [hplace]

theorem admin?_settle :
    (settle b r x).admin? a =
      if a = .accounts then (recorded? b x).or (r.admin? a) else r.admin? a := by
  unfold settle recorded? Case.afterInstall
  cases x.2.success? with
  | none => simp
  | some e =>
    by_cases hplace : x.1.app = .accounts ∧ x.1.base = b
    · cases b <;> simp [hplace]
    · cases b <;> simp [hplace]

theorem isInstalled_settle_guest : (settle .guest r x).isInstalled a = r.isInstalled a := by
  unfold settle Case.afterInstall
  cases x.2.success? with
  | none => rfl
  | some e => by_cases hplace : x.1.app = .accounts ∧ x.1.base = .guest <;> simp [hplace]

theorem isInstalled_settle_own (hregistered : r.contains x.1.app = true) :
    (settle .own r x).isInstalled a =
      (r.isInstalled a || (x.2.success?.isSome && decide (x.1.app = a))) := by
  unfold settle Case.afterInstall
  cases x.2.success? with
  | none => simp
  | some e =>
    by_cases hplace : x.1.app = .accounts ∧ x.1.base = .own
    · have haccounts : r.contains .accounts = true := hplace.1 ▸ hregistered
      simp [hplace, haccounts]
    · simp [hplace, hregistered]

end Settle

/-! ### All installs -/

/-- The administrator that the last of the installs to record one has recorded. -/
def lastAdmin? (b : Base) (attempts : List (Placed × Answered)) : Option Admin :=
  attempts.reverse.findSome? (recorded? b)

theorem lastAdmin?_cons (b : Base) (x : Placed × Answered) (rest : List (Placed × Answered)) :
    lastAdmin? b (x :: rest) = (lastAdmin? b rest).or (recorded? b x) := by
  unfold lastAdmin?
  rw [List.reverse_cons, List.findSome?_append, List.findSome?_cons, List.findSome?_nil]
  cases recorded? b x <;> rfl

section Left

variable (attempts : List (Placed × Answered)) (registries : Base → Registry) (b : Base) (a : App)

theorem keepsIds_left : (registries b).KeepsIds (left attempts registries b) := by
  unfold left
  generalize registries b = r
  induction attempts generalizing r with
  | nil => exact Registry.KeepsIds.refl r
  | cons x rest ih => exact (keepsIds_settle b r x).trans (ih _)

theorem contains_left :
    (left attempts registries b).contains a =
      ((registries b).contains a ||
        (decide (a = .accounts) && attempts.any fun x => (recorded? b x).isSome)) := by
  unfold left
  generalize registries b = r
  induction attempts generalizing r with
  | nil => simp
  | cons x rest ih =>
    rw [List.foldl_cons, ih, contains_settle, List.any_cons, Bool.and_or_distrib_left,
      Bool.or_assoc]

theorem admin?_left :
    (left attempts registries b).admin? a =
      if a = .accounts then (lastAdmin? b attempts).or ((registries b).admin? a)
      else (registries b).admin? a := by
  unfold left
  generalize registries b = r
  induction attempts generalizing r with
  | nil => simp [lastAdmin?]
  | cons x rest ih =>
    rw [List.foldl_cons, ih, admin?_settle, lastAdmin?_cons]
    by_cases haccounts : a = .accounts
    · rw [if_pos haccounts, if_pos haccounts, if_pos haccounts, Option.or_assoc]
    · rw [if_neg haccounts, if_neg haccounts, if_neg haccounts]

theorem isInstalled_left_guest :
    (left attempts registries .guest).isInstalled a = (registries .guest).isInstalled a := by
  unfold left
  generalize registries .guest = r
  induction attempts generalizing r with
  | nil => rfl
  | cons x rest ih => rw [List.foldl_cons, ih, isInstalled_settle_guest]

theorem isInstalled_left_own
    (hregistered : ∀ x ∈ attempts, (registries .own).contains x.1.app = true) :
    (left attempts registries .own).isInstalled a =
      ((registries .own).isInstalled a ||
        attempts.any fun x => x.2.success?.isSome && decide (x.1.app = a)) := by
  unfold left
  revert hregistered
  generalize registries .own = r
  intro hregistered
  induction attempts generalizing r with
  | nil => simp
  | cons x rest ih =>
    have hkept : ∀ y ∈ rest, (settle .own r x).contains y.1.app = true := by
      intro y hy
      rw [contains_settle, hregistered y (List.mem_cons_of_mem x hy)]
      rfl
    have hx := isInstalled_settle_own r x a (hregistered x List.mem_cons_self)
    rw [List.foldl_cons, ih _ hkept, hx, List.any_cons, Bool.or_assoc]

end Left

theorem any_recorded_iff {b : Base} {attempts : List (Placed × Answered)} :
    (attempts.any fun x => (recorded? b x).isSome) = true ↔
      ∃ x ∈ attempts, ∃ admin, Records b x admin := by
  rw [List.any_eq_true]
  refine exists_congr fun x => and_congr_right fun _ => ?_
  rw [Option.isSome_iff_exists]
  exact exists_congr fun admin => recorded?_eq_some_iff

theorem any_installed_iff {a : App} {attempts : List (Placed × Answered)} :
    (attempts.any fun x => x.2.success?.isSome && decide (x.1.app = a)) = true ↔
      ∃ x ∈ attempts, x.1.app = a ∧ x.2.Succeeded := by
  rw [List.any_eq_true]
  refine exists_congr fun x => and_congr_right fun _ => ?_
  rw [Bool.and_eq_true, Answered.isSome_success?_iff, decide_eq_true_eq, and_comm]

theorem lastAdmin?_cases (b : Base) (attempts : List (Placed × Answered)) :
    (∃ earlier x later admin, attempts = earlier ++ x :: later ∧ Records b x admin ∧
        (∀ y ∈ later, ∀ other, ¬Records b y other) ∧ lastAdmin? b attempts = some admin) ∨
      (∀ x ∈ attempts, ∀ admin, ¬Records b x admin) ∧ lastAdmin? b attempts = none := by
  have hnone (x : Placed × Answered) (hx : recorded? b x = none) : ∀ admin, ¬Records b x admin := by
    intro admin hrecords
    rw [recorded?_eq_some_iff.mpr hrecords] at hx
    exact nomatch hx
  cases hlast : lastAdmin? b attempts with
  | none =>
    refine Or.inr ⟨?_, rfl⟩
    intro x hx
    exact hnone x (List.findSome?_eq_none_iff.mp hlast x (List.mem_reverse.mpr hx))
  | some admin =>
    obtain ⟨later, x, earlier, hsplit, hx, hlater⟩ := List.findSome?_eq_some_iff.mp hlast
    have hrecords := recorded?_eq_some_iff.mp hx
    refine Or.inl ⟨earlier.reverse, x, later.reverse, admin, ?_, hrecords, ?_, rfl⟩
    · rw [← List.reverse_reverse attempts, hsplit, List.reverse_append, List.reverse_cons,
        List.append_assoc, List.singleton_append]
    · intro y hy
      exact hnone y (hlater y (List.mem_reverse.mp hy))

end Placed

namespace Suite

section Registered

variable (placed : List Placed) (w : World μ)

theorem contains_registered_own (a : App) :
    (registered placed w .own).contains a = true ↔
      w.own.contains a = true ∨ ∃ p ∈ placed, p.app = a := by
  unfold registered
  rw [Registry.contains_foldl_register, Bool.or_eq_true, decide_eq_true_eq, List.mem_map]

theorem contains_registered_of_mem {p : Placed} (hp : p ∈ placed) :
    (registered placed w .own).contains p.app = true := by
  rw [contains_registered_own]
  exact Or.inr ⟨p, hp, rfl⟩

theorem keepsIds_registered (b : Base) : (w.registry b).KeepsIds (registered placed w b) := by
  cases b with
  | own => exact Registry.keepsIds_foldl_register _ _
  | guest => exact Registry.KeepsIds.refl w.guest

theorem isInstalled_registered (b : Base) (a : App) :
    (registered placed w b).isInstalled a = (w.registry b).isInstalled a := by
  cases b with
  | own => exact Registry.isInstalled_foldl_register ..
  | guest => rfl

theorem admin?_registered (b : Base) (a : App) :
    (registered placed w b).admin? a = (w.registry b).admin? a := by
  cases b with
  | own => exact Registry.admin?_foldl_register ..
  | guest => rfl

end Registered

section Effect

variable (servers : Base → Server) (placed : List Placed) (w : World μ)

theorem contains_own_of_run (a : App) :
    ((ofPlaced servers placed).run w).2.own.contains a = true ↔
      w.own.contains a = true ∨ ∃ p ∈ placed, p.app = a := by
  rw [← World.registry_own, (run_placed servers placed w).2.2, Placed.contains_left,
    Bool.or_eq_true, contains_registered_own, Bool.and_eq_true, decide_eq_true_eq]
  refine or_iff_left_of_imp ?_
  rintro ⟨rfl, hrecorded⟩
  obtain ⟨x, hx, admin, happ, -⟩ := Placed.any_recorded_iff.mp hrecorded
  exact Or.inr ⟨x.1, (Placed.mem_attempted hx).1, happ⟩

theorem isInstalled_own_of_run (a : App) :
    ((ofPlaced servers placed).run w).2.own.isInstalled a = true ↔
      w.own.isInstalled a = true ∨
        ∃ x ∈ Placed.attempted servers w.calls placed, x.1.app = a ∧ x.2.Succeeded := by
  have hregistered : ∀ x ∈ Placed.attempted servers w.calls placed,
      (registered placed w .own).contains x.1.app = true :=
    fun x hx => contains_registered_of_mem placed w (Placed.mem_attempted hx).1
  rw [← World.registry_own, (run_placed servers placed w).2.2,
    Placed.isInstalled_left_own _ _ _ hregistered, Bool.or_eq_true, isInstalled_registered,
    Placed.any_installed_iff, World.registry_own]

theorem contains_guest_of_run (a : App) :
    ((ofPlaced servers placed).run w).2.guest.contains a = true ↔
      w.guest.contains a = true ∨ a = .accounts ∧
        ∃ x ∈ Placed.attempted servers w.calls placed, ∃ admin, Placed.Records .guest x admin := by
  change (((ofPlaced servers placed).run w).2.registry .guest).contains a = true ↔ _
  rw [(run_placed servers placed w).2.2, Placed.contains_left, Bool.or_eq_true, Bool.and_eq_true,
    decide_eq_true_eq, Placed.any_recorded_iff]
  rfl

theorem isInstalled_guest_of_run (a : App) :
    ((ofPlaced servers placed).run w).2.guest.isInstalled a = w.guest.isInstalled a := by
  change (((ofPlaced servers placed).run w).2.registry .guest).isInstalled a = _
  rw [(run_placed servers placed w).2.2, Placed.isInstalled_left_guest]
  rfl

theorem admin?_of_run (b : Base) (a : App) :
    (((ofPlaced servers placed).run w).2.registry b).admin? a =
      if a = .accounts then
        (Placed.lastAdmin? b (Placed.attempted servers w.calls placed)).or
          ((w.registry b).admin? a)
      else (w.registry b).admin? a := by
  rw [(run_placed servers placed w).2.2, Placed.admin?_left, admin?_registered]

/-- Like its operations, a run leaves a registry with every app under its own id. -/
theorem keepsIds_of_run (b : Base) :
    (w.registry b).KeepsIds (((ofPlaced servers placed).run w).2.registry b) := by
  rw [(run_placed servers placed w).2.2]
  exact (keepsIds_registered placed w b).trans (Placed.keepsIds_left _ _ b)

end Effect

/-- A run registers the apps of its cases, marks those that are installed, and keeps the last
administrator. -/
theorem registries_of_run (servers : Base → Server) (placed : List Placed) (w : World μ) :
    let s : Suite μ := ofPlaced servers placed
    let attempts := Placed.attempted servers w.calls placed
    let after := (s.run w).2
    (∀ (i : Nat) (x : Placed × Answered), attempts[i]? = some x → placed[i]? = some x.1 ∧
        x.2 = x.1.answer servers (w.calls ++ (placed.take i).map Placed.call)) ∧
      (∀ i, ⟨.install, i, .ok ()⟩ ∈ s.invocations w ↔ ∃ x, attempts[i]? = some x ∧ x.2.Succeeded) ∧
      (∃ more, after.calls = w.calls ++ attempts.map (fun x => x.1.call) ++ more) ∧
      (∀ a, (after.own.contains a ↔ w.own.contains a ∨ ∃ p ∈ placed, p.app = a) ∧
        (after.own.isInstalled a ↔
          w.own.isInstalled a ∨ ∃ x ∈ attempts, x.1.app = a ∧ x.2.Succeeded) ∧
        (after.guest.contains a ↔
          w.guest.contains a ∨ a = .accounts ∧
            ∃ x ∈ attempts, ∃ admin, Placed.Records .guest x admin) ∧
        after.guest.isInstalled a = w.guest.isInstalled a) ∧
      ∀ b, (∀ a, a ≠ .accounts → (after.registry b).admin? a = (w.registry b).admin? a) ∧
        ((∃ earlier x later admin, attempts = earlier ++ x :: later ∧ Placed.Records b x admin ∧
            (∀ y ∈ later, ∀ other, ¬Placed.Records b y other) ∧
            (after.registry b).admin? .accounts = some admin) ∨
          (∀ x ∈ attempts, ∀ admin, ¬Placed.Records b x admin) ∧
            (after.registry b).admin? .accounts = (w.registry b).admin? .accounts) := by
  intro s attempts after
  obtain ⟨-, hcalls, -⟩ := run_placed servers placed w
  refine ⟨fun i x => Placed.getElem?_attempted, ?_, ⟨_, hcalls.trans (List.append_assoc ..).symm⟩,
    ?_, fun b => ⟨?_, ?_⟩⟩
  · intro i
    rw [mem_invocations_install, (installs_placed servers placed w).1, List.getElem?_map,
      Option.map_eq_some_iff]
    refine exists_congr fun x => and_congr_right fun hx => ?_
    exact Placed.verdict_eq_ok_iff_of_mem (List.mem_of_getElem? hx)
  · intro a
    exact ⟨contains_own_of_run servers placed w a, isInstalled_own_of_run servers placed w a,
      contains_guest_of_run servers placed w a, isInstalled_guest_of_run servers placed w a⟩
  · intro a ha
    rw [admin?_of_run, if_neg ha]
  · have hadmin := admin?_of_run servers placed w b .accounts
    rw [if_pos rfl] at hadmin
    rcases Placed.lastAdmin?_cases b attempts with
      ⟨earlier, x, later, admin, hsplit, hrecords, hlater, hlast⟩ | ⟨hnone, hlast⟩
    · refine Or.inl ⟨earlier, x, later, admin, hsplit, hrecords, hlater, ?_⟩
      rw [hadmin, hlast, Option.some_or]
    · refine Or.inr ⟨hnone, ?_⟩
      rw [hadmin, hlast, Option.none_or]

end Suite

end Shakedown
