import Shakedown.Proofs.Settings.Reading
import Shakedown.Proofs.Toml.Sections

/-!
# Reading plain values and the tables of them

What is read from a value of a section is told by the value as it was written. A group of settings
is read from a table one entry at a time. Each setting depends on the entry under its own key only,
so the order of the entries makes no difference.
-/

namespace Shakedown

open Toml (Extent Slip Value Plain)

/-! ### What is read from plain values -/

namespace Toml

section Reads

variable {α γ : Type} {R : γ → Value → Prop} {read : Extent → Value → Except Slip α}
  {Q : α → γ → Prop}

/-- What shows `x` is read as `a` exactly if `a` and `x` are related. -/
def Reads (R : γ → Value → Prop) (read : Extent → Value → Except Slip α) (Q : α → γ → Prop) :
    Prop :=
  ∀ ⦃x v⦄, R x v → ∀ e a, read e v = .ok a ↔ Q a x

theorem Reads.map_ok (h : Reads R read Q) {x : γ} {v : Value} (hv : R x v) {a : α} (ha : Q a x)
    {β : Type} (f : α → β) (e : Extent) : ∃ r, (read e v).map f = .ok r :=
  ⟨f a, map_eq_ok_iff.mpr ⟨a, (h hv e a).mpr ha, rfl⟩⟩

theorem reads_text : Reads Plain.ShownBy readText fun s p => p = .text s := by
  intro p v hv e s
  rw [readText_eq_ok_iff]
  cases p with
  | text s' =>
    obtain rfl : v = .text s' := hv
    exact ⟨fun h => congrArg Plain.text (Value.text.inj h),
      fun h => congrArg Value.text (Plain.text.inj h)⟩
  | integer n =>
    obtain rfl : v = .integer n := hv.1
    exact ⟨nofun, nofun⟩
  | texts ss =>
    obtain ⟨items, rfl, -⟩ := hv
    exact ⟨nofun, nofun⟩

/-- An integer of 64 bits is a count when it is not negative. -/
theorem reads_count : Reads Plain.ShownBy readCount fun n p => p = .integer n := by
  intro p v hv e n
  rw [readCount_eq_ok_iff]
  cases p with
  | text s =>
    obtain rfl : v = .text s := hv
    exact ⟨nofun, nofun⟩
  | integer m =>
    obtain ⟨rfl, -, hm⟩ := hv
    constructor
    · rintro ⟨h, -⟩
      rw [Value.integer.inj h]
    · intro h
      obtain rfl := Plain.integer.inj h
      exact ⟨rfl, by omega⟩
  | texts ss =>
    obtain ⟨items, rfl, -⟩ := hv
    exact ⟨nofun, nofun⟩

theorem reads_choice {names : List String} {ofName? : String → Option α} {name : α → String}
    (hname : ∀ {s a}, ofName? s = some a ↔ s = name a) :
    Reads Plain.ShownBy (readChoice names ofName?) fun a p => p = .text (name a) := by
  intro p v hv e a
  rw [readChoice_eq_ok_iff]
  cases p with
  | text s =>
    obtain rfl : v = .text s := hv
    constructor
    · rintro (⟨s', hs', ha⟩ | ⟨_, _, _, _, h, -⟩)
      · rw [Value.text.inj hs', hname.mp ha]
      · exact nomatch h
    · intro h
      exact Or.inl ⟨s, rfl, hname.mpr (Plain.text.inj h)⟩
  | integer n =>
    obtain rfl : v = .integer n := hv.1
    exact ⟨nofun, nofun⟩
  | texts ss =>
    obtain ⟨items, rfl, -⟩ := hv
    exact ⟨nofun, nofun⟩

theorem readItems_eq_ok_iff {e : Extent} {v : Value} {as : List α} :
    readItems read e v = .ok as ↔
      ∃ ofTables items, v = .array ofTables items ∧
        items.mapM (fun p => read p.1 p.2) = .ok as := by
  constructor
  · intro h
    unfold readItems at h
    split at h
    · exact ⟨_, _, rfl, h⟩
    · exact absurd h mistype_ne_ok
  · rintro ⟨ofTables, items, rfl, h⟩
    exact h

theorem mapM_eq_ok_iff {name : α → String}
    (hread : Reads Plain.ShownBy read fun a p => p = .text (name a))
    {items : List (Extent × Value)} {ss : List String}
    (hitems : items.map Prod.snd = ss.map .text) {as : List α} :
    items.mapM (fun p => read p.1 p.2) = .ok as ↔ ss = as.map name := by
  induction items generalizing ss as with
  | nil =>
    obtain rfl := List.map_eq_nil_iff.mp hitems.symm
    cases as with
    | nil => exact ⟨fun _ => rfl, fun _ => rfl⟩
    | cons a as => exact ⟨nofun, nofun⟩
  | cons item items ih =>
    obtain ⟨s, rest, rfl, hs, hrest⟩ := List.map_eq_cons_iff.mp hitems.symm
    have hitem (a : α) : read item.1 item.2 = .ok a ↔ s = name a :=
      (hread (x := .text s) hs.symm item.1 a).trans (Plain.text.injEq s (name a)).to_iff
    rw [List.mapM_cons, bind_eq_ok_iff]
    constructor
    · rintro ⟨a, ha, h⟩
      obtain ⟨more, hmore, h⟩ := bind_eq_ok_iff.mp h
      obtain rfl := Except.ok.inj h
      rw [(hitem a).mp ha, (ih hrest.symm).mp hmore, List.map_cons]
    · intro h
      obtain ⟨a, more, rfl, ha, hmore⟩ := List.map_eq_cons_iff.mp h.symm
      exact ⟨a, (hitem a).mpr ha.symm,
        bind_eq_ok_iff.mpr ⟨more, (ih hrest.symm).mpr hmore.symm, rfl⟩⟩

theorem reads_items {name : α → String}
    (hread : Reads Plain.ShownBy read fun a p => p = .text (name a)) :
    Reads Plain.ShownBy (readItems read) fun as p => p = .texts (as.map name) := by
  intro p v hv e as
  rw [readItems_eq_ok_iff]
  cases p with
  | text s =>
    obtain rfl : v = .text s := hv
    exact ⟨nofun, nofun⟩
  | integer n =>
    obtain rfl : v = .integer n := hv.1
    exact ⟨nofun, nofun⟩
  | texts ss =>
    obtain ⟨items, rfl, hitems⟩ := hv
    constructor
    · rintro ⟨_, _, harray, h⟩
      obtain ⟨-, rfl⟩ := Value.array.inj harray
      exact congrArg Plain.texts ((mapM_eq_ok_iff hread hitems).mp h)
    · intro h
      exact ⟨false, items, rfl, (mapM_eq_ok_iff hread hitems).mpr (Plain.texts.inj h)⟩

theorem itemsAreSound_of_texts {items : List (Extent × Value)} {ss : List String}
    (h : items.map Prod.snd = ss.map .text) : itemsAreSound items = true := by
  induction items generalizing ss with
  | nil => rfl
  | cons item items ih =>
    obtain ⟨e, v⟩ := item
    obtain ⟨s, rest, rfl, hs, hrest⟩ := List.map_eq_cons_iff.mp h.symm
    obtain rfl : Value.text s = v := hs
    rw [itemsAreSound, ih hrest.symm]
    rfl

theorem Plain.ShownBy.isSound {p : Plain} {v : Value} (h : p.ShownBy v) : v.isSound = true := by
  cases p with
  | text s =>
    obtain rfl : v = .text s := h
    rfl
  | integer n =>
    obtain rfl : v = .integer n := h.1
    rfl
  | texts ss =>
    obtain ⟨items, rfl, hitems⟩ := h
    rw [Value.isSound, itemsAreSound_of_texts hitems]

theorem passOver_map_ok {β : Type} {v : Value} (h : v.isSound = true) (f : Unit → β) (e : Extent) :
    ∃ r, (passOver e v).map f = .ok r :=
  ⟨f (), map_eq_ok_iff.mpr ⟨(), if_pos h, rfl⟩⟩

end Reads

end Toml

namespace Settings

open Toml (Reads Table)

/-! ### Entries that are read one by one -/

section Fold

variable {α β γ δ : Type} {add : δ → String → Extent → Value → Except Slip δ} {t : Table}
  {d r : δ} {R : γ → Value → Prop} {l : List (String × γ)}

/-- Entries under `key`, and no others, change `π`, and they set it to what is read from them. -/
structure Sets (add : δ → String → Extent → Value → Except Slip δ) (key : String)
    (read : Extent → Value → Except Slip α) (π : δ → β) (g : α → β) : Prop where
  other {d r : δ} {name : String} {e : Extent} {v : Value} :
    name ≠ key → add d name e v = .ok r → π r = π d
  set {d r : δ} {e : Extent} {v : Value} :
    add d key e v = .ok r → ∃ a, read e v = .ok a ∧ π r = g a

/-- In a table, a key stands once. -/
theorem Sets.foldlM {key : String} {read : Extent → Value → Except Slip α} {π : δ → β} {g : α → β}
    (h : Sets add key read π g) (ht : t.Sorted)
    (hr : t.foldlM (fun d p => add d p.1 p.2.1 p.2.2) d = .ok r) :
    (Toml.entry? t key = none ∧ π r = π d) ∨
      ∃ e v a, Toml.entry? t key = some (e, v) ∧ read e v = .ok a ∧ π r = g a := by
  induction t generalizing d with
  | nil =>
    obtain rfl := Except.ok.inj hr
    exact Or.inl ⟨rfl, rfl⟩
  | cons p rest ih =>
    obtain ⟨name, e, v⟩ := p
    obtain ⟨hfirst, hrest⟩ := List.pairwise_cons.mp ht
    rw [List.foldlM_cons] at hr
    obtain ⟨next, hnext, hr⟩ := bind_eq_ok_iff.mp hr
    rw [Toml.entry?_cons]
    by_cases hkey : name = key
    · subst hkey
      obtain ⟨a, ha, hset⟩ := h.set hnext
      rcases ih hrest hr with ⟨-, hkept⟩ | ⟨e', v', -, hentry, -, -⟩
      · exact Or.inr ⟨e, v, a, if_pos rfl, ha, hkept.trans hset⟩
      · have hmem : (name, e', v') ∈ rest := (valueAt?_eq_some_iff hrest).mp hentry
        exact absurd (hfirst _ hmem) (String.lt_irrefl name)
    · rw [if_neg hkey]
      rcases ih hrest hr with ⟨hentry, hkept⟩ | hset
      · exact Or.inl ⟨hentry, hkept.trans (h.other hkey hnext)⟩
      · exact Or.inr hset

theorem exists_foldlM (h : ∀ p ∈ t, ∀ d, ∃ r, add d p.1 p.2.1 p.2.2 = .ok r) (d : δ) :
    ∃ r, t.foldlM (fun d p => add d p.1 p.2.1 p.2.2) d = .ok r := by
  induction t generalizing d with
  | nil => exact ⟨d, rfl⟩
  | cons p rest ih =>
    obtain ⟨hp, hrest⟩ := List.forall_mem_cons.mp h
    obtain ⟨next, hnext⟩ := hp d
    obtain ⟨r, hr⟩ := ih hrest next
    rw [List.foldlM_cons]
    exact ⟨r, bind_eq_ok_iff.mpr ⟨next, hnext, hr⟩⟩

/-- When every result has `M`, and one thing at most has it, it is the result if the entries can be
read at all. -/
theorem foldlM_eq_ok_iff {M : δ → Prop}
    (hsound : ∀ {r}, t.foldlM (fun d p => add d p.1 p.2.1 p.2.2) d = .ok r → M r)
    (hunique : ∀ {r r'}, M r → M r' → r = r')
    (hadd : M r → ∀ p ∈ t, ∀ d, ∃ r, add d p.1 p.2.1 p.2.2 = .ok r) :
    t.foldlM (fun d p => add d p.1 p.2.1 p.2.2) d = .ok r ↔ M r := by
  refine ⟨hsound, fun hr => ?_⟩
  obtain ⟨r', hr'⟩ := exists_foldlM (hadd hr) d
  rw [hunique hr (hsound hr')]
  exact hr'

/-- What is set to what the list has under the key, or kept where the list does not have it. -/
theorem Sets.of_holds {key : String} {read : Extent → Value → Except Slip α} {π : δ → β} {g : α → β}
    {Q : α → γ → Prop} (h : Sets add key read π g) (hread : Reads R read Q)
    (ht : Table.Holds R l t) (hr : t.foldlM (fun d p => add d p.1 p.2.1 p.2.2) d = .ok r) :
    (valueAt? key l = none ∧ π r = π d) ∨
      ∃ x a, valueAt? key l = some x ∧ Q a x ∧ π r = g a := by
  rcases ht.entry key with ⟨hvalue, hentry⟩ | ⟨x, e, v, hvalue, hentry, hv⟩
  · rcases h.foldlM ht.sorted hr with ⟨-, hkept⟩ | ⟨e, v, a, hentry', -, -⟩
    · exact Or.inl ⟨hvalue, hkept⟩
    · exact nomatch hentry.symm.trans hentry'
  · rcases h.foldlM ht.sorted hr with ⟨hentry', -⟩ | ⟨e', v', a, hentry', ha, hset⟩
    · exact nomatch hentry.symm.trans hentry'
    · obtain ⟨rfl, rfl⟩ := Prod.mk.inj (Option.some.inj (hentry.symm.trans hentry'))
      exact Or.inr ⟨x, a, hvalue, (hread hv e a).mp ha, hset⟩

theorem Sets.eq_map {key : String} {read : Extent → Value → Except Slip α} {π : δ → Option α}
    {spell : α → γ} (h : Sets add key read π some)
    (hread : Reads R read fun a x => x = spell a) (ht : Table.Holds R l t) (hd : π d = none)
    (hr : t.foldlM (fun d p => add d p.1 p.2.1 p.2.2) d = .ok r) :
    valueAt? key l = (π r).map spell := by
  rcases h.of_holds hread ht hr with ⟨hvalue, hkept⟩ | ⟨x, a, hvalue, rfl, hset⟩
  · rw [hvalue, hkept, hd]
    rfl
  · rw [hvalue, hset]
    rfl

theorem map_ok_of_eq_map {key : String} {read : Extent → Value → Except Slip α} {spell : α → γ}
    (hread : Reads R read fun a x => x = spell a) {o : Option α}
    (ho : valueAt? key l = o.map spell) {x : γ} (hx : valueAt? key l = some x) {v : Value}
    (hv : R x v) (f : α → β) (e : Extent) : ∃ r, (read e v).map f = .ok r := by
  obtain ⟨a, -, ha⟩ := Option.map_eq_some_iff.mp (ho.symm.trans hx)
  exact hread.map_ok hv ha.symm f e

theorem map_ok_of_slot {ε : Type} {key : String} {read : Extent → Value → Except Slip α}
    {Q : α → γ → Prop} {b b₀ : ε} {g : α → ε} (hread : Reads R read Q)
    (h : (valueAt? key l = none ∧ b = b₀) ∨ ∃ x a, valueAt? key l = some x ∧ Q a x ∧ b = g a)
    {x : γ} (hx : valueAt? key l = some x) {v : Value} (hv : R x v) (f : α → β) (e : Extent) :
    ∃ r, (read e v).map f = .ok r := by
  rcases h with ⟨hnone, -⟩ | ⟨x', a, hsome, ha, -⟩
  · exact nomatch hnone.symm.trans hx
  · obtain rfl := Option.some.inj (hx.symm.trans hsome)
    exact hread.map_ok hv ha f e

end Fold

end Settings

end Shakedown
