import Mathlib.Data.List.Basic
import Shakedown.Entries

/-!
# What is found under a key

Putting changes what is found under one key and nothing else, so after any number of puts every key
has the last value that was put under it. A list that is sorted by its keys is determined by what is
found in it.
-/

namespace Shakedown

variable {α : Type} {key name : String} {value : α} {l l' : List (String × α)}

/-- The first value under a key. -/
def valueAt? (key : String) (l : List (String × α)) : Option α :=
  (l.find? fun p => p.1 == key).map (·.2)

/-- The last value under a key. -/
def lastValue? (key : String) (l : List (String × α)) : Option α :=
  valueAt? key l.reverse

theorem valueAt?_cons (p : String × α) :
    valueAt? key (p :: l) = if p.1 = key then some p.2 else valueAt? key l := by
  unfold valueAt?
  by_cases hkey : p.1 = key <;> simp [hkey]

theorem valueAt?_append :
    valueAt? key (l ++ l') = (valueAt? key l).or (valueAt? key l') := by
  unfold valueAt?
  rw [List.find?_append, Option.map_or]

theorem valueAt?_eq_none_iff : valueAt? key l = none ↔ key ∉ l.map Prod.fst := by
  unfold valueAt?
  rw [Option.map_eq_none_iff, List.find?_eq_none, List.mem_map, not_exists]
  exact forall_congr' fun p => by rw [not_and, beq_iff_eq]

theorem valueAt?_eq_some_iff_of_nodup (h : (l.map Prod.fst).Nodup) :
    valueAt? key l = some value ↔ (key, value) ∈ l := by
  induction l with
  | nil => exact ⟨nofun, nofun⟩
  | cons p rest ih =>
    obtain ⟨k, v⟩ := p
    obtain ⟨hfirst, hrest⟩ := List.nodup_cons.mp h
    rw [valueAt?_cons, List.mem_cons]
    by_cases hkey : k = key
    · subst hkey
      have hnot : (k, value) ∉ rest := fun hmem =>
        hfirst (List.mem_map.mpr ⟨_, hmem, rfl⟩)
      simp [hnot, eq_comm]
    · have hne : ¬(key, value) = (k, v) := fun heq => hkey (Prod.mk.inj heq).1.symm
      rw [if_neg hkey, ih hrest, or_iff_right hne]

theorem lastValue?_cons (p : String × α) :
    lastValue? key (p :: l) =
      (lastValue? key l).or (if p.1 = key then some p.2 else none) := by
  unfold lastValue?
  rw [List.reverse_cons, valueAt?_append, valueAt?_cons]
  rfl

theorem valueAt?_map {β : Type} (f : α → β) :
    valueAt? key (l.map fun p => (p.1, f p.2)) = (valueAt? key l).map f := by
  unfold valueAt?
  rw [List.find?_map, Option.map_map, Option.map_map]
  rfl

theorem lastValue?_map {β : Type} (f : α → β) :
    lastValue? key (l.map fun p => (p.1, f p.2)) = (lastValue? key l).map f := by
  unfold lastValue?
  rw [← List.map_reverse, valueAt?_map]

theorem valueAt?_putSorted :
    valueAt? name (putSorted key value l) =
      if key = name then some value else valueAt? name l := by
  induction l with
  | nil => exact valueAt?_cons _
  | cons p rest ih =>
    obtain ⟨k, v⟩ := p
    rw [putSorted]
    split
    · exact valueAt?_cons _
    · split
      · rename_i hkey
        subst hkey
        rw [valueAt?_cons, valueAt?_cons]
        split <;> rfl
      · rename_i hne
        rw [valueAt?_cons, ih, valueAt?_cons]
        -- the entry that stays is found before the one that was put, and has another key
        by_cases hk : k = name
        · rw [if_pos hk, if_pos hk, if_neg fun heq => hne (heq.trans hk.symm)]
        · rw [if_neg hk, if_neg hk]

/-! ### Many puts -/

theorem valueAt?_putAll (params : List (String × α)) :
    valueAt? key (params.foldl (fun l p => putSorted p.1 p.2 l) l) =
      (lastValue? key params).or (valueAt? key l) := by
  induction params generalizing l with
  | nil => rfl
  | cons p rest ih =>
    rw [List.foldl_cons, ih, valueAt?_putSorted, lastValue?_cons, Option.or_assoc]
    congr 1
    split <;> rfl

/-! ### Lists that are sorted by their keys -/

theorem valueAt?_eq_some_iff (h : l.Pairwise fun a b => a.1 < b.1) :
    valueAt? key l = some value ↔ (key, value) ∈ l := by
  refine valueAt?_eq_some_iff_of_nodup (List.pairwise_map.mpr (h.imp fun {a b} hab heq => ?_))
  exact String.lt_irrefl a.1 (heq ▸ hab)

theorem eq_of_valueAt? (h : l.Pairwise fun a b => a.1 < b.1)
    (h' : l'.Pairwise fun a b => a.1 < b.1) (hvalues : ∀ key, valueAt? key l = valueAt? key l') :
    l = l' := by
  have hdistinct {l : List (String × α)} (h : l.Pairwise fun a b => a.1 < b.1) : l.Nodup := by
    refine h.imp fun {a b} hab heq => ?_
    exact String.lt_irrefl a.1 (heq ▸ hab)
  have hperm : l.Perm l' := by
    rw [List.perm_ext_iff_of_nodup (hdistinct h) (hdistinct h')]
    rintro ⟨key, value⟩
    rw [← valueAt?_eq_some_iff h, ← valueAt?_eq_some_iff h', hvalues]
  refine List.Perm.eq_of_pairwise (fun a b _ _ hab hba => ?_) h h' hperm
  exact absurd (String.lt_trans hab hba) (String.lt_irrefl a.1)

namespace Entries

variable {e e' : Entries α}

theorem get?_eq_some_iff : e.get? key = some value ↔ (key, value) ∈ e.toList :=
  valueAt?_eq_some_iff e.sorted

theorem ext_get? (h : ∀ key, e.get? key = e'.get? key) : e = e' := by
  obtain ⟨l, hl⟩ := e
  obtain ⟨l', hl'⟩ := e'
  obtain rfl : l = l' := eq_of_valueAt? hl hl' h
  rfl

theorem toList_putAll (params : List (String × α)) :
    (params.foldl (fun e p => e.put p.1 p.2) e).toList =
      params.foldl (fun l p => putSorted p.1 p.2 l) e.toList :=
  (List.foldl_hom toList fun _ _ => rfl).symm

theorem get?_putAll (params : List (String × α)) :
    (params.foldl (fun e p => e.put p.1 p.2) e).get? key =
      (lastValue? key params).or (e.get? key) := by
  change valueAt? key (params.foldl (fun e p => e.put p.1 p.2) e).toList = _
  rw [toList_putAll, valueAt?_putAll]
  rfl

end Entries

end Shakedown
