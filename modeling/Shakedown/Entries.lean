/-!
Entries under distinct text keys, kept in increasing order of the keys.

Keys are compared by code point. `put` stores one value under a key and forgets the value that
stood there before.
-/

namespace Shakedown

/-- Puts `value` under `key` into a list that is sorted by key. -/
def putSorted {α : Type} (key : String) (value : α) : List (String × α) → List (String × α)
  | [] => [(key, value)]
  | (k, v) :: rest =>
    if key < k then (key, value) :: (k, v) :: rest
    else if key = k then (key, value) :: rest
    else (k, v) :: putSorted key value rest

theorem mem_putSorted {α : Type} {key : String} {value : α} {l : List (String × α)}
    {p : String × α} (h : p ∈ putSorted key value l) : p = (key, value) ∨ p ∈ l := by
  induction l with
  | nil => simpa [putSorted] using h
  | cons q rest ih =>
    obtain ⟨k, v⟩ := q
    rw [putSorted] at h
    split at h
    · simpa using h
    · split at h
      · rcases List.mem_cons.1 h with h | h
        · exact .inl h
        · exact .inr (List.mem_cons_of_mem _ h)
      · rcases List.mem_cons.1 h with h | h
        · exact .inr (h ▸ List.mem_cons_self)
        · exact (ih h).imp_right (List.mem_cons_of_mem _)

theorem pairwise_putSorted {α : Type} {key : String} {value : α} {l : List (String × α)}
    (h : l.Pairwise fun a b => a.1 < b.1) :
    (putSorted key value l).Pairwise fun a b => a.1 < b.1 := by
  induction l with
  | nil => simp [putSorted]
  | cons q rest ih =>
    obtain ⟨k, v⟩ := q
    obtain ⟨hk, hrest⟩ := List.pairwise_cons.1 h
    rw [putSorted]
    split
    · rename_i hlt
      refine List.pairwise_cons.2 ⟨fun p hp => ?_, h⟩
      rcases List.mem_cons.1 hp with rfl | hp
      · exact hlt
      · exact String.lt_trans hlt (hk p hp)
    · split
      · rename_i heq
        exact List.pairwise_cons.2 ⟨fun p hp => heq ▸ hk p hp, hrest⟩
      · rename_i hlt hne
        refine List.pairwise_cons.2 ⟨fun p hp => ?_, ih hrest⟩
        rcases mem_putSorted hp with rfl | hp
        · refine Decidable.byContradiction fun hnot => hne ?_
          exact String.le_antisymm (String.not_lt.1 hnot) (String.not_lt.1 hlt)
        · exact hk p hp

/-- A finite map from text to `α`, as the list of its pairs in increasing order of the keys. -/
structure Entries (α : Type) where
  toList : List (String × α)
  sorted : toList.Pairwise fun a b => a.1 < b.1
  deriving DecidableEq

namespace Entries

def empty {α : Type} : Entries α := ⟨[], .nil⟩

instance {α : Type} : Inhabited (Entries α) := ⟨empty⟩

def put {α : Type} (e : Entries α) (key : String) (value : α) : Entries α :=
  ⟨putSorted key value e.toList, pairwise_putSorted e.sorted⟩

def get? {α : Type} (e : Entries α) (key : String) : Option α :=
  (e.toList.find? fun p => p.1 == key).map (·.2)

end Entries

end Shakedown
