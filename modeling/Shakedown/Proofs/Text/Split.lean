import Shakedown.Text.Split

/-!
# The pieces of a text

A text that pieces make with separators between them has these pieces, if the separator is in none
of them.
-/

namespace Shakedown.Text

variable {sep : Char} {xs ys : List Char}

theorem split_ne_nil (xs : List Char) : split sep xs ≠ [] := by
  cases xs with
  | nil => exact List.cons_ne_nil _ _
  | cons c rest =>
    rw [split]
    split
    · exact List.cons_ne_nil _ _
    · split <;> exact List.cons_ne_nil _ _

theorem split_append_sep (xs ys : List Char) :
    split sep (xs ++ sep :: ys) = split sep xs ++ split sep ys := by
  induction xs with
  | nil =>
    change split sep (sep :: ys) = [] :: split sep ys
    rw [split, if_pos rfl]
  | cons c rest ih =>
    rw [List.cons_append, split, split, ih]
    split
    · rfl
    · cases hrest : split sep rest with
      | nil => exact absurd hrest (split_ne_nil rest)
      | cons piece more => rfl

theorem split_of_not_mem (h : sep ∉ xs) : split sep xs = [xs] := by
  induction xs with
  | nil => rfl
  | cons c rest ih =>
    have hc : c ≠ sep := fun heq => h (heq ▸ List.mem_cons_self)
    rw [split, if_neg hc, ih fun hmem => h (List.mem_cons_of_mem c hmem)]

theorem split_join {pieces : List (List Char)} (hne : pieces ≠ []) (h : ∀ p ∈ pieces, sep ∉ p) :
    split sep (join [sep] pieces) = pieces := by
  induction pieces with
  | nil => exact absurd rfl hne
  | cons p rest ih =>
    obtain ⟨hp, hrest⟩ := List.forall_mem_cons.mp h
    cases rest with
    | nil => exact split_of_not_mem hp
    | cons q more =>
      rw [join, List.append_assoc, List.singleton_append, split_append_sep, split_of_not_mem hp,
        ih (List.cons_ne_nil q more) hrest, List.singleton_append]
      exact nofun

/-- A text of lines, each with the separator at its end, has an empty piece behind the last. -/
theorem split_flatMap {pieces : List (List Char)} (h : ∀ p ∈ pieces, sep ∉ p) :
    split sep (pieces.flatMap fun p => p ++ [sep]) = pieces ++ [[]] := by
  induction pieces with
  | nil => rfl
  | cons p rest ih =>
    obtain ⟨hp, hrest⟩ := List.forall_mem_cons.mp h
    rw [List.flatMap_cons, List.append_assoc, List.singleton_append, split_append_sep,
      split_of_not_mem hp, ih hrest, List.singleton_append, List.cons_append]

end Shakedown.Text
