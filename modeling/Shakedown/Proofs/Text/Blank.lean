import Mathlib.Data.List.DropRight
import Shakedown.Text.Blank

/-!
# Text without the blanks around it

What is left of a text starts and ends with a character that is no blank, and only blanks were taken
from around it. There is just one such part of a text.
-/

namespace Shakedown.Text

variable {cs body : List Char}

theorem isBlank_of_isDigit {c : Char} (h : c.isDigit = true) : isBlank c = false := by
  have hrange : 48 ≤ c.toNat ∧ c.toNat ≤ 57 := by
    simpa [Char.isDigit, UInt32.le_iff_toNat_le] using h
  unfold isBlank
  simp only [Bool.or_eq_false_iff, Bool.and_eq_false_iff, decide_eq_false_iff_not,
    beq_eq_false_iff_ne]
  omega

theorem dropWhile_blanks {blanks cs : List Char} (h : ∀ c ∈ blanks, isBlank c = true)
    (hfirst : ∀ c ∈ cs.head?, isBlank c = false) : (blanks ++ cs).dropWhile isBlank = cs := by
  rw [List.dropWhile_append_of_pos h]
  cases cs with
  | nil => rfl
  | cons c tail => rw [List.dropWhile_cons_of_neg (ne_true_of_eq_false (hfirst c rfl))]

/-- A text that neither starts nor ends with a blank is what is left between blanks. -/
theorem trimChars_append {before cs after : List Char} (hbefore : ∀ c ∈ before, isBlank c = true)
    (hafter : ∀ c ∈ after, isBlank c = true) (hne : cs ≠ [])
    (hfirst : ∀ c ∈ cs.head?, isBlank c = false) (hlast : ∀ c ∈ cs.getLast?, isBlank c = false) :
    trimChars (before ++ (cs ++ after)) = cs := by
  have hfront : ∀ c ∈ (cs ++ after).head?, isBlank c = false := by
    rwa [List.head?_append_of_ne_nil _ hne]
  have hbehind : ∀ c ∈ after.reverse, isBlank c = true := by
    simpa using hafter
  have hback : ∀ c ∈ cs.reverse.head?, isBlank c = false := by
    rwa [List.head?_reverse]
  rw [trimChars, dropWhile_blanks hbefore hfront, List.reverse_append,
    dropWhile_blanks hbehind hback, List.reverse_reverse]

theorem mem_of_mem_trimChars {c : Char} {cs : List Char} (h : c ∈ trimChars cs) : c ∈ cs := by
  unfold trimChars at h
  rw [List.mem_reverse] at h
  have hfront := (List.dropWhile_suffix isBlank).mem h
  rw [List.mem_reverse] at hfront
  exact (List.dropWhile_suffix isBlank).mem hfront

theorem trimChars_eq_nil_iff {cs : List Char} : trimChars cs = [] ↔ cs.all isBlank = true := by
  change (cs.dropWhile isBlank).rdropWhile isBlank = [] ↔ _
  rw [List.rdropWhile_eq_nil_iff, List.all_eq_true,
    ← List.dropWhile_eq_nil_iff (p := isBlank) (l := cs)]
  constructor
  · intro hblank
    cases hrest : cs.dropWhile isBlank with
    | nil => rfl
    | cons c rest =>
      have hhead := List.head_dropWhile_not isBlank (hrest ▸ List.cons_ne_nil c rest)
      simp only [hrest, List.head_cons] at hhead
      rw [hblank c (hrest ▸ List.mem_cons_self)] at hhead
      exact nomatch hhead
  · intro hnil c hc
    rw [hnil] at hc
    exact nomatch hc

/-- What is left of a text when the blanks around it are taken away, and no more than these. -/
structure Trims (cs body : List Char) : Prop where
  between : ∃ before after, cs = before ++ (body ++ after) ∧
    (∀ c ∈ before, isBlank c = true) ∧ ∀ c ∈ after, isBlank c = true
  first : ∀ c ∈ body.head?, isBlank c = false
  last : ∀ c ∈ body.getLast?, isBlank c = false

theorem isBlank_of_head?_dropWhile {c : Char} (h : c ∈ (cs.dropWhile isBlank).head?) :
    isBlank c = false := by
  have hfirst := List.head?_dropWhile_not isBlank cs
  rw [Option.mem_def.mp h] at hfirst
  simpa using hfirst

theorem trims_trimChars (cs : List Char) : Trims cs (trimChars cs) := by
  have htrim : trimChars cs = (cs.dropWhile isBlank).rdropWhile isBlank := rfl
  refine ⟨⟨cs.takeWhile isBlank, (cs.dropWhile isBlank).rtakeWhile isBlank, ?_, ?_, ?_⟩, ?_, ?_⟩
  · calc
      cs = cs.takeWhile isBlank ++ cs.dropWhile isBlank := List.takeWhile_append_dropWhile.symm
      _ = cs.takeWhile isBlank ++
          (trimChars cs ++ (cs.dropWhile isBlank).rtakeWhile isBlank) := by
        rw [htrim, List.rdropWhile_append_rtakeWhile]
  · exact fun c hc => List.mem_takeWhile_imp hc
  · exact fun c hc => List.mem_rtakeWhile_imp hc
  · intro c hc
    obtain ⟨after, hafter⟩ := List.rdropWhile_prefix isBlank (l := cs.dropWhile isBlank)
    refine @isBlank_of_head?_dropWhile cs c ?_
    rw [← hafter, ← htrim, List.head?_append, hc]
    rfl
  · intro c hc
    have hne : (cs.dropWhile isBlank).rdropWhile isBlank ≠ [] := by
      rintro hnil
      rw [htrim, hnil] at hc
      exact nomatch hc
    have hlast := List.rdropWhile_last_not isBlank _ hne
    rw [htrim, List.getLast?_eq_some_getLast hne, Option.mem_some_iff] at hc
    rwa [hc, Bool.not_eq_true] at hlast

theorem Trims.eq (h : Trims cs body) : trimChars cs = body := by
  obtain ⟨before, after, rfl, hbefore, hafter⟩ := h.between
  by_cases hnil : body = []
  · subst hnil
    rw [trimChars_eq_nil_iff, List.all_eq_true]
    intro c hc
    rcases List.mem_append.mp hc with hc | hc
    · exact hbefore c hc
    · exact hafter c hc
  · exact trimChars_append hbefore hafter hnil h.first h.last

theorem trims_iff : Trims cs body ↔ trimChars cs = body :=
  ⟨Trims.eq, fun h => h ▸ trims_trimChars cs⟩

end Shakedown.Text
