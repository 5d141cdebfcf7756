import Mathlib.Data.List.TakeWhile
import Shakedown.Text.Hex
import Shakedown.Text.Quoted

/-!
# Debug text can be read back

Between its quotes debug text has no hidden character, and a quote or a backslash only as part of
an escape. Each character can be told from the text that follows it, and a quote that ends the text
from one that belongs to it. So the text that was quoted, and what stands behind it, can be told as
well.
-/

namespace Shakedown.Text

/-! ### Hexadecimal digits -/

def hexNumber (ds : List Char) : Nat :=
  ds.foldl (fun n d => n * 16 + (hexValue? d).getD 0) 0

theorem toDigits_sixteen_of_le {n : Nat} (h : 16 ≤ n) :
    Nat.toDigits 16 n = Nat.toDigits 16 (n / 16) ++ [Nat.digitChar (n % 16)] :=
  Nat.toDigits_of_base_le (by omega) h

theorem mem_toDigits_sixteen {n : Nat} {d : Char} (hd : d ∈ Nat.toDigits 16 n) :
    ∃ k < 16, d = Nat.digitChar k := by
  induction n using Nat.strongRecOn with
  | ind n ih =>
    by_cases hsmall : n < 16
    · rw [Nat.toDigits_of_lt_base hsmall, List.mem_singleton] at hd
      exact ⟨n, hsmall, hd⟩
    · rw [toDigits_sixteen_of_le (by omega), List.mem_append, List.mem_singleton] at hd
      rcases hd with hfront | hlast
      · exact ih (n / 16) (by omega) hfront
      · exact ⟨n % 16, Nat.mod_lt _ (by omega), hlast⟩

theorem hexValue?_digitChar {k : Nat} (hk : k < 16) : hexValue? (Nat.digitChar k) = some k := by
  have hall : ∀ k < 16, hexValue? (Nat.digitChar k) = some k := by decide
  exact hall k hk

theorem hexNumber_toDigits (n : Nat) : hexNumber (Nat.toDigits 16 n) = n := by
  induction n using Nat.strongRecOn with
  | ind n ih =>
    by_cases hsmall : n < 16
    · rw [Nat.toDigits_of_lt_base hsmall]
      simp [hexNumber, hexValue?_digitChar hsmall]
    · have hfront : hexNumber (Nat.toDigits 16 (n / 16)) = n / 16 := ih (n / 16) (by omega)
      have hlast := hexValue?_digitChar (Nat.mod_lt n (by omega : 0 < 16))
      unfold hexNumber at hfront ⊢
      rw [toDigits_sixteen_of_le (by omega), List.foldl_append, hfront, List.foldl_cons,
        List.foldl_nil, hlast, Option.getD_some]
      omega

/-! ### What is shown of a character -/

/-- The character that a letter behind a backslash stands for. -/
def letter? : Char → Option Char
  | '0' => some '\x00'
  | 't' => some '\t'
  | 'r' => some '\r'
  | 'n' => some '\n'
  | '"' => some '"'
  | '\\' => some '\\'
  | _ => none

theorem escapeChar_of_letter? {c d : Char} (h : letter? d = some c) : escapeChar c = ['\\', d] := by
  unfold letter? at h
  split at h <;> first | (obtain rfl := Option.some.inj h; rfl) | exact nomatch h

theorem escapeChar_cases (c : Char) :
    (escapeChar c = [c] ∧ c ≠ '"' ∧ c ≠ '\\' ∧ isHidden c = false) ∨
      (∃ d, escapeChar c = ['\\', d] ∧ letter? d = some c) ∨ escapeChar c = codePoint c := by
  by_cases hspecial : ∃ d, letter? d = some c
  · obtain ⟨d, hd⟩ := hspecial
    exact Or.inr (Or.inl ⟨d, escapeChar_of_letter? hd, hd⟩)
  · have hne {d e : Char} (hd : letter? d = some e) : c ≠ e := fun heq => hspecial ⟨d, heq ▸ hd⟩
    have hquote := hne (show letter? '"' = some '"' from rfl)
    have hslash := hne (show letter? '\\' = some '\\' from rfl)
    rw [escapeChar, if_neg (hne (show letter? '0' = some '\x00' from rfl)),
      if_neg (hne (show letter? 't' = some '\t' from rfl)),
      if_neg (hne (show letter? 'r' = some '\r' from rfl)),
      if_neg (hne (show letter? 'n' = some '\n' from rfl)), if_neg hquote, if_neg hslash]
    by_cases hhidden : (isCombining c || isHidden c) = true
    · exact Or.inr (Or.inr (if_pos hhidden))
    · have hshown : isHidden c = false := (Bool.or_eq_false_iff.mp (eq_false_of_ne_true hhidden)).2
      exact Or.inl ⟨if_neg hhidden, hquote, hslash, hshown⟩

/-- A character is shown as it is, or it is escaped by a backslash and more: behind the character
next to the backslash there are no other quotes and backslashes. -/
theorem escapeChar_spec (c : Char) :
    (escapeChar c = [c] ∧ c ≠ '"' ∧ c ≠ '\\' ∧ isHidden c = false) ∨
      ∃ d more, escapeChar c = '\\' :: d :: more ∧ '"' ∉ more ∧ '\\' ∉ more := by
  rcases escapeChar_cases c with hshown | ⟨d, hletter, -⟩ | hcode
  · exact Or.inl hshown
  · exact Or.inr ⟨d, [], hletter, List.not_mem_nil, List.not_mem_nil⟩
  · have hmarks : ∀ k < 16, Nat.digitChar k ≠ '"' ∧ Nat.digitChar k ≠ '\\' := by decide
    have hdigits : '"' ∉ Nat.toDigits 16 c.toNat ∧ '\\' ∉ Nat.toDigits 16 c.toNat := by
      constructor
      · intro hmem
        obtain ⟨k, hk, heq⟩ := mem_toDigits_sixteen hmem
        exact (hmarks k hk).1 heq.symm
      · intro hmem
        obtain ⟨k, hk, heq⟩ := mem_toDigits_sixteen hmem
        exact (hmarks k hk).2 heq.symm
    refine Or.inr ⟨'u', '{' :: (Nat.toDigits 16 c.toNat ++ ['}']), hcode, ?_, ?_⟩
    · simp [hdigits.1]
    · simp [hdigits.2]

theorem isHidden_of_mem_escapeChar {c d : Char} (hd : d ∈ escapeChar c) : isHidden d = false := by
  rcases escapeChar_cases c with ⟨hshown, -, -, hvisible⟩ | ⟨e, hletter, hname⟩ | hcode
  · rw [hshown, List.mem_singleton] at hd
    exact hd ▸ hvisible
  · have hvisible : isHidden e = false := by
      unfold letter? at hname
      split at hname <;> first | rfl | exact nomatch hname
    rw [hletter, List.mem_cons, List.mem_singleton] at hd
    rcases hd with rfl | rfl
    · rfl
    · exact hvisible
  · rw [hcode, codePoint, List.mem_append, List.mem_append, List.mem_singleton] at hd
    rcases hd with (hmark | hdigit) | rfl
    · simp only [List.mem_cons, List.not_mem_nil, or_false] at hmark
      rcases hmark with rfl | rfl | rfl <;> rfl
    · have hvisible : ∀ k < 16, isHidden (Nat.digitChar k) = false := by decide
      obtain ⟨k, hk, rfl⟩ := mem_toDigits_sixteen hdigit
      exact hvisible k hk
    · rfl

/-- Control characters and the separators of lines are hidden. -/
theorem not_control_of_shown {c : Char} (h : isHidden c = false) :
    0x20 ≤ c.toNat ∧ ¬(0x7F ≤ c.toNat ∧ c.toNat ≤ 0x9F) ∧ c.toNat ≠ 0x2028 ∧
      c.toNat ≠ 0x2029 := by
  unfold isHidden at h
  by_cases hascii : c.toNat < 0x7F
  · rw [if_pos hascii, decide_eq_false_iff_not] at h
    omega
  · rw [if_neg hascii, inRanges, List.any_eq_false] at h
    have hcontrols := h (0x7F, 0xA0) (by decide +kernel)
    have hseparators := h (0x2028, 0x202F) (by decide +kernel)
    simp only [Bool.and_eq_true, decide_eq_true_eq] at hcontrols hseparators
    omega

/-! ### Reading debug text -/

/-- Reads the first character of debug text. -/
def readShown? : List Char → Option (Char × List Char)
  | [] => none
  | '\\' :: 'u' :: rest =>
    some (Char.ofNat (hexNumber ((rest.drop 1).takeWhile (· ≠ '}'))),
      (rest.dropWhile (· ≠ '}')).drop 1)
  | '\\' :: d :: rest => (letter? d).map fun c => (c, rest)
  | c :: rest => some (c, rest)

theorem readShown?_of_ne {c : Char} (hc : c ≠ '\\') (rest : List Char) :
    readShown? (c :: rest) = some (c, rest) := by
  unfold readShown?
  split <;> simp_all

theorem readShown?_letter {c d : Char} (hname : letter? d = some c) (rest : List Char) :
    readShown? ('\\' :: d :: rest) = some (c, rest) := by
  unfold letter? at hname
  split at hname <;> first | (obtain rfl := Option.some.inj hname; rfl) | exact nomatch hname

theorem readShown?_codePoint (c : Char) (rest : List Char) :
    readShown? (codePoint c ++ rest) = some (c, rest) := by
  have hopen : ∀ k < 16, Nat.digitChar k ≠ '}' := by decide
  have hdigits : ∀ d ∈ Nat.toDigits 16 c.toNat, decide (d ≠ '}') = true := by
    intro d hd
    obtain ⟨k, hk, rfl⟩ := mem_toDigits_sixteen hd
    exact decide_eq_true (hopen k hk)
  have htext : codePoint c ++ rest =
      '\\' :: 'u' :: '{' :: (Nat.toDigits 16 c.toNat ++ '}' :: rest) := by simp [codePoint]
  rw [htext, readShown?, List.drop_succ_cons, List.drop_zero,
    List.takeWhile_append_of_pos hdigits, List.dropWhile_cons_of_pos rfl,
    List.dropWhile_append_of_pos hdigits, List.takeWhile_cons_of_neg (by simp),
    List.dropWhile_cons_of_neg (by simp), List.append_nil, hexNumber_toDigits, Char.ofNat_toNat]
  rfl

theorem readShown?_escapeChar (c : Char) (rest : List Char) :
    readShown? (escapeChar c ++ rest) = some (c, rest) := by
  rcases escapeChar_cases c with ⟨hshown, -, hslash, -⟩ | ⟨d, hletter, hname⟩ | hcode
  · rw [hshown]
    exact readShown?_of_ne hslash rest
  · rw [hletter]
    exact readShown?_letter hname rest
  · rw [hcode]
    exact readShown?_codePoint c rest

theorem escapeChar_append_inj {c c' : Char} {x y : List Char}
    (h : escapeChar c ++ x = escapeChar c' ++ y) : c = c' ∧ x = y := by
  have hread := congrArg readShown? h
  rw [readShown?_escapeChar, readShown?_escapeChar, Option.some.injEq, Prod.mk.injEq] at hread
  exact hread

theorem escapeChar_append_ne_quote (c : Char) (x y : List Char) :
    escapeChar c ++ x ≠ '"' :: y := by
  rcases escapeChar_spec c with ⟨hshown, hquote, -⟩ | ⟨d, more, hescape, -⟩
  · rw [hshown]
    exact fun h => hquote (List.cons.inj h).1
  · rw [hescape]
    exact fun h => absurd (List.cons.inj h).1 (by decide)

/-- The closing quote of debug text is the first one that is not escaped, so the text between the
quotes and the text behind them are told apart. -/
theorem quoteChars_append_inj {cs cs' x y : List Char}
    (h : quoteChars cs ++ x = quoteChars cs' ++ y) : cs = cs' ∧ x = y := by
  have hbody (cs x : List Char) :
      quoteChars cs ++ x = '"' :: (cs.flatMap escapeChar ++ '"' :: x) := by simp [quoteChars]
  rw [hbody, hbody, List.cons.injEq, and_iff_right rfl] at h
  induction cs generalizing cs' with
  | nil =>
    cases cs' with
    | nil => exact ⟨rfl, (List.cons.inj h).2⟩
    | cons c' rest' =>
      rw [List.flatMap_cons, List.append_assoc] at h
      exact absurd h.symm (escapeChar_append_ne_quote c' _ _)
  | cons c rest ih =>
    cases cs' with
    | nil =>
      rw [List.flatMap_cons, List.append_assoc] at h
      exact absurd h (escapeChar_append_ne_quote c _ _)
    | cons c' rest' =>
      rw [List.flatMap_cons, List.flatMap_cons, List.append_assoc, List.append_assoc] at h
      obtain ⟨rfl, hrest⟩ := escapeChar_append_inj h
      obtain ⟨rfl, htail⟩ := ih hrest
      exact ⟨rfl, htail⟩

end Shakedown.Text
