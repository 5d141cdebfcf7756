import Shakedown.Toml.Statement
import Mathlib.Data.List.TakeWhile

/-!
# Complete lines of a document

What is read from complete lines does not depend on what follows them: blanks, comments and texts
that end before the end of such lines end at the same place when more text is put behind them.
-/

namespace Shakedown.Toml

/-! ### Complete lines -/

/-- The last line of a text is complete. -/
def EndsLine (cs : List Char) : Prop :=
  ['\n'] <:+ cs

variable {cs rest z : List Char}

namespace EndsLine

theorem ne_nil (h : EndsLine cs) : cs ≠ [] := by
  rintro rfl
  exact absurd (List.eq_nil_of_suffix_nil h) (List.cons_ne_nil _ _)

theorem of_suffix (h : EndsLine cs) (hsuffix : rest <:+ cs) (hne : rest ≠ []) :
    EndsLine rest := by
  refine List.suffix_of_suffix_length_le h hsuffix ?_
  exact List.length_pos_iff.mpr hne

theorem tail {c : Char} (h : EndsLine (c :: cs)) (hne : cs ≠ []) : EndsLine cs :=
  h.of_suffix (List.suffix_cons c cs) hne

theorem tail_of_ne {c : Char} (h : EndsLine (c :: cs)) (hc : c ≠ '\n') : EndsLine cs := by
  refine h.tail ?_
  rintro rfl
  obtain ⟨before, hbefore⟩ := h
  cases before with
  | nil => exact hc (List.cons.inj hbefore).1.symm
  | cons d more => simp at hbefore

theorem mono (h : EndsLine rest) (hsuffix : rest <:+ cs) : EndsLine cs :=
  h.trans hsuffix

/-- A character is there whether more text follows or not. -/
theorem of_append_cons {c : Char} {more : List Char} (h : EndsLine cs)
    (heq : cs ++ z = c :: more) : ∃ more', cs = c :: more' ∧ more = more' ++ z := by
  obtain ⟨d, tail, rfl⟩ := List.exists_cons_of_ne_nil h.ne_nil
  obtain ⟨rfl, rfl⟩ := List.cons.inj heq
  exact ⟨tail, rfl, rfl⟩

theorem append_ne_cons {c : Char} (h : EndsLine cs) (hne : ∀ more, cs ≠ c :: more)
    (more : List Char) : cs ++ z ≠ c :: more := by
  intro heq
  obtain ⟨more', hmore, -⟩ := h.of_append_cons heq
  exact hne more' hmore

theorem mem (h : EndsLine cs) : '\n' ∈ cs :=
  h.subset List.mem_cons_self

theorem dropWhile {p : Char → Bool} (h : EndsLine cs) (hp : p '\n' = false) :
    EndsLine (cs.dropWhile p) := by
  refine h.of_suffix (List.dropWhile_suffix p) ?_
  intro hnil
  have hall := List.dropWhile_eq_nil_iff.mp hnil '\n' h.mem
  rw [hp] at hall
  exact Bool.false_ne_true hall

end EndsLine

theorem dropWhile_append_of_ne_nil {p : Char → Bool} (h : cs.dropWhile p ≠ []) :
    (cs ++ z).dropWhile p = cs.dropWhile p ++ z := by
  rw [List.dropWhile_append, if_neg (mt List.isEmpty_iff.mp h)]

theorem takeWhile_append_of_ne_nil {p : Char → Bool} (h : cs.dropWhile p ≠ []) :
    (cs ++ z).takeWhile p = cs.takeWhile p := by
  rw [List.takeWhile_append, if_neg]
  intro hlength
  have hall := List.takeWhile_append_dropWhile (p := p) (l := cs)
  have hsum := congrArg List.length hall
  rw [List.length_append, hlength] at hsum
  exact h (List.length_eq_zero_iff.mp (by omega))

/-! ### Blanks, line breaks and comments -/

theorem skipSpace_suffix (cs : List Char) : skipSpace cs <:+ cs :=
  List.dropWhile_suffix isSpace

theorem EndsLine.skipSpace (h : EndsLine cs) : EndsLine (skipSpace cs) :=
  h.dropWhile (by decide)

theorem skipSpace_append (h : EndsLine (skipSpace cs)) :
    skipSpace (cs ++ z) = skipSpace cs ++ z :=
  dropWhile_append_of_ne_nil h.ne_nil

theorem lineBreak?_eq_some_iff :
    lineBreak? cs = some rest ↔ cs = '\n' :: rest ∨ cs = '\r' :: '\n' :: rest := by
  constructor
  · intro h
    unfold lineBreak? at h
    split at h
    · obtain rfl := Option.some.inj h
      exact Or.inl rfl
    · obtain rfl := Option.some.inj h
      exact Or.inr rfl
    · exact nomatch h
  · rintro (rfl | rfl) <;> rfl

theorem lineBreak?_suffix (h : lineBreak? cs = some rest) :
    rest <:+ cs ∧ rest.length < cs.length := by
  rcases lineBreak?_eq_some_iff.mp h with rfl | rfl
  · exact ⟨List.suffix_cons _ _, by simp⟩
  · exact ⟨⟨['\r', '\n'], rfl⟩, by simp only [List.length_cons]; omega⟩

theorem lineBreak?_append (h : EndsLine cs) :
    lineBreak? (cs ++ z) = (lineBreak? cs).map (· ++ z) := by
  cases hbreak : lineBreak? cs with
  | some rest => rcases lineBreak?_eq_some_iff.mp hbreak with rfl | rfl <;> rfl
  | none =>
    by_contra hsome
    obtain ⟨rest, hrest⟩ := Option.ne_none_iff_exists'.mp hsome
    rcases lineBreak?_eq_some_iff.mp hrest with hline | hline
    · obtain ⟨more, rfl, -⟩ := h.of_append_cons hline
      exact nomatch hbreak
    · obtain ⟨more, rfl, hmore⟩ := h.of_append_cons hline
      -- a carriage return is not the last character, so the next one is known as well
      obtain ⟨more', rfl, -⟩ := (h.tail_of_ne (by decide)).of_append_cons hmore.symm
      exact nomatch hbreak

theorem skipComment?_suffix (h : skipComment? cs = some rest) : rest <:+ cs := by
  unfold skipComment? at h
  dsimp only at h
  split at h
  · obtain rfl := Option.some.inj h
    exact List.dropWhile_suffix isVisible
  · exact nomatch h

theorem EndsLine.skipComment? (h : EndsLine cs) (hrest : skipComment? cs = some rest) :
    EndsLine rest := by
  unfold Toml.skipComment? at hrest
  dsimp only at hrest
  split at hrest
  · obtain rfl := Option.some.inj hrest
    exact h.dropWhile (by decide)
  · exact nomatch hrest

theorem skipComment?_append (h : EndsLine cs) :
    skipComment? (cs ++ z) = (skipComment? cs).map (· ++ z) := by
  have hvisible : EndsLine (cs.dropWhile isVisible) := h.dropWhile (by decide)
  have hempty : ¬(cs.dropWhile isVisible).isEmpty = true :=
    mt List.isEmpty_iff.mp hvisible.ne_nil
  have hempty' : ¬(cs.dropWhile isVisible ++ z).isEmpty = true := by simp [hvisible.ne_nil]
  unfold skipComment?
  dsimp only
  rw [dropWhile_append_of_ne_nil hvisible.ne_nil, lineBreak?_append hvisible, Option.isSome_map]
  by_cases hbreak : (lineBreak? (cs.dropWhile isVisible)).isSome = true
  · rw [if_pos (Or.inr hbreak), if_pos (Or.inr hbreak)]
    rfl
  · rw [if_neg (not_or.mpr ⟨hempty, hbreak⟩), if_neg (not_or.mpr ⟨hempty', hbreak⟩)]
    rfl

/-- What follows a comment that a text may begin with. -/
def pastComment? (cs : List Char) : Option (List Char) :=
  match cs with
  | '#' :: rest => skipComment? rest
  | _ => some cs

theorem endLine?_eq :
    endLine? cs =
      match pastComment? (skipSpace cs) with
      | some [] => some []
      | some rest => lineBreak? rest
      | none => none := rfl

theorem pastComment?_of_ne (h : ∀ rest, cs ≠ '#' :: rest) : pastComment? cs = some cs := by
  unfold pastComment?
  split
  · exact absurd rfl (h _)
  · rfl

theorem pastComment?_suffix (h : pastComment? cs = some rest) : rest <:+ cs := by
  unfold pastComment? at h
  split at h
  · exact (skipComment?_suffix h).trans (List.suffix_cons _ _)
  · obtain rfl := Option.some.inj h
    exact List.suffix_rfl

theorem EndsLine.pastComment? (h : EndsLine cs) (hrest : pastComment? cs = some rest) :
    EndsLine rest := by
  unfold Toml.pastComment? at hrest
  split at hrest
  · exact (h.tail_of_ne (by decide)).skipComment? hrest
  · obtain rfl := Option.some.inj hrest
    exact h

theorem pastComment?_append (h : EndsLine cs) :
    pastComment? (cs ++ z) = (pastComment? cs).map (· ++ z) := by
  by_cases hmark : ∃ more, cs = '#' :: more
  · obtain ⟨more, rfl⟩ := hmark
    exact skipComment?_append (h.tail_of_ne (by decide))
  · obtain ⟨c, more, rfl⟩ := List.exists_cons_of_ne_nil h.ne_nil
    have hc : c ≠ '#' := fun hc => hmark ⟨more, by rw [hc]⟩
    rw [pastComment?_of_ne fun _ heq => hc (List.cons.inj heq).1]
    exact pastComment?_of_ne fun _ heq => hc (List.cons.inj heq).1

theorem endLine?_suffix (h : endLine? cs = some rest) : rest <:+ cs := by
  rw [endLine?_eq] at h
  split at h
  · obtain rfl := Option.some.inj h
    exact List.nil_suffix
  · rename_i more _ hmore
    exact (lineBreak?_suffix h).1.trans ((pastComment?_suffix hmore).trans (skipSpace_suffix cs))
  · exact nomatch h

theorem endLine?_append (h : EndsLine cs) :
    endLine? (cs ++ z) = (endLine? cs).map (· ++ z) := by
  rw [endLine?_eq, endLine?_eq, skipSpace_append h.skipSpace, pastComment?_append h.skipSpace]
  cases hmore : pastComment? (skipSpace cs) with
  | none => rfl
  | some more =>
    have hends := h.skipSpace.pastComment? hmore
    obtain ⟨c, tail, rfl⟩ := List.exists_cons_of_ne_nil hends.ne_nil
    exact lineBreak?_append hends

/-! ### Passing over lines

Each step takes a character at least, so as many steps as there are characters are enough. -/

theorem skipLines?_comment {fuel : Nat} (h : skipSpace cs = '#' :: rest) :
    skipLines? (fuel + 1) cs = (skipComment? rest).bind (skipLines? fuel) := by
  rw [skipLines?, h]
  rfl

theorem skipLines?_of_ne {fuel : Nat} (h : ∀ rest, skipSpace cs ≠ '#' :: rest) :
    skipLines? (fuel + 1) cs =
      match lineBreak? (skipSpace cs) with
      | some rest => skipLines? fuel rest
      | none => some (skipSpace cs) := by
  rw [skipLines?]
  split
  · exact absurd ‹_› (h _)
  · rfl

theorem skipLines?_of_lt {fuel fuel' : Nat} (h : cs.length < fuel) (h' : cs.length < fuel') :
    skipLines? fuel cs = skipLines? fuel' cs := by
  induction fuel generalizing fuel' cs with
  | zero => omega
  | succ fuel ih =>
    obtain ⟨fuel', rfl⟩ : ∃ n, fuel' = n + 1 := ⟨fuel' - 1, by omega⟩
    have hspace := (skipSpace_suffix cs).length_le
    by_cases hmark : ∃ rest, skipSpace cs = '#' :: rest
    · obtain ⟨rest, hrest⟩ := hmark
      rw [skipLines?_comment hrest, skipLines?_comment hrest]
      cases hmore : skipComment? rest with
      | none => rfl
      | some more =>
        have hlength := (skipComment?_suffix hmore).length_le
        rw [hrest, List.length_cons] at hspace
        exact ih (by omega) (by omega)
    · rw [skipLines?_of_ne (not_exists.mp hmark), skipLines?_of_ne (not_exists.mp hmark)]
      cases hbreak : lineBreak? (skipSpace cs) with
      | none => rfl
      | some rest =>
        have hlength := (lineBreak?_suffix hbreak).2
        exact ih (by omega) (by omega)

theorem skipBlankLines?_comment (h : skipSpace cs = '#' :: rest) :
    skipBlankLines? cs = (skipComment? rest).bind skipBlankLines? := by
  rw [skipBlankLines?, skipLines?_comment h]
  have hspace := (skipSpace_suffix cs).length_le
  cases hmore : skipComment? rest with
  | none => rfl
  | some more =>
    have hlength := (skipComment?_suffix hmore).length_le
    rw [h, List.length_cons] at hspace
    exact skipLines?_of_lt (by omega) (by omega)

theorem skipBlankLines?_of_ne (h : ∀ rest, skipSpace cs ≠ '#' :: rest) :
    skipBlankLines? cs =
      match lineBreak? (skipSpace cs) with
      | some rest => skipBlankLines? rest
      | none => some (skipSpace cs) := by
  rw [skipBlankLines?, skipLines?_of_ne h]
  have hspace := (skipSpace_suffix cs).length_le
  cases hbreak : lineBreak? (skipSpace cs) with
  | none => rfl
  | some rest =>
    have hlength := (lineBreak?_suffix hbreak).2
    exact skipLines?_of_lt (by omega) (by omega)

theorem skipBlankLines?_suffix (h : skipBlankLines? cs = some rest) : rest <:+ cs := by
  induction hlength : cs.length using Nat.strongRecOn generalizing cs with
  | ind n ih =>
    subst hlength
    have hspace := (skipSpace_suffix cs).length_le
    by_cases hmark : ∃ more, skipSpace cs = '#' :: more
    · obtain ⟨more, hmore⟩ := hmark
      rw [skipBlankLines?_comment hmore] at h
      obtain ⟨past, hpast, hrest⟩ := Option.bind_eq_some_iff.mp h
      have hsuffix : past <:+ cs := (skipComment?_suffix hpast).trans
        ((List.suffix_cons _ _).trans (hmore ▸ skipSpace_suffix cs))
      have hshorter := (skipComment?_suffix hpast).length_le
      rw [hmore, List.length_cons] at hspace
      exact (ih past.length (by omega) hrest rfl).trans hsuffix
    · rw [skipBlankLines?_of_ne (not_exists.mp hmark)] at h
      cases hbreak : lineBreak? (skipSpace cs) with
      | none =>
        rw [hbreak] at h
        obtain rfl := Option.some.inj h
        exact skipSpace_suffix cs
      | some past =>
        rw [hbreak] at h
        obtain ⟨hsuffix, hshorter⟩ := lineBreak?_suffix hbreak
        exact (ih past.length (by omega) h rfl).trans (hsuffix.trans (skipSpace_suffix cs))

/-- Complete lines are passed over up to the first character of a statement, or altogether. -/
theorem skipBlankLines?_append (h : cs = [] ∨ EndsLine cs) :
    skipBlankLines? (cs ++ z) =
      (skipBlankLines? cs).bind fun rest =>
        if rest = [] then skipBlankLines? z else some (rest ++ z) := by
  induction hlength : cs.length using Nat.strongRecOn generalizing cs with
  | ind n ih =>
    subst hlength
    rcases h with rfl | h
    · rfl
    have hspace := (skipSpace_suffix cs).length_le
    have happend : skipSpace (cs ++ z) = skipSpace cs ++ z := skipSpace_append h.skipSpace
    by_cases hmark : ∃ more, skipSpace cs = '#' :: more
    · obtain ⟨more, hmore⟩ := hmark
      have hends : EndsLine more := (hmore ▸ h.skipSpace).tail_of_ne (by decide)
      rw [hmore, List.cons_append] at happend
      rw [skipBlankLines?_comment hmore, skipBlankLines?_comment happend,
        skipComment?_append hends]
      cases hpast : skipComment? more with
      | none => rfl
      | some past =>
        have hshorter := (skipComment?_suffix hpast).length_le
        rw [hmore, List.length_cons] at hspace
        exact ih past.length (by omega) (Or.inr (hends.skipComment? hpast)) rfl
    · have hends : EndsLine (skipSpace cs) := h.skipSpace
      have hmark' : ∀ more, skipSpace (cs ++ z) ≠ '#' :: more := by
        intro more heq
        obtain ⟨tail, htail, -⟩ := hends.of_append_cons (happend.symm.trans heq)
        exact hmark ⟨tail, htail⟩
      rw [skipBlankLines?_of_ne (not_exists.mp hmark), skipBlankLines?_of_ne hmark', happend,
        lineBreak?_append hends]
      cases hbreak : lineBreak? (skipSpace cs) with
      | none => exact (if_neg hends.ne_nil).symm
      | some past =>
        obtain ⟨hsuffix, hshorter⟩ := lineBreak?_suffix hbreak
        have hpast : past = [] ∨ EndsLine past :=
          (eq_or_ne past []).imp_right (hends.of_suffix hsuffix)
        exact ih past.length (by omega) hpast rfl

theorem skipBlankLines?_append_of_endsLine (h : skipBlankLines? cs = some rest)
    (hends : EndsLine rest) : skipBlankLines? (cs ++ z) = some (rest ++ z) := by
  rw [skipBlankLines?_append (Or.inr (hends.mono (skipBlankLines?_suffix h))), h]
  exact if_neg hends.ne_nil

/-! ### Texts -/

/-- Whether one or three quotes open a text does not depend on what follows complete lines. -/
theorem EndsLine.append_ne {quote : Char} (h : EndsLine rest) (hquote : quote ≠ '\n')
    (hmore : ∀ more, rest ≠ quote :: quote :: more) (more : List Char) :
    rest ++ z ≠ quote :: quote :: more := by
  intro heq
  obtain ⟨more', rfl, hmore'⟩ := h.of_append_cons heq
  obtain ⟨more'', rfl, -⟩ := (h.tail_of_ne hquote).of_append_cons hmore'.symm
  exact hmore more'' rfl

/-- A character between quotes that does not close the text, nor open an escape with the next. -/
theorem splitBasic_cons {c : Char} (hslash : ∀ more, c = '\\' → rest ≠ '\\' :: more)
    (hquote : ∀ more, c = '\\' → rest ≠ '"' :: more) (hclose : c ≠ '"') (hline : c ≠ '\n') :
    splitBasic (c :: rest) = (c :: (splitBasic rest).1, (splitBasic rest).2) := by
  rw [splitBasic, if_neg hclose, if_neg hline]
  · exact hslash
  · exact hquote

theorem splitBasic_parts (cs : List Char) : (splitBasic cs).1 ++ (splitBasic cs).2 = cs := by
  fun_induction splitBasic cs with
  | case1 => rfl
  | case2 rest t r hsplit ih =>
    rw [hsplit] at ih
    rw [← ih]
    rfl
  | case3 rest t r hsplit ih =>
    rw [hsplit] at ih
    rw [← ih]
    rfl
  | case4 rest _ _ => rfl
  | case5 rest _ _ _ => rfl
  | case6 c rest _ _ _ _ t r hsplit ih =>
    rw [hsplit] at ih
    rw [← ih]
    rfl

theorem splitBasic_append (h : EndsLine (splitBasic cs).2) :
    splitBasic (cs ++ z) = ((splitBasic cs).1, (splitBasic cs).2 ++ z) := by
  fun_induction splitBasic cs with
  | case1 => exact absurd rfl h.ne_nil
  | case2 rest t r hsplit ih =>
    rw [hsplit] at ih
    rw [List.cons_append, List.cons_append, splitBasic, ih h]
  | case3 rest t r hsplit ih =>
    rw [hsplit] at ih
    rw [List.cons_append, List.cons_append, splitBasic, ih h]
  | case4 rest _ _ => rw [List.cons_append, splitBasic, if_pos rfl] <;> simp
  | case5 rest _ _ _ => rw [List.cons_append, splitBasic, if_neg (by decide), if_pos rfl] <;> simp
  | case6 c rest hslash hquote hclose hline t r hsplit ih =>
    have hparts := splitBasic_parts rest
    rw [hsplit] at ih hparts
    have hrest : EndsLine rest := h.mono ⟨t, hparts⟩
    rw [List.cons_append, splitBasic_cons ?_ ?_ hclose hline, ih h]
    · exact fun more hc => hrest.append_ne_cons (fun more' => hslash more' hc) more
    · exact fun more hc => hrest.append_ne_cons (fun more' => hquote more' hc) more

theorem splitLiteral_parts (cs : List Char) :
    (splitLiteral cs).1 ++ (splitLiteral cs).2 = cs := by
  fun_induction splitLiteral cs with
  | case1 => rfl
  | case2 rest => rfl
  | case3 rest _ => rfl
  | case4 c rest _ _ t r hsplit ih =>
    rw [hsplit] at ih
    rw [← ih]
    rfl

theorem splitLiteral_append (h : EndsLine (splitLiteral cs).2) :
    splitLiteral (cs ++ z) = ((splitLiteral cs).1, (splitLiteral cs).2 ++ z) := by
  fun_induction splitLiteral cs with
  | case1 => exact absurd rfl h.ne_nil
  | case2 rest => rw [List.cons_append, splitLiteral, if_pos rfl]
  | case3 rest _ => rw [List.cons_append, splitLiteral, if_neg (by decide), if_pos rfl]
  | case4 c rest hclose hline t r hsplit ih =>
    rw [hsplit] at ih
    rw [List.cons_append, splitLiteral, if_neg hclose, if_neg hline, ih h]

theorem closeLines_parts (quote : Char) (cs : List Char) :
    (closeLines quote cs).1 ++ (closeLines quote cs).2 = quote :: quote :: quote :: cs := by
  have hmore : (cs.take 2).takeWhile (· = quote) <+: cs :=
    (List.takeWhile_prefix _).trans (List.take_prefix 2 cs)
  have hdrop := List.prefix_iff_eq_append.mp hmore
  simp only [closeLines, List.cons_append, hdrop]

theorem closeLines_append {quote : Char} (h : EndsLine (closeLines quote cs).2) :
    closeLines quote (cs ++ z) = ((closeLines quote cs).1, (closeLines quote cs).2 ++ z) := by
  match cs, h with
  | [], h => exact absurd rfl h.ne_nil
  | [c], h =>
    by_cases hc : c = quote
    · have hnil : (closeLines quote [c]).2 = [] := by simp [closeLines, hc]
      exact absurd hnil h.ne_nil
    · cases z <;> simp [closeLines, hc]
  | c :: d :: more, _ =>
    have htake : (c :: d :: more ++ z).take 2 = [c, d] := rfl
    have hlength : ([c, d].takeWhile (· = quote)).length ≤ (c :: d :: more).length :=
      (List.takeWhile_prefix _).length_le.trans (by simp)
    have hdrop := @List.drop_append_of_le_length _ _ z _ hlength
    simp only [closeLines, htake, hdrop]
    rfl

theorem splitBasicLines_cons {c : Char} (hslash : ∀ more, c = '\\' → rest ≠ '\\' :: more)
    (hquote : ∀ more, c = '\\' → rest ≠ '"' :: more)
    (hclose : ∀ more, c = '"' → rest ≠ '"' :: '"' :: more) :
    splitBasicLines (c :: rest) = (c :: (splitBasicLines rest).1, (splitBasicLines rest).2) := by
  rw [splitBasicLines]
  · exact hslash
  · exact hquote
  · exact hclose

theorem splitBasicLines_parts (cs : List Char) :
    (splitBasicLines cs).1 ++ (splitBasicLines cs).2 = cs := by
  fun_induction splitBasicLines cs with
  | case1 => rfl
  | case2 rest t r hsplit ih =>
    rw [hsplit] at ih
    rw [← ih]
    rfl
  | case3 rest t r hsplit ih =>
    rw [hsplit] at ih
    rw [← ih]
    rfl
  | case4 rest => exact closeLines_parts '"' rest
  | case5 c rest _ _ _ t r hsplit ih =>
    rw [hsplit] at ih
    rw [← ih]
    rfl

theorem splitBasicLines_append (h : EndsLine (splitBasicLines cs).2) :
    splitBasicLines (cs ++ z) = ((splitBasicLines cs).1, (splitBasicLines cs).2 ++ z) := by
  fun_induction splitBasicLines cs with
  | case1 => exact absurd rfl h.ne_nil
  | case2 rest t r hsplit ih =>
    rw [hsplit] at ih
    rw [List.cons_append, List.cons_append, splitBasicLines, ih h]
  | case3 rest t r hsplit ih =>
    rw [hsplit] at ih
    rw [List.cons_append, List.cons_append, splitBasicLines, ih h]
  | case4 rest => exact closeLines_append h
  | case5 c rest hslash hquote hclose t r hsplit ih =>
    have hparts := splitBasicLines_parts rest
    rw [hsplit] at ih hparts
    have hrest : EndsLine rest := h.mono ⟨t, hparts⟩
    rw [List.cons_append, splitBasicLines_cons ?_ ?_ ?_, ih h]
    · exact fun more hc => hrest.append_ne_cons (fun more' => hslash more' hc) more
    · exact fun more hc => hrest.append_ne_cons (fun more' => hquote more' hc) more
    · exact fun more hc => hrest.append_ne (by decide) (fun more' => hclose more' hc) more

theorem splitLiteralLines_cons {c : Char}
    (hclose : ∀ more, c = '\'' → rest ≠ '\'' :: '\'' :: more) :
    splitLiteralLines (c :: rest) =
      (c :: (splitLiteralLines rest).1, (splitLiteralLines rest).2) := by
  rw [splitLiteralLines]
  exact hclose

theorem splitLiteralLines_parts (cs : List Char) :
    (splitLiteralLines cs).1 ++ (splitLiteralLines cs).2 = cs := by
  fun_induction splitLiteralLines cs with
  | case1 => rfl
  | case2 rest => exact closeLines_parts '\'' rest
  | case3 c rest _ t r hsplit ih =>
    rw [hsplit] at ih
    rw [← ih]
    rfl

theorem splitLiteralLines_append (h : EndsLine (splitLiteralLines cs).2) :
    splitLiteralLines (cs ++ z) =
      ((splitLiteralLines cs).1, (splitLiteralLines cs).2 ++ z) := by
  fun_induction splitLiteralLines cs with
  | case1 => exact absurd rfl h.ne_nil
  | case2 rest => exact closeLines_append h
  | case3 c rest hclose t r hsplit ih =>
    have hparts := splitLiteralLines_parts rest
    rw [hsplit] at ih hparts
    have hrest : EndsLine rest := h.mono ⟨t, hparts⟩
    have hclose' : ∀ more, c = '\'' → rest ++ z ≠ '\'' :: '\'' :: more := fun more hc =>
      hrest.append_ne (by decide) (fun more' => hclose more' hc) more
    rw [List.cons_append, splitLiteralLines_cons hclose', ih h]

section SplitText

variable {rest : List Char}

theorem splitText?_basicLines :
    splitText? ('"' :: '"' :: '"' :: rest) =
      some ('"' :: '"' :: '"' :: (splitBasicLines rest).1, (splitBasicLines rest).2) := rfl

theorem splitText?_basic (h : ∀ more, rest ≠ '"' :: '"' :: more) :
    splitText? ('"' :: rest) = some ('"' :: (splitBasic rest).1, (splitBasic rest).2) := by
  rw [splitText?]
  exact h

theorem splitText?_literalLines :
    splitText? ('\'' :: '\'' :: '\'' :: rest) =
      some ('\'' :: '\'' :: '\'' :: (splitLiteralLines rest).1, (splitLiteralLines rest).2) := rfl

theorem splitText?_literal (h : ∀ more, rest ≠ '\'' :: '\'' :: more) :
    splitText? ('\'' :: rest) = some ('\'' :: (splitLiteral rest).1, (splitLiteral rest).2) := by
  rw [splitText?]
  exact h

theorem splitText?_of_ne (hbasic : ∀ more, cs ≠ '"' :: more)
    (hliteral : ∀ more, cs ≠ '\'' :: more) : splitText? cs = none := by
  rw [splitText?]
  · exact fun _ => hbasic _
  · exact hbasic
  · exact fun _ => hliteral _
  · exact hliteral

/-- The ways in which a text can begin. -/
theorem splitText?_cases (cs : List Char) :
    (∃ rest, cs = '"' :: '"' :: '"' :: rest) ∨
      (∃ rest, cs = '"' :: rest ∧ ∀ more, rest ≠ '"' :: '"' :: more) ∨
      (∃ rest, cs = '\'' :: '\'' :: '\'' :: rest) ∨
      (∃ rest, cs = '\'' :: rest ∧ ∀ more, rest ≠ '\'' :: '\'' :: more) ∨
      (∀ more, cs ≠ '"' :: more) ∧ ∀ more, cs ≠ '\'' :: more := by
  by_cases hbasic : ∃ rest, cs = '"' :: rest
  · obtain ⟨rest, rfl⟩ := hbasic
    by_cases hlines : ∃ more, rest = '"' :: '"' :: more
    · obtain ⟨more, rfl⟩ := hlines
      exact Or.inl ⟨more, rfl⟩
    · exact Or.inr (Or.inl ⟨rest, rfl, not_exists.mp hlines⟩)
  · by_cases hliteral : ∃ rest, cs = '\'' :: rest
    · obtain ⟨rest, rfl⟩ := hliteral
      by_cases hlines : ∃ more, rest = '\'' :: '\'' :: more
      · obtain ⟨more, rfl⟩ := hlines
        exact Or.inr (Or.inr (Or.inl ⟨more, rfl⟩))
      · exact Or.inr (Or.inr (Or.inr (Or.inl ⟨rest, rfl, not_exists.mp hlines⟩)))
    · exact Or.inr (Or.inr (Or.inr (Or.inr ⟨not_exists.mp hbasic, not_exists.mp hliteral⟩)))

theorem splitText?_parts {t r : List Char} (h : splitText? cs = some (t, r)) : t ++ r = cs := by
  rcases splitText?_cases cs with ⟨rest, rfl⟩ | ⟨rest, rfl, hmore⟩ | ⟨rest, rfl⟩ |
    ⟨rest, rfl, hmore⟩ | ⟨hbasic, hliteral⟩
  · rw [splitText?_basicLines] at h
    obtain ⟨rfl, rfl⟩ := Prod.mk.inj (Option.some.inj h)
    simp only [List.cons_append, splitBasicLines_parts]
  · rw [splitText?_basic hmore] at h
    obtain ⟨rfl, rfl⟩ := Prod.mk.inj (Option.some.inj h)
    simp only [List.cons_append, splitBasic_parts]
  · rw [splitText?_literalLines] at h
    obtain ⟨rfl, rfl⟩ := Prod.mk.inj (Option.some.inj h)
    simp only [List.cons_append, splitLiteralLines_parts]
  · rw [splitText?_literal hmore] at h
    obtain ⟨rfl, rfl⟩ := Prod.mk.inj (Option.some.inj h)
    simp only [List.cons_append, splitLiteral_parts]
  · rw [splitText?_of_ne hbasic hliteral] at h
    exact nomatch h

theorem splitText?_append {t r : List Char} (h : splitText? cs = some (t, r)) (hr : EndsLine r) :
    splitText? (cs ++ z) = some (t, r ++ z) := by
  rcases splitText?_cases cs with ⟨rest, rfl⟩ | ⟨rest, rfl, hmore⟩ | ⟨rest, rfl⟩ |
    ⟨rest, rfl, hmore⟩ | ⟨hbasic, hliteral⟩
  · rw [splitText?_basicLines] at h
    obtain ⟨rfl, rfl⟩ := Prod.mk.inj (Option.some.inj h)
    simp only [List.cons_append, splitText?_basicLines, splitBasicLines_append hr]
  · rw [splitText?_basic hmore] at h
    obtain ⟨rfl, rfl⟩ := Prod.mk.inj (Option.some.inj h)
    have hrest : EndsLine rest := hr.mono ⟨_, splitBasic_parts rest⟩
    rw [List.cons_append, splitText?_basic (hrest.append_ne (by decide) hmore),
      splitBasic_append hr]
  · rw [splitText?_literalLines] at h
    obtain ⟨rfl, rfl⟩ := Prod.mk.inj (Option.some.inj h)
    simp only [List.cons_append, splitText?_literalLines, splitLiteralLines_append hr]
  · rw [splitText?_literal hmore] at h
    obtain ⟨rfl, rfl⟩ := Prod.mk.inj (Option.some.inj h)
    have hrest : EndsLine rest := hr.mono ⟨_, splitLiteral_parts rest⟩
    rw [List.cons_append, splitText?_literal (hrest.append_ne (by decide) hmore),
      splitLiteral_append hr]
  · rw [splitText?_of_ne hbasic hliteral] at h
    exact nomatch h

theorem splitText?_append_of_none (hne : cs ≠ []) (h : splitText? cs = none) :
    splitText? (cs ++ z) = none := by
  obtain ⟨c, more, rfl⟩ := List.exists_cons_of_ne_nil hne
  rcases splitText?_cases (c :: more) with ⟨rest, hrest⟩ | ⟨rest, hrest, hmore⟩ | ⟨rest, hrest⟩ |
    ⟨rest, hrest, hmore⟩ | ⟨hbasic, hliteral⟩
  · rw [hrest] at h
    exact nomatch h
  · rw [hrest, splitText?_basic hmore] at h
    exact nomatch h
  · rw [hrest] at h
    exact nomatch h
  · rw [hrest, splitText?_literal hmore] at h
    exact nomatch h
  · refine splitText?_of_ne (fun more' heq => ?_) fun more' heq => ?_
    · exact hbasic more (congrArg (· :: more) (List.cons.inj heq).1)
    · exact hliteral more (congrArg (· :: more) (List.cons.inj heq).1)

end SplitText

end Shakedown.Toml
