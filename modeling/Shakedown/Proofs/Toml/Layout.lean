import Shakedown.Proofs.Toml.Statements

/-!
# Blanks, comments and line ends

Between statements, and between the items of an array, there may be blanks, comments and line
breaks, and a line may end with blanks and a comment behind its statement. They are passed over,
whatever follows them.
-/

namespace Shakedown.Toml

variable {b c e f l z : List Char}

def Blanks (cs : List Char) : Prop :=
  ∀ c ∈ cs, isSpace c = true

/-- A comment up to the end of its line, or nothing. -/
def Comment (cs : List Char) : Prop :=
  cs = [] ∨ ∃ body, cs = '#' :: body ∧ ∀ c ∈ body, isVisible c = true

def LineBreak (cs : List Char) : Prop :=
  cs = ['\n'] ∨ cs = ['\r', '\n']

/-- What may follow a statement in its line, and the line break. -/
def LineEnd (cs : List Char) : Prop :=
  ∃ b c l, Blanks b ∧ Comment c ∧ LineBreak l ∧ cs = b ++ (c ++ l)

/-- Lines without statements, and blanks behind them. -/
inductive Filler : List Char → Prop
  | blanks {b : List Char} : Blanks b → Filler b
  | line {e f : List Char} : LineEnd e → Filler f → Filler (e ++ f)

theorem blanks_nil : Blanks [] :=
  nofun

theorem blanks_space : Blanks [' '] :=
  List.forall_mem_singleton.mpr rfl

theorem filler_nil : Filler [] :=
  .blanks blanks_nil

theorem lineEnd_newline : LineEnd ['\n'] :=
  ⟨[], [], ['\n'], blanks_nil, Or.inl rfl, Or.inl rfl, rfl⟩

/-! ### Blanks -/

theorem skipSpace_cons {c : Char} (h : isSpace c = false) (cs : List Char) :
    skipSpace (c :: cs) = c :: cs :=
  List.dropWhile_cons_of_neg (by rw [h]; exact Bool.false_ne_true)

theorem skipSpace_blanks (hb : Blanks b) : skipSpace (b ++ z) = skipSpace z :=
  List.dropWhile_append_of_pos hb

/-- A character that nothing is passed over before. -/
def Starts (c : Char) : Prop :=
  isSpace c = false ∧ c ≠ '#' ∧ c ≠ '\n' ∧ c ≠ '\r'

instance (c : Char) : Decidable (Starts c) :=
  inferInstanceAs (Decidable (_ ∧ _))

theorem skipBlankLines?_blanks (hb : Blanks b) : skipBlankLines? (b ++ z) = skipBlankLines? z := by
  have hskip := skipSpace_blanks (z := z) hb
  by_cases hmark : ∃ rest, skipSpace z = '#' :: rest
  · obtain ⟨rest, hrest⟩ := hmark
    rw [skipBlankLines?_comment hrest, skipBlankLines?_comment (hskip.trans hrest)]
  · rw [skipBlankLines?_of_ne (not_exists.mp hmark), skipBlankLines?_of_ne, hskip]
    rw [hskip]
    exact not_exists.mp hmark

theorem skipBlankLines?_starts {d : Char} (hd : Starts d) (cs : List Char) :
    skipBlankLines? (d :: cs) = some (d :: cs) := by
  obtain ⟨hspace, hmark, hline, hreturn⟩ := hd
  have hskip : skipSpace (d :: cs) = d :: cs := skipSpace_cons hspace cs
  have hbreak : lineBreak? (d :: cs) = none := by
    unfold lineBreak?
    split
    · exact absurd (List.cons.inj ‹_›).1 hline
    · exact absurd (List.cons.inj ‹_›).1 hreturn
    · rfl
  rw [skipBlankLines?_of_ne, hskip, hbreak]
  rw [hskip]
  exact fun rest heq => hmark (List.cons.inj heq).1

/-! ### Line ends -/

theorem LineBreak.ne_nil (hl : LineBreak l) : l ++ z ≠ [] := by
  rcases hl with rfl | rfl <;> exact List.cons_ne_nil _ _

theorem LineBreak.ne_mark (hl : LineBreak l) (rest : List Char) : l ++ z ≠ '#' :: rest := by
  rcases hl with rfl | rfl <;> exact fun heq => absurd (List.cons.inj heq).1 (by decide)

theorem LineBreak.skipSpace (hl : LineBreak l) : skipSpace (l ++ z) = l ++ z := by
  rcases hl with rfl | rfl <;> exact skipSpace_cons (by decide) _

theorem LineBreak.lineBreak? (hl : LineBreak l) : lineBreak? (l ++ z) = some z := by
  rcases hl with rfl | rfl <;> rfl

theorem LineBreak.skipBlankLines? (hl : LineBreak l) :
    skipBlankLines? (l ++ z) = skipBlankLines? z := by
  rw [skipBlankLines?_of_ne, hl.skipSpace, hl.lineBreak?]
  rw [hl.skipSpace]
  exact hl.ne_mark

theorem skipComment?_lineBreak {body : List Char} (hbody : ∀ c ∈ body, isVisible c = true)
    (hl : LineBreak l) : skipComment? (body ++ (l ++ z)) = some (l ++ z) := by
  have hskip : (body ++ (l ++ z)).dropWhile isVisible = l ++ z := by
    rw [List.dropWhile_append_of_pos hbody]
    rcases hl with rfl | rfl <;> exact List.dropWhile_cons_of_neg (by decide)
  unfold skipComment?
  dsimp only
  rw [hskip, if_pos]
  rw [hl.lineBreak?]
  exact Or.inr rfl

theorem skipComment?_all {body : List Char} (hbody : ∀ c ∈ body, isVisible c = true) :
    skipComment? body = some [] := by
  have hskip : body.dropWhile isVisible = [] := List.dropWhile_eq_nil_iff.mpr hbody
  unfold skipComment?
  dsimp only
  rw [hskip]
  rfl

theorem Comment.skipSpace_lineBreak (hc : Comment c) (hl : LineBreak l) :
    skipSpace (c ++ (l ++ z)) = c ++ (l ++ z) := by
  rcases hc with rfl | ⟨body, rfl, -⟩
  · exact hl.skipSpace
  · exact skipSpace_cons (by decide) _

theorem Comment.skipSpace (hc : Comment c) : skipSpace c = c := by
  rcases hc with rfl | ⟨body, rfl, -⟩
  · rfl
  · exact skipSpace_cons (by decide) _

theorem endLine?_lineEnd (he : LineEnd e) : endLine? (e ++ z) = some z := by
  obtain ⟨b, c, l, hb, hc, hl, rfl⟩ := he
  have hpast : pastComment? (c ++ (l ++ z)) = some (l ++ z) := by
    rcases hc with rfl | ⟨body, rfl, hbody⟩
    · exact pastComment?_of_ne hl.ne_mark
    · exact skipComment?_lineBreak hbody hl
  have hskip : skipSpace (b ++ (c ++ l) ++ z) = c ++ (l ++ z) := by
    rw [List.append_assoc, List.append_assoc, skipSpace_blanks hb, hc.skipSpace_lineBreak hl]
  rw [endLine?_eq, hskip, hpast]
  obtain ⟨d, more, hmore⟩ := List.exists_cons_of_ne_nil (hl.ne_nil (z := z))
  rw [hmore]
  dsimp only
  rw [← hmore, hl.lineBreak?]

/-- The last line of a document needs no line break. -/
theorem endLine?_last (hb : Blanks b) (hc : Comment c) : endLine? (b ++ c) = some [] := by
  have hpast : pastComment? c = some [] := by
    rcases hc with rfl | ⟨body, rfl, hbody⟩
    · rfl
    · exact skipComment?_all hbody
  rw [endLine?_eq, skipSpace_blanks hb, hc.skipSpace, hpast]

theorem skipBlankLines?_lineEnd (he : LineEnd e) :
    skipBlankLines? (e ++ z) = skipBlankLines? z := by
  obtain ⟨b, c, l, hb, hc, hl, rfl⟩ := he
  rw [List.append_assoc, List.append_assoc, skipBlankLines?_blanks hb]
  rcases hc with rfl | ⟨body, rfl, hbody⟩
  · exact hl.skipBlankLines?
  · have hmark : skipSpace ('#' :: (body ++ (l ++ z))) = '#' :: (body ++ (l ++ z)) :=
      skipSpace_cons (by decide) _
    rw [List.cons_append, skipBlankLines?_comment hmark, skipComment?_lineBreak hbody hl]
    exact hl.skipBlankLines?

theorem skipBlankLines?_comment_last (hc : Comment c) : skipBlankLines? c = some [] := by
  rcases hc with rfl | ⟨body, rfl, hbody⟩
  · rfl
  · have hmark : skipSpace ('#' :: body) = '#' :: body := skipSpace_cons (by decide) _
    rw [skipBlankLines?_comment hmark, skipComment?_all hbody]
    rfl

theorem Filler.skipBlankLines? (hf : Filler f) : skipBlankLines? (f ++ z) = skipBlankLines? z := by
  induction hf with
  | blanks hb => exact skipBlankLines?_blanks hb
  | line he _ ih => rw [List.append_assoc, skipBlankLines?_lineEnd he, ih]

end Shakedown.Toml
