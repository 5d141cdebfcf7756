import Shakedown.Proofs.Toml.Layout

/-!
# Texts and names

Characters that need no escape, and escapes, may stand between the quotes of a text on one line. The
text is then what they stand for, and it ends at the second quote. A name may stand between quotes
too, or as it is.
-/

namespace Shakedown.Toml

/-- Characters that may stand between two quotes, and what they stand for. -/
inductive Content : List Char → List Char → Prop
  | nil : Content [] []
  | plain {c : Char} {v w : List Char} :
    isVisible c = true → c ≠ '"' → c ≠ '\\' → Content v w → Content (c :: v) (c :: w)
  | escape {e v w : List Char} {d : Char} :
    readEscape? false e = some ([d], []) → Content v w → Content ('\\' :: (e ++ v)) (d :: w)

/-- Visible characters without quotes and backslashes stand for themselves. -/
theorem Content.of_plain {v : List Char}
    (h : ∀ c ∈ v, isVisible c = true ∧ c ≠ '"' ∧ c ≠ '\\') : Content v v := by
  induction v with
  | nil => exact .nil
  | cons c v ih =>
    obtain ⟨hvisible, hquote, hslash⟩ := h c List.mem_cons_self
    exact .plain hvisible hquote hslash (ih fun d hd => h d (List.mem_cons_of_mem c hd))

theorem Content.length_le {v w : List Char} (h : Content v w) : w.length ≤ v.length := by
  induction h with
  | nil => exact Nat.le_refl _
  | plain _ _ _ _ ih => exact Nat.succ_le_succ ih
  | @escape e v w d _ _ ih =>
    rw [List.length_cons, List.length_cons, List.length_append]
    omega

/-- Characters stand for themselves exactly when no backslash is among them. -/
theorem Content.eq_iff {v w : List Char} (h : Content v w) : w = v ↔ '\\' ∉ v := by
  constructor
  · intro heq hslash
    induction h with
    | nil => exact nomatch hslash
    | plain _ _ hc _ ih =>
      rcases List.mem_cons.mp hslash with hc' | hmore
      · exact hc hc'.symm
      · exact ih (List.cons.inj heq).2 hmore
    | @escape e v w d hescape hmore _ =>
      -- an escape is longer than the character it stands for
      have hlength := congrArg List.length heq
      have hle := hmore.length_le
      have hpos : 0 < e.length := by
        cases e with
        | nil => exact nomatch hescape
        | cons c more => exact Nat.succ_pos _
      rw [List.length_cons, List.length_cons, List.length_append] at hlength
      omega
  · intro hslash
    induction h with
    | nil => rfl
    | plain _ _ _ _ ih => rw [ih fun hmem => hslash (List.mem_cons_of_mem _ hmem)]
    | escape _ _ _ => exact absurd List.mem_cons_self hslash

/-- An escape does not depend on what follows it. -/
theorem readEscape?_append {e : List Char} {d : Char} (h : readEscape? false e = some ([d], []))
    (z : List Char) : readEscape? false (e ++ z) = some ([d], z) := by
  cases e with
  | nil => exact nomatch h
  | cons c rest =>
    rw [readEscape?] at h
    rw [List.cons_append, readEscape?]
    cases hletter : escaped? c with
    | some d' =>
      rw [hletter] at h
      obtain ⟨hd, rfl⟩ := Prod.mk.inj (Option.some.inj h)
      exact congrArg (fun ds => some (ds, z)) hd
    | none =>
      rw [hletter] at h
      cases hdigits : escapeDigits? c with
      | none =>
        rw [hdigits] at h
        exact nomatch h
      | some n =>
        rw [hdigits] at h
        dsimp only at h ⊢
        split at h
        · rename_i hn
          obtain ⟨d', hcode, heq⟩ := Option.map_eq_some_iff.mp h
          obtain ⟨hd, hrest⟩ := Prod.mk.inj heq
          have hlength : rest.length = n :=
            Nat.le_antisymm (List.drop_eq_nil_iff.mp hrest) hn
          have hn' : n ≤ (rest ++ z).length := by
            rw [List.length_append]
            omega
          rw [if_pos hn']
          rw [← hlength] at hcode ⊢
          rw [List.take_length] at hcode
          rw [List.take_left, List.drop_left, hcode]
          exact congrArg (fun ds => some (ds, z)) hd
        · exact nomatch h

/-- A character that a text on one line goes on with. -/
def GoesOn (c : Char) : Prop :=
  c ≠ '"' ∧ c ≠ '\\' ∧ c ≠ '\n'

theorem splitBasic_of_goesOn {c : Char} (h : GoesOn c) (cs : List Char) :
    splitBasic (c :: cs) = (c :: (splitBasic cs).1, (splitBasic cs).2) :=
  splitBasic_cons (fun _ hc => absurd hc h.2.1) (fun _ hc => absurd hc h.2.1) h.1 h.2.2

theorem splitBasic_append_of_goesOn {ds : List Char} (h : ∀ c ∈ ds, GoesOn c) (cs : List Char) :
    splitBasic (ds ++ cs) = (ds ++ (splitBasic cs).1, (splitBasic cs).2) := by
  induction ds with
  | nil => rfl
  | cons c more ih =>
    rw [List.cons_append, splitBasic_of_goesOn (h c List.mem_cons_self),
      ih fun d hd => h d (List.mem_cons_of_mem c hd)]
    rfl

theorem splitBasic_of_slash {ds : List Char} (h : ∀ c ∈ ds, GoesOn c) (hne : ds ≠ [])
    (cs : List Char) :
    splitBasic ('\\' :: (ds ++ cs)) =
      ('\\' :: (splitBasic (ds ++ cs)).1, (splitBasic (ds ++ cs)).2) := by
  obtain ⟨c, more, rfl⟩ := List.exists_cons_of_ne_nil hne
  obtain ⟨hquote, hslash, -⟩ := h c List.mem_cons_self
  refine splitBasic_cons (fun rest _ heq => ?_) (fun rest _ heq => ?_) (by decide) (by decide)
  · exact hslash (List.cons.inj heq).1
  · exact hquote (List.cons.inj heq).1

theorem goesOn_of_hexValue? {c : Char} {n : Nat} (h : Text.hexValue? c = some n) : GoesOn c := by
  refine ⟨?_, ?_, ?_⟩
  · rintro rfl
    exact nomatch h
  · rintro rfl
    exact nomatch h
  · rintro rfl
    exact nomatch h

theorem hexValue?_of_mapM {ds : List Char} {values : List Nat}
    (h : ds.mapM Text.hexValue? = some values) : ∀ c ∈ ds, ∃ n, Text.hexValue? c = some n := by
  induction ds generalizing values with
  | nil => exact nofun
  | cons d more ih =>
    rw [List.mapM_cons] at h
    obtain ⟨n, hn, h⟩ := Option.bind_eq_some_iff.mp h
    obtain ⟨later, hlater, -⟩ := Option.bind_eq_some_iff.mp h
    intro c hc
    rcases List.mem_cons.mp hc with rfl | hmore
    · exact ⟨n, hn⟩
    · exact ih hlater c hmore

theorem goesOn_of_codePoint? {ds : List Char} {d : Char} (h : codePoint? ds = some d) :
    ∀ c ∈ ds, GoesOn c := by
  unfold codePoint? at h
  split at h
  · exact nomatch h
  · rename_i values hvalues
    intro c hc
    obtain ⟨n, hn⟩ := hexValue?_of_mapM hvalues c hc
    exact goesOn_of_hexValue? hn

/-- The letters and digits of an escape do not close the text. -/
theorem goesOn_of_readEscape? {e : List Char} {d : Char}
    (h : readEscape? false e = some ([d], [])) :
    e = ['"'] ∨ e = ['\\'] ∨ ∀ c ∈ e, GoesOn c := by
  cases e with
  | nil => exact nomatch h
  | cons c rest =>
    by_cases hquote : c = '"'
    · subst hquote
      obtain rfl : rest = [] := (Prod.mk.inj (Option.some.inj h)).2
      exact Or.inl rfl
    by_cases hslash : c = '\\'
    · subst hslash
      obtain rfl : rest = [] := (Prod.mk.inj (Option.some.inj h)).2
      exact Or.inr (Or.inl rfl)
    have hline : c ≠ '\n' := by
      rintro rfl
      exact nomatch h
    refine Or.inr (Or.inr fun c' hc' => ?_)
    rcases List.mem_cons.mp hc' with rfl | hmore
    · exact ⟨hquote, hslash, hline⟩
    · rw [readEscape?] at h
      split at h
      · obtain rfl : rest = [] := (Prod.mk.inj (Option.some.inj h)).2
        exact nomatch hmore
      · split at h
        · obtain ⟨d', hcode, heq⟩ := Option.map_eq_some_iff.mp h
          have hdrop := (Prod.mk.inj heq).2
          rw [List.take_of_length_le (List.drop_eq_nil_iff.mp hdrop)] at hcode
          exact goesOn_of_codePoint? hcode c' hmore
        · exact nomatch h
      · rw [if_neg fun hlines => Bool.false_ne_true hlines.1] at h
        exact nomatch h

/-- The text goes on up to the second quote. -/
theorem Content.splitBasic_eq {v w : List Char} (h : Content v w) (z : List Char) :
    splitBasic (v ++ '"' :: z) = (v ++ ['"'], z) := by
  induction h with
  | nil => rfl
  | @plain c v w hvisible hquote hslash _ ih =>
    have hline : c ≠ '\n' := by
      rintro rfl
      exact absurd hvisible (by decide)
    rw [List.cons_append, splitBasic_of_goesOn ⟨hquote, hslash, hline⟩, ih]
    rfl
  | @escape e v w d hescape _ ih =>
    rw [List.cons_append, List.append_assoc]
    rcases goesOn_of_readEscape? hescape with rfl | rfl | hgoes
    · rw [List.singleton_append, splitBasic, ih]
      rfl
    · rw [List.singleton_append, splitBasic, ih]
      rfl
    · have hne : e ≠ [] := by
        rintro rfl
        rw [readEscape?] at hescape
        cases hescape
      rw [splitBasic_of_slash hgoes hne, splitBasic_append_of_goesOn hgoes, ih,
        List.cons_append, List.append_assoc]

/-- The characters between the quotes stand for what they should. -/
theorem Content.textChars?_eq {v w : List Char} (h : Content v w) {fuel : Nat}
    (hfuel : v.length < fuel) : textChars? true false fuel v = some w := by
  induction h generalizing fuel with
  | nil =>
    obtain ⟨n, rfl⟩ : ∃ n, fuel = n + 1 := ⟨fuel - 1, by omega⟩
    rfl
  | @plain c v w hvisible hquote hslash _ ih =>
    obtain ⟨n, rfl⟩ : ∃ n, fuel = n + 1 := ⟨fuel - 1, by omega⟩
    rw [List.length_cons] at hfuel
    have hno : ¬(true && decide (c = '\\')) = true := by simpa using hslash
    rw [textChars?, if_neg hno, if_pos hvisible, ih (by omega)]
    rfl
  | @escape e v w d hescape _ ih =>
    obtain ⟨n, rfl⟩ : ∃ n, fuel = n + 1 := ⟨fuel - 1, by omega⟩
    rw [List.length_cons, List.length_append] at hfuel
    have hyes : (true && decide ('\\' = '\\')) = true := by decide
    rw [textChars?, if_pos hyes, readEscape?_append hescape]
    change (textChars? true false n v).map ([d] ++ ·) = some (d :: w)
    rw [ih (by omega)]
    rfl

/-- One quote opens a text, and not three. -/
theorem Content.append_ne {v w : List Char} (h : Content v w) {z : List Char}
    (hz : v ≠ [] ∨ z.head? ≠ some '"') (more : List Char) : v ++ '"' :: z ≠ '"' :: '"' :: more := by
  intro heq
  cases h with
  | nil =>
    obtain ⟨-, rfl⟩ := List.cons.inj heq
    rcases hz with hnil | hhead
    · exact hnil rfl
    · exact hhead rfl
  | plain _ hquote _ _ => exact hquote (List.cons.inj heq).1
  | escape _ _ => exact absurd (List.cons.inj heq).1 (by decide)

theorem unquote?_one {quote : Char} (v : List Char) :
    unquote? quote 1 (quote :: (v ++ [quote])) = some v := by
  have hlength : (quote :: (v ++ [quote])).length = v.length + 2 := by simp
  have hdrop : (quote :: (v ++ [quote])).drop (v.length + 2 - 1) = [quote] := by simp
  unfold unquote?
  dsimp only
  rw [hlength, if_pos ⟨by omega, hdrop⟩]
  simp

theorem Content.text?_eq {v w : List Char} (h : Content v w) :
    text? ('"' :: (v ++ ['"'])) = some (String.ofList w) := by
  have hone := h.append_ne (z := []) (Or.inr nofun)
  have hinner : (textChars? true false (v.length + 1) v).map String.ofList =
      some (String.ofList w) := by
    rw [h.textChars?_eq (Nat.lt_succ_self _)]
    rfl
  unfold text?
  dsimp only
  split
  · exact absurd (List.cons.inj ‹_›).2 (hone _)
  · exact absurd (List.cons.inj ‹_›).1 (by decide)
  · rw [unquote?_one]
    exact hinner
  · exact absurd (List.cons.inj ‹_›).1 (by decide)
  · rename_i _ _ hbasic _
    exact absurd rfl (hbasic _)

theorem Content.splitText?_eq {v w : List Char} (h : Content v w) {z : List Char}
    (hz : v ≠ [] ∨ z.head? ≠ some '"') :
    splitText? ('"' :: (v ++ '"' :: z)) = some ('"' :: (v ++ ['"']), z) := by
  rw [splitText?_basic (h.append_ne hz), h.splitBasic_eq]

theorem Content.scalar?_eq {v w : List Char} (h : Content v w) :
    scalar? ('"' :: (v ++ ['"'])) = some (.text (String.ofList w)) := by
  change (text? ('"' :: (v ++ ['"']))).map Value.text = _
  rw [h.text?_eq]
  rfl

/-! ### Names -/

theorem ne_of_class {p : Char → Bool} {c d : Char} (hc : p c = true) (hd : p d = false) :
    c ≠ d := by
  rintro rfl
  exact Bool.eq_false_iff.mp hd hc

/-- A class without any of the marks of the syntax has only characters of bare words. -/
theorem isBare_of_class {p : Char → Bool}
    (hmarks : (".=,[]\x7b\x7d \t#\r\n".toList.all fun d => !p d) = true) {c : Char}
    (h : p c = true) : isBare c = true := by
  have hnot : c ∉ ".=,[]\x7b\x7d \t#\r\n".toList := by
    intro hmem
    have hc := List.all_eq_true.mp hmarks c hmem
    rw [h] at hc
    exact nomatch hc
  rw [isBare, List.contains_eq_mem, decide_eq_false hnot]
  rfl

theorem isBare_of_isBareKeyChar {c : Char} (h : isBareKeyChar c = true) : isBare c = true :=
  isBare_of_class (by decide) h

theorem isSpace_of_class {p : Char → Bool} (hspace : p ' ' = false) (htab : p '\t' = false)
    {c : Char} (h : p c = true) : isSpace c = false := by
  rw [isSpace, decide_eq_false (ne_of_class h hspace), decide_eq_false (ne_of_class h htab)]
  rfl

theorem starts_of_isBareKeyChar {c : Char} (h : isBareKeyChar c = true) : Starts c :=
  ⟨isSpace_of_class (by decide) (by decide) h, ne_of_class h (by decide),
    ne_of_class h (by decide), ne_of_class h (by decide)⟩

/-- How a name is written, as it is or between quotes. -/
inductive Called : String → List Char → Prop
  | bare {cs : List Char} :
    cs ≠ [] → (∀ c ∈ cs, isBareKeyChar c = true) → Called (String.ofList cs) cs
  | quoted {s : String} {v : List Char} : Content v s.toList → Called s ('"' :: (v ++ ['"']))

section Called

variable {name : String} {cs y z : List Char}

theorem Called.starts (h : Called name cs) :
    ∃ c more, cs = c :: more ∧ c ≠ '[' ∧ c ≠ '\uFEFF' ∧ Starts c := by
  cases h with
  | bare hne hbare =>
    obtain ⟨c, more, rfl⟩ := List.exists_cons_of_ne_nil hne
    have hc := hbare c List.mem_cons_self
    exact ⟨c, more, rfl, ne_of_class hc (by decide), ne_of_class hc (by decide),
      starts_of_isBareKeyChar hc⟩
  | quoted _ => exact ⟨'"', _, rfl, by decide, by decide, by decide⟩

/-- A name reaches up to a character that cannot be part of one. -/
theorem Called.splitKey_eq (h : Called name cs) (hy : ∀ c, y.head? = some c → isBare c = false) :
    splitKey (cs ++ y) = (cs, y) := by
  cases h with
  | bare hne hbare =>
    have hall : ∀ d ∈ cs, isBare d = true := fun d hd => isBare_of_isBareKeyChar (hbare d hd)
    have htext : splitText? (cs ++ y) = none := by
      obtain ⟨c, more, rfl⟩ := List.exists_cons_of_ne_nil hne
      have hc := hbare c List.mem_cons_self
      exact splitText?_of_ne (fun _ heq => ne_of_class hc (by decide) (List.cons.inj heq).1)
        (fun _ heq => ne_of_class hc (by decide) (List.cons.inj heq).1)
    rw [splitKey, htext]
    dsimp only
    rw [List.takeWhile_append_of_pos hall, List.dropWhile_append_of_pos hall]
    cases y with
    | nil => rw [List.takeWhile_nil, List.dropWhile_nil, List.append_nil]
    | cons d more =>
      have hd : ¬isBare d = true := Bool.eq_false_iff.mp (hy d rfl)
      rw [List.takeWhile_cons_of_neg hd, List.dropWhile_cons_of_neg hd, List.append_nil]
  | @quoted _ v hv =>
    have hquote : y.head? ≠ some '"' := fun hhead => absurd (hy _ hhead) (by decide)
    rw [List.cons_append, List.append_assoc, List.singleton_append, splitKey,
      hv.splitText?_eq (Or.inr hquote)]

/-- A path of one name, with blanks around it, ends before a mark. -/
theorem Called.readPath?_eq (h : Called name cs) {a b : List Char} (ha : Blanks a) (hb : Blanks b)
    {d : Char} (hd : isBare d = false) (hspace : isSpace d = false) (hdot : d ≠ '.')
    (z : List Char) :
    readPath? (a ++ (cs ++ (b ++ d :: z))) =
      some ([⟨cs, (cs ++ (b ++ d :: z)).length, (b ++ d :: z).length⟩], d :: z) := by
  have hstop : ∀ c, (b ++ d :: z).head? = some c → isBare c = false := by
    intro c hc
    cases b with
    | nil => rwa [← Option.some.inj hc]
    | cons c' more =>
      have hc' : isSpace c = true := hb c (Option.some.inj hc ▸ List.mem_cons_self)
      rw [isSpace, Bool.or_eq_true, decide_eq_true_iff, decide_eq_true_iff] at hc'
      rcases hc' with rfl | rfl <;> decide
  have hskip : Toml.skipSpace (b ++ d :: z) = d :: z := by
    rw [skipSpace_blanks hb, skipSpace_cons hspace]
  have hsplit := h.splitKey_eq hstop
  obtain ⟨c, more, rfl, -, -, hc⟩ := h.starts
  refine readPathIn_eq_some_iff.mpr ⟨_, b ++ d :: z, ?_, Or.inr ⟨?_, rfl, hskip.symm⟩⟩
  · rw [skipSpace_blanks ha, List.cons_append, skipSpace_cons hc.1]
    exact readKey?_eq_some_iff.mpr ⟨hsplit, List.cons_ne_nil c more, rfl⟩
  · rw [hskip]
    exact fun rest heq => hdot (List.cons.inj heq).1

end Called

/-! ### A line with a text -/

/-- A line that gives a text to a key, up to its second quote. -/
def textLine (key v : List Char) : List Char :=
  key ++ " = \"".toList ++ v ++ ['"']

section Line

variable {key : List Char}

theorem readWrittenIn_text {v w : List Char} (h : Content v w) {z : List Char}
    (hz : v ≠ [] ∨ z.head? ≠ some '"') (levels fuel : Nat) :
    readWrittenIn levels (fuel + 1) ('"' :: (v ++ '"' :: z)) =
      some (.scalar ('"' :: (v ++ ['"'])) ⟨('"' :: (v ++ '"' :: z)).length, z.length⟩, z) := by
  rw [readWrittenIn_flat, splitFlat?, h.splitText?_eq hz]
  · rfl
  · exact fun _ heq => absurd (List.cons.inj heq).1 (by decide)
  · exact fun _ heq => absurd (List.cons.inj heq).1 (by decide)

/-- The line is one statement, which gives the text to the key. -/
theorem statementsOf?_textLine (hne : key ≠ []) (hbare : ∀ c ∈ key, isBareKeyChar c = true)
    {v w : List Char} (h : Content v w) {z : List Char} (hz : v ≠ [] ∨ z.head? ≠ some '"')
    {indent : List Char} (hindent : ∀ c ∈ indent, isSpace c = true) :
    ∃ k written, k.chars = key ∧ written.value? = .ok (.text (String.ofList w)) ∧
      statementsOf? (indent ++ textLine key v ++ z) =
        (endLine? z).bind fun rest => (statementsOf? rest).map (.pair [k] written :: ·) := by
  obtain ⟨c, more, rfl⟩ := List.exists_cons_of_ne_nil hne
  have hc := hbare c List.mem_cons_self
  let right := ' ' :: '"' :: (v ++ '"' :: z)
  have hline : textLine (c :: more) v ++ z = c :: more ++ ' ' :: '=' :: right := by
    simp [textLine, right]
  have hvalue : readWritten? (skipSpace right) = _ := readWrittenIn_text h hz _ _
  have hpath : readPath? (c :: more ++ ' ' :: '=' :: right) = _ :=
    (Called.bare hne hbare).readPath?_eq (a := []) blanks_nil blanks_space (by decide)
      (by decide) (by decide) right
  have hpair := readPair?_eq_some_iff.mpr ⟨_, right, _, hpath, hvalue, rfl⟩
  have hnot : ∀ cs, c :: (more ++ ' ' :: '=' :: right) ≠ '[' :: cs := fun _ heq =>
    ne_of_class hc (by decide) (List.cons.inj heq).1
  rw [List.append_assoc, hline, statementsOf?_eq, readNext?, List.cons_append,
    skipBlankLines?_blanks hindent, skipBlankLines?_starts (starts_of_isBareKeyChar hc),
    Option.bind_some, if_neg (List.cons_ne_nil _ _),
    readStatement?_pair hnot, ← List.cons_append, hpair, Option.bind_some]
  refine ⟨_, _, rfl, ?_, rfl⟩
  rw [Written.value?, h.scalar?_eq]

end Line

end Shakedown.Toml
