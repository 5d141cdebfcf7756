import Shakedown.Proofs.Text.Split
import Shakedown.Proofs.Toml.Text

/-!
# Texts, integers and lists of texts

The values that settings are made of, and how they can be written: texts between quotes with
escapes, integers with signs, underscores and bases, and lists of texts with blanks, comments and
line breaks in them. However such a value is written, the reader takes it whole and it stands for
that value.
-/

namespace Shakedown.Toml

inductive Plain where
  | text (s : String)
  | integer (n : Int)
  | texts (items : List String)
  deriving DecidableEq

/-! ### How values are written -/

/-- Digits, with single underscores between them. -/
def Grouped (isDigit : Char → Bool) (ds cs : List Char) : Prop :=
  ∃ runs, runs ≠ [] ∧ (∀ run ∈ runs, run ≠ [] ∧ ∀ c ∈ run, isDigit c = true) ∧
    ds = runs.flatten ∧ cs = Text.join ['_'] runs

/-- An integer as it is written. A decimal has no zero before its digits. -/
inductive Numeral : Int → List Char → Prop
  | unsigned {ds cs : List Char} :
    Grouped Char.isDigit ds cs → ds = ['0'] ∨ ds.head? ≠ some '0' → Numeral (Decimal.value ds) cs
  | positive {ds cs : List Char} :
    Grouped Char.isDigit ds cs → ds = ['0'] ∨ ds.head? ≠ some '0' →
      Numeral (Decimal.value ds) ('+' :: cs)
  | negative {ds cs : List Char} :
    Grouped Char.isDigit ds cs → ds = ['0'] ∨ ds.head? ≠ some '0' →
      Numeral (-Decimal.value ds) ('-' :: cs)
  | hexadecimal {ds cs : List Char} :
    Grouped Text.isHexDigit ds cs → Numeral (inBase 16 ds) ('0' :: 'x' :: cs)
  | octal {ds cs : List Char} :
    Grouped (fun c => '0' ≤ c && c ≤ '7') ds cs → Numeral (inBase 8 ds) ('0' :: 'o' :: cs)
  | binary {ds cs : List Char} :
    Grouped (fun c => c = '0' || c = '1') ds cs → Numeral (inBase 2 ds) ('0' :: 'b' :: cs)

/-- Texts between brackets. A comma stands between two of them, and may follow the last. -/
inductive Items : List String → List Char → Prop
  | nil {f : List Char} : Filler f → Items [] f
  | last {s : String} {f v f' : List Char} :
    Filler f → Content v s.toList → Filler f' → Items [s] (f ++ '"' :: (v ++ '"' :: f'))
  | cons {s : String} {more : List String} {f v f' cs : List Char} :
    Filler f → Content v s.toList → Filler f' → Items more cs →
      Items (s :: more) (f ++ '"' :: (v ++ '"' :: (f' ++ ',' :: cs)))

/-- Integers have 64 bits. -/
inductive Plain.Spelled : Plain → List Char → Prop
  | text {s : String} {v : List Char} :
    Content v s.toList → Spelled (.text s) ('"' :: (v ++ ['"']))
  | integer {n : Int} {cs : List Char} :
    Numeral n cs → -(2 ^ 63) ≤ n → n < 2 ^ 63 → Spelled (.integer n) cs
  | texts {items : List String} {cs : List Char} :
    Items items cs → Spelled (.texts items) ('[' :: (cs ++ [']']))

/-- What a plain value is in a table. -/
def Plain.ShownBy : Plain → Value → Prop
  | .text s, v => v = .text s
  | .integer n, v => v = .integer n ∧ -(2 ^ 63) ≤ n ∧ n < 2 ^ 63
  | .texts ss, v => ∃ items : List (Extent × Value),
    v = .array false items ∧ items.map Prod.snd = ss.map .text

/-! ### Integers -/

section Numeral

variable {isDigit : Char → Bool} {ds cs : List Char} {n : Int}

theorem Grouped.mem (h : Grouped isDigit ds cs) {c : Char} (hc : c ∈ cs) :
    isDigit c = true ∨ c = '_' := by
  obtain ⟨runs, -, hruns, -, rfl⟩ := h
  induction runs with
  | nil => exact absurd hc List.not_mem_nil
  | cons run rest ih =>
    obtain ⟨⟨-, hrun⟩, hrest⟩ := List.forall_mem_cons.mp hruns
    cases rest with
    | nil => exact Or.inl (hrun c hc)
    | cons next more =>
      rw [Text.join, List.mem_append, List.mem_append, List.mem_singleton] at hc
      · rcases hc with (hfirst | hmark) | hlater
        · exact Or.inl (hrun c hfirst)
        · exact Or.inr hmark
        · exact ih hrest hlater
      · exact List.cons_ne_nil next more

theorem Grouped.ne_nil (h : Grouped isDigit ds cs) : cs ≠ [] := by
  obtain ⟨runs, hne, hruns, -, rfl⟩ := h
  obtain ⟨run, rest, rfl⟩ := List.exists_cons_of_ne_nil hne
  have hrun : run ≠ [] := (hruns run List.mem_cons_self).1
  cases rest with
  | nil => exact hrun
  | cons next more => simp [Text.join, hrun]

theorem Grouped.digits? (h : Grouped isDigit ds cs) (hmark : isDigit '_' = false) :
    digits? isDigit cs = some ds := by
  obtain ⟨runs, hne, hruns, rfl, rfl⟩ := h
  have hsplit : Text.split '_' (Text.join ['_'] runs) = runs := by
    refine Text.split_join hne fun run hrun hmem => ?_
    rw [(hruns run hrun).2 '_' hmem] at hmark
    exact nomatch hmark
  have hall : (runs.all fun run => !run.isEmpty && run.all isDigit) = true := by
    rw [List.all_eq_true]
    intro run hrun
    obtain ⟨hnil, hdigits⟩ := hruns run hrun
    rw [Bool.and_eq_true, List.all_eq_true]
    exact ⟨by simpa using hnil, hdigits⟩
  unfold Toml.digits?
  dsimp only
  rw [hsplit, if_pos hall]

theorem decimalDigits?_grouped (h : Grouped Char.isDigit ds cs)
    (hlead : ds = ['0'] ∨ ds.head? ≠ some '0') : decimalDigits? cs = some ds := by
  rw [decimalDigits?, h.digits? (by decide)]
  rcases hlead with rfl | hhead
  · rfl
  · split
    · rename_i hzero
      rw [hzero]
    · rename_i hzero
      rw [Option.some.inj hzero] at hhead
      exact absurd rfl hhead
    · rfl

/-- An integer without a letter for its base is decimal. -/
theorem integer?_decimal (h : ∀ c more, cs = '0' :: c :: more → c.isDigit = true ∨ c = '_') :
    integer? cs = (decimalDigits? (splitSign cs).2).map fun ds => boundedInteger
      (if (splitSign cs).1 then -(Decimal.value ds : Int) else Decimal.value ds) := by
  unfold integer?
  split
  · exact absurd (h _ _ rfl) (by decide)
  · exact absurd (h _ _ rfl) (by decide)
  · exact absurd (h _ _ rfl) (by decide)
  · rfl

theorem splitSign_grouped (h : Grouped Char.isDigit ds cs) : splitSign cs = (false, cs) := by
  unfold splitSign
  split
  · exact absurd (h.mem List.mem_cons_self) (by decide)
  · exact absurd (h.mem List.mem_cons_self) (by decide)
  · rfl

theorem Numeral.integer?_eq (h : Numeral n cs) : integer? cs = some (boundedInteger n) := by
  cases h with
  | unsigned h hlead =>
    have hdecimal : ∀ c more, cs = '0' :: c :: more → c.isDigit = true ∨ c = '_' := by
      rintro c more rfl
      exact h.mem (List.mem_cons_of_mem _ List.mem_cons_self)
    rw [integer?_decimal hdecimal, splitSign_grouped h, decimalDigits?_grouped h hlead]
    rfl
  | positive h hlead =>
    rw [integer?_decimal fun c more heq => absurd (List.cons.inj heq).1 (by decide), splitSign,
      decimalDigits?_grouped h hlead]
    rfl
  | negative h hlead =>
    rw [integer?_decimal fun c more heq => absurd (List.cons.inj heq).1 (by decide), splitSign,
      decimalDigits?_grouped h hlead]
    rfl
  | hexadecimal h =>
    rw [integer?, h.digits? (by decide)]
    rfl
  | octal h =>
    rw [integer?, h.digits? (by decide)]
    rfl
  | binary h =>
    rw [integer?, h.digits? (by decide)]
    rfl

/-- A character of an integer. -/
def isNumeralChar (c : Char) : Bool :=
  Text.isHexDigit c || "_+-xo".toList.contains c

theorem isHexDigit_of_isDigit {c : Char} (h : c.isDigit = true) : Text.isHexDigit c = true := by
  rw [Text.isHexDigit, Text.hexValue?, if_pos h]
  rfl

theorem isHexDigit_of_octal {c : Char} (h : ('0' ≤ c && c ≤ '7') = true) :
    Text.isHexDigit c = true := by
  rw [Bool.and_eq_true, decide_eq_true_iff, decide_eq_true_iff] at h
  have hseven : c.toNat ≤ '7'.toNat := h.2
  refine isHexDigit_of_isDigit (Char.isDigit_iff_toNat.mpr ⟨h.1, hseven.trans (by decide)⟩)

theorem isHexDigit_of_binary {c : Char} (h : (c = '0' || c = '1') = true) :
    Text.isHexDigit c = true := by
  rw [Bool.or_eq_true, decide_eq_true_iff, decide_eq_true_iff] at h
  rcases h with rfl | rfl <;> rfl

theorem Grouped.isNumeralChar (h : Grouped isDigit ds cs)
    (hhex : ∀ {c}, isDigit c = true → Text.isHexDigit c = true) :
    ∀ c ∈ cs, Toml.isNumeralChar c = true ∧ c ≠ '-' := by
  intro c hc
  rcases h.mem hc with hdigit | rfl
  · have hc' : Text.isHexDigit c = true := hhex hdigit
    refine ⟨?_, ?_⟩
    · rw [Toml.isNumeralChar, hc']
      rfl
    · rintro rfl
      exact nomatch hc'
  · decide

/-- A minus can only be the first of these characters, so an integer is no date. -/
theorem Numeral.parts (h : Numeral n cs) :
    ∃ c more, cs = c :: more ∧ isNumeralChar c = true ∧
      ∀ d ∈ more, isNumeralChar d = true ∧ d ≠ '-' := by
  have hbased {c : Char} {isDigit : Char → Bool} {ds rest : List Char}
      (hc : isNumeralChar c = true ∧ c ≠ '-') (h : Grouped isDigit ds rest)
      (hhex : ∀ {c}, isDigit c = true → Text.isHexDigit c = true) :
      ∃ c' more, '0' :: c :: rest = c' :: more ∧ isNumeralChar c' = true ∧
        ∀ d ∈ more, isNumeralChar d = true ∧ d ≠ '-' :=
    ⟨'0', c :: rest, rfl, by decide, List.forall_mem_cons.mpr ⟨hc, h.isNumeralChar hhex⟩⟩
  cases h with
  | unsigned h _ =>
    obtain ⟨c, more, rfl⟩ := List.exists_cons_of_ne_nil h.ne_nil
    obtain ⟨hc, hmore⟩ := List.forall_mem_cons.mp (h.isNumeralChar isHexDigit_of_isDigit)
    exact ⟨c, more, rfl, hc.1, hmore⟩
  | positive h _ => exact ⟨'+', _, rfl, by decide, h.isNumeralChar isHexDigit_of_isDigit⟩
  | negative h _ => exact ⟨'-', _, rfl, by decide, h.isNumeralChar isHexDigit_of_isDigit⟩
  | hexadecimal h => exact hbased (by decide) h id
  | octal h => exact hbased (by decide) h isHexDigit_of_octal
  | binary h => exact hbased (by decide) h isHexDigit_of_binary

theorem looksLikeDate_minus (h : looksLikeDate cs = true) : '-' ∈ cs.tail := by
  unfold looksLikeDate at h
  split at h
  · simp
  · exact nomatch h

/-- A date has two more dashes behind its year, and a time has a colon. -/
theorem isDatetime_of_not_mem (hminus : '-' ∉ cs.tail) (hcolon : ':' ∉ cs) :
    isDatetime cs = false := by
  have hdate {ds : List Char} (hds : '-' ∉ ds.tail) : isDate ds = false := by
    have hlooks : looksLikeDate ds = false :=
      Bool.eq_false_iff.mpr fun h => hds (looksLikeDate_minus h)
    rw [isDate, hlooks]
    rfl
  have htime : isTime cs = false := by
    rw [isTime, Text.split_of_not_mem hcolon]
  have htake : '-' ∉ (cs.take 10).tail := by
    cases cs with
    | nil => exact List.not_mem_nil
    | cons c rest => exact fun hmem => hminus (List.mem_of_mem_take hmem)
  rw [isDatetime, hdate hminus, htime, hdate htake]
  rfl

theorem Numeral.scalar?_eq (h : Numeral n cs) : scalar? cs = some (boundedInteger n) := by
  have hvalue := h.integer?_eq
  obtain ⟨c, more, rfl, hc, hmore⟩ := h.parts
  have hall : ∀ d ∈ c :: more, isNumeralChar d = true :=
    List.forall_mem_cons.mpr ⟨hc, fun d hd => (hmore d hd).1⟩
  have hnot {d : Char} (hd : isNumeralChar d = false) : d ∉ c :: more := fun hmem =>
    ne_of_class (hall d hmem) hd rfl
  have hdatetime : isDatetime (c :: more) = false :=
    isDatetime_of_not_mem (fun hmem => (hmore _ hmem).2 rfl) (hnot (by decide))
  have hquote : c ≠ '"' := ne_of_class hc (by decide)
  have hapostrophe : c ≠ '\'' := ne_of_class hc (by decide)
  unfold scalar?
  split
  · exact absurd (List.cons.inj ‹_›).1 hquote
  · exact absurd (List.cons.inj ‹_›).1 hapostrophe
  · have htrue : c :: more ≠ "true".toList := fun heq => hnot (d := 't') (by decide) (by simp [heq])
    have hfalse : c :: more ≠ "false".toList :=
      fun heq => hnot (d := 'l') (by decide) (by simp [heq])
    rw [if_neg htrue, if_neg hfalse, hdatetime, if_neg Bool.false_ne_true, hvalue]

end Numeral

/-! ### What follows a value -/

section Stops

variable {cs y z : List Char}

/-- What cannot go on a scalar without quotes. -/
def Stops (z : List Char) : Prop :=
  ∀ c, z.head? = some c → isScalarChar c = false

theorem stops_nil : Stops [] :=
  nofun

theorem stops_cons {c : Char} (h : isScalarChar c = false) (cs : List Char) : Stops (c :: cs) := by
  intro d hd
  rwa [← Option.some.inj hd]

theorem Stops.append (hy : Stops y) (hz : Stops z) : Stops (y ++ z) := by
  cases y with
  | nil => exact hz
  | cons c rest => exact stops_cons (hy c rfl) _

theorem Stops.head?_ne_quote (h : Stops z) : z.head? ≠ some '"' := fun hquote =>
  absurd (h '"' hquote) (by decide)

theorem Blanks.stops (h : Blanks cs) : Stops cs := by
  intro c hc
  have hspace : (c = ' ' || c = '\t') = true := h c (List.mem_of_mem_head? hc)
  rw [Bool.or_eq_true, decide_eq_true_iff, decide_eq_true_iff] at hspace
  rcases hspace with rfl | rfl <;> decide

theorem Comment.stops (h : Comment cs) : Stops cs := by
  rcases h with rfl | ⟨body, rfl, -⟩
  · exact stops_nil
  · exact stops_cons (by decide) _

theorem LineBreak.stops (h : LineBreak cs) (z : List Char) : Stops (cs ++ z) := by
  rcases h with rfl | rfl <;> exact stops_cons (by decide) _

theorem LineEnd.stops (h : LineEnd cs) (z : List Char) : Stops (cs ++ z) := by
  obtain ⟨b, c, l, hb, hc, hl, rfl⟩ := h
  rw [List.append_assoc, List.append_assoc]
  exact hb.stops.append (hc.stops.append (hl.stops z))

theorem Filler.stops (h : Filler cs) : Stops cs := by
  cases h with
  | blanks hb => exact hb.stops
  | line he _ => exact he.stops _

theorem isScalarChar_of_isNumeralChar {c : Char} (h : isNumeralChar c = true) :
    isScalarChar c = true := by
  rw [isScalarChar, isBare_of_class (by decide) h, Bool.or_true]

theorem Stops.takeWhile (hz : Stops z) (h : ∀ c ∈ cs, isScalarChar c = true) :
    (cs ++ z).takeWhile isScalarChar = cs := by
  rw [List.takeWhile_append_of_pos h]
  cases z with
  | nil => exact List.append_nil cs
  | cons d rest =>
    rw [List.takeWhile_cons_of_neg (Bool.eq_false_iff.mp (hz d rfl)), List.append_nil]

theorem Stops.dropWhile (hz : Stops z) (h : ∀ c ∈ cs, isScalarChar c = true) :
    (cs ++ z).dropWhile isScalarChar = z := by
  rw [List.dropWhile_append_of_pos h]
  cases z with
  | nil => rfl
  | cons d rest => exact List.dropWhile_cons_of_neg (Bool.eq_false_iff.mp (hz d rfl))

/-- An integer is taken whole. No time can follow it, as it is no date. -/
theorem splitScalar_numeral {n : Int} (h : Numeral n cs) (hz : Stops z) :
    splitScalar (cs ++ z) = (cs, z) := by
  obtain ⟨c, more, rfl, hc, hmore⟩ := h.parts
  have hall : ∀ d ∈ c :: more, isScalarChar d = true :=
    List.forall_mem_cons.mpr ⟨isScalarChar_of_isNumeralChar hc,
      fun d hd => isScalarChar_of_isNumeralChar (hmore d hd).1⟩
  have htake := hz.takeWhile hall
  have hdrop := hz.dropWhile hall
  by_cases hspace : ∃ d rest, z = ' ' :: d :: rest
  · obtain ⟨d, rest, rfl⟩ := hspace
    have hdate : looksLikeDate (c :: more) = false :=
      Bool.eq_false_iff.mpr fun hlooks => (hmore _ (looksLikeDate_minus hlooks)).2 rfl
    rw [splitScalar_of_space hdrop, htake, hdate]
    rfl
  · rw [splitScalar_of_ne, htake, hdrop]
    rw [hdrop]
    exact fun d rest heq => hspace ⟨d, rest, heq⟩

theorem readWrittenIn_numeral {n : Int} (h : Numeral n cs) (hz : Stops z) (levels fuel : Nat) :
    readWrittenIn levels (fuel + 1) (cs ++ z) =
      some (.scalar cs ⟨(cs ++ z).length, z.length⟩, z) := by
  have hsplit := splitScalar_numeral h hz
  obtain ⟨c, more, rfl, hc, -⟩ := h.parts
  have hne {d : Char} (hd : isNumeralChar d = false) (rest : List Char) :
      c :: more ++ z ≠ d :: rest := fun heq => ne_of_class hc hd (List.cons.inj heq).1
  have htext : splitText? (c :: more ++ z) = none :=
    splitText?_of_ne (hne (by decide)) (hne (by decide))
  rw [readWrittenIn_flat (hne (by decide)) (hne (by decide)), splitFlat?, htext, hsplit]
  rfl

end Stops

/-! ### Values -/

section Value

variable {cs z : List Char}

theorem value?_text {s : String} {v : List Char} (hv : Content v s.toList) (extent : Extent) :
    (Written.scalar ('"' :: (v ++ ['"'])) extent).value? = .ok (.text s) := by
  rw [Written.value?, hv.scalar?_eq, String.ofList_toList]

theorem itemValues_cons {item : Written} {rest : List Written} {value : Value}
    {values : List (Extent × Value)} (hvalue : item.value? = .ok value)
    (hvalues : itemValues rest = .ok values) :
    itemValues (item :: rest) = .ok ((item.extent, value) :: values) := by
  rw [itemValues, hvalue, hvalues]
  rfl

/-- The items of an array are read up to its closing bracket, one in every two steps. -/
theorem Items.readItemsIn {ss : List String} (h : Items ss cs) (levels : Nat) {fuel : Nat}
    (hfuel : ss.length + 1 < fuel) :
    ∃ items values, readItemsIn levels fuel (cs ++ ']' :: z) = some (items, z) ∧
      itemValues items = .ok values ∧ values.map Prod.snd = ss.map .text := by
  obtain ⟨fuel, rfl⟩ : ∃ n, fuel = n + 2 := ⟨fuel - 2, by omega⟩
  have hstops {f : List Char} {c : Char} (hf : Filler f) (hc : isScalarChar c = false)
      (more : List Char) : (f ++ c :: more).head? ≠ some '"' :=
    (hf.stops.append (stops_cons hc more)).head?_ne_quote
  have hskip {f : List Char} {c : Char} (hf : Filler f) (hc : Starts c) (more : List Char) :
      skipBlankLines? (f ++ c :: more) = some (c :: more) := by
    rw [hf.skipBlankLines?, skipBlankLines?_starts hc]
  induction h generalizing fuel with
  | nil hf =>
    exact ⟨[], [], readItemsIn_eq_some_iff.mpr (Or.inl ⟨hskip hf (by decide) z, rfl⟩), rfl, rfl⟩
  | @last s f v f' hf hv hf' =>
    have hitem := readWrittenIn_text hv (Or.inr (hstops (c := ']') hf' (by decide) z)) levels fuel
    have hstart := hskip (c := '"') hf (by decide) (v ++ '"' :: (f' ++ ']' :: z))
    have hread := readItemsIn_eq_some_iff.mpr
      (Or.inr ⟨_, _, _, hstart, nofun, hitem, Or.inl ⟨hskip hf' (by decide) z, rfl⟩⟩)
    rw [List.append_assoc, List.cons_append, List.append_assoc, List.cons_append]
    exact ⟨_, _, hread, itemValues_cons (value?_text hv _) rfl, rfl⟩
  | @cons s more f v f' cs hf hv hf' _ ih =>
    obtain ⟨fuel, rfl⟩ : ∃ n, fuel = n + 1 := ⟨fuel - 1, by simp at hfuel; omega⟩
    obtain ⟨items, values, hitems, hvalues, hmap⟩ := ih fuel (by simp at hfuel ⊢; omega)
    have hitem := readWrittenIn_text hv
      (Or.inr (hstops (c := ',') hf' (by decide) (cs ++ ']' :: z))) levels (fuel + 1)
    have hstart := hskip (c := '"') hf (by decide) (v ++ '"' :: (f' ++ ',' :: (cs ++ ']' :: z)))
    have hread := readItemsIn_eq_some_iff.mpr
      (Or.inr ⟨_, _, _, hstart, nofun, hitem,
        Or.inr ⟨_, items, hskip hf' (by decide) _, hitems, rfl⟩⟩)
    rw [List.append_assoc, List.cons_append, List.append_assoc, List.cons_append,
      List.append_assoc, List.cons_append]
    exact ⟨_, _, hread, itemValues_cons (value?_text hv _) hvalues,
      congrArg (Value.text s :: ·) hmap⟩

theorem Items.length_le {ss : List String} (h : Items ss cs) : ss.length ≤ cs.length := by
  induction h with
  | nil _ => exact Nat.zero_le _
  | last _ _ _ =>
    simp only [List.length_append, List.length_cons, List.length_nil]
    omega
  | cons _ _ _ _ ih =>
    simp only [List.length_append, List.length_cons]
    omega

theorem Plain.Spelled.skipSpace {p : Plain} (h : p.Spelled cs) : skipSpace (cs ++ z) = cs ++ z := by
  cases h with
  | text _ => exact skipSpace_cons (by decide) _
  | integer hn _ _ =>
    obtain ⟨c, more, rfl, hc, -⟩ := hn.parts
    exact skipSpace_cons (isSpace_of_class (by decide) (by decide) hc) _
  | texts _ => exact skipSpace_cons (by decide) _

/-- A value is taken whole, and stands for what it was written for. -/
theorem Plain.Spelled.readWritten? {p : Plain} (h : p.Spelled cs) (hz : Stops z) :
    ∃ written value, readWritten? (cs ++ z) = some (written, z) ∧ written.value? = .ok value ∧
      p.ShownBy value := by
  cases h with
  | @text s v hv =>
    have hread : Toml.readWritten? ('"' :: (v ++ '"' :: z)) = _ :=
      readWrittenIn_text hv (Or.inr hz.head?_ne_quote) _ _
    rw [List.cons_append, List.append_assoc, List.singleton_append]
    exact ⟨_, _, hread, value?_text hv _, rfl⟩
  | @integer n _ hn hlow hhigh =>
    have hbounded : boundedInteger n = .integer n := if_pos (by omega)
    refine ⟨_, .integer n, readWrittenIn_numeral hn hz _ _, ?_, rfl, hlow, hhigh⟩
    rw [Written.value?, hn.scalar?_eq, hbounded]
  | @texts ss cs hitems =>
    have hfuel : ss.length + 1 < 2 * ('[' :: (cs ++ ']' :: z)).length + 1 := by
      have hle := hitems.length_le
      rw [List.length_cons, List.length_append]
      omega
    obtain ⟨items, values, hread, hvalues, hmap⟩ := hitems.readItemsIn 79 hfuel
    have hwritten : Toml.readWritten? ('[' :: (cs ++ ']' :: z)) =
        some (.array items ⟨('[' :: (cs ++ ']' :: z)).length, z.length⟩, z) := by
      rw [Toml.readWritten?, roomForLevels, readWrittenIn_array, hread]
      rfl
    have hvalue (extent : Extent) :
        (Written.array items extent).value? = .ok (.array false values) := by
      rw [Written.value?, hvalues]
      rfl
    rw [List.cons_append, List.append_assoc, List.singleton_append]
    exact ⟨_, _, hwritten, hvalue _, values, rfl, hmap⟩

end Value

end Shakedown.Toml
