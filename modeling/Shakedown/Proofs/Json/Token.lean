import Mathlib.Data.List.TakeWhile
import Shakedown.Json.Printer
import Shakedown.Json.Reader
import Shakedown.Proofs.Decimal.Digits

/-!
# Tokens as they are written

A text is a quote, its characters in any of the ways in which they can be written, and a quote. A
number is its digits, up to a character with which no number goes on. Both are read back as what
they were written for, and passing over them ends behind them.
-/

namespace Shakedown.Json

/-! ### Words -/

theorem readWord_append (word rest : List Char) : readWord word (word ++ rest) = .ok rest := by
  induction word with
  | nil => rfl
  | cons w word ih => rw [List.cons_append, readWord, if_pos rfl, ih]

/-! ### Texts -/

/-- One character of a text and a way to write it. -/
inductive WrittenChar (c : Char) : List Char → Prop
  | plain (hquote : c ≠ '"') (hslash : c ≠ '\\') (hcontrol : ¬c.toNat < 0x20) : WrittenChar c [c]
  | escape {d : Char} (h : escaped? d = some c) : WrittenChar c ['\\', d]
  | unicode {ds : List Char} (h : ∀ rest, readHex (ds ++ rest) = .ok (c.toNat, rest)) :
      WrittenChar c ('\\' :: 'u' :: ds)

inductive WrittenChars : List Char → List Char → Prop
  | nil : WrittenChars [] []
  | cons {c : Char} {cs here text : List Char} (h : WrittenChar c here)
      (hrest : WrittenChars cs text) : WrittenChars (c :: cs) (here ++ text)

theorem readHex_twoHexDigits {n : Nat} (h : n < 0x20) (rest : List Char) :
    readHex ('0' :: '0' :: Text.twoHexDigits n ++ rest) = .ok (n, rest) := by
  have hvalues : ∀ n < 0x20, Text.hexValue? (Nat.digitChar (n / 16)) = some (n / 16) ∧
      Text.hexValue? (Nat.digitChar (n % 16)) = some (n % 16) := by decide
  obtain ⟨hhigh, hlow⟩ := hvalues n h
  have hzero : Text.hexValue? '0' = some 0 := rfl
  simp only [Text.twoHexDigits, List.cons_append, List.nil_append, readHex, hzero, hhigh, hlow]
  congr 2
  omega

theorem writtenChar_escapeChar (c : Char) : WrittenChar c (escapeChar c) := by
  unfold escapeChar
  split_ifs with hquote hslash hback hfeed hline hreturn htab hcontrol
  · exact .escape (by rw [hquote]; rfl)
  · exact .escape (by rw [hslash]; rfl)
  · exact .escape (hback ▸ rfl)
  · exact .escape (hfeed ▸ rfl)
  · exact .escape (hline ▸ rfl)
  · exact .escape (hreturn ▸ rfl)
  · exact .escape (htab ▸ rfl)
  · exact .unicode (readHex_twoHexDigits hcontrol)
  · exact .plain hquote hslash hcontrol

theorem writtenChars_flatMap (cs : List Char) : WrittenChars cs (cs.flatMap escapeChar) := by
  induction cs with
  | nil => exact .nil
  | cons c cs ih => exact .cons (writtenChar_escapeChar c) ih

theorem WrittenChar.length_pos {c : Char} {here : List Char} (h : WrittenChar c here) :
    0 < here.length := by
  cases h <;> exact Nat.succ_pos _

theorem WrittenChars.length_le {cs text : List Char} (h : WrittenChars cs text) :
    cs.length ≤ text.length := by
  induction h with
  | nil => exact le_rfl
  | cons h _ ih =>
    have hpos := h.length_pos
    rw [List.length_cons, List.length_append]
    omega

/-- A character is no surrogate, so one escape by code unit writes it. -/
theorem readUnicode_of_readHex {cs rest : List Char} {c : Char}
    (h : readHex cs = .ok (c.toNat, rest)) : readUnicode cs = .ok (c, rest) := by
  have hvalid : c.toNat < 0xD800 ∨ 0xDFFF < c.toNat ∧ c.toNat < 0x110000 := c.valid
  rw [readUnicode, h]
  change (if 0xDC00 ≤ c.toNat ∧ c.toNat ≤ 0xDFFF then _ else _) = _
  rw [if_neg (by omega), if_pos (by omega), Char.ofNat_toNat]

theorem readTextChars_cons {c : Char} {here : List Char} (h : WrittenChar c here) (fuel : Nat)
    (rest : List Char) :
    readTextChars (fuel + 1) (here ++ rest) =
      (do let (cs, rest) ← readTextChars fuel rest
          .ok (c :: cs, rest)) := by
  have hslash : '\\' ≠ '"' := by decide
  cases h with
  | plain hquote hslash hcontrol =>
    rw [List.singleton_append, readTextChars, if_neg hquote, if_neg hslash, if_neg hcontrol]
  | escape h =>
    rw [List.cons_append, readTextChars, if_neg hslash, if_pos rfl, List.singleton_append,
      readEscape, h]
    rfl
  | unicode h =>
    have hu : escaped? 'u' = none := rfl
    rw [List.cons_append, readTextChars, if_neg hslash, if_pos rfl, List.cons_append,
      readEscape, hu]
    simp only [if_true]
    rw [readUnicode_of_readHex (h rest)]
    rfl

theorem skipTextChars_succ (fuel : Nat) (c : Char) (rest : List Char) :
    skipTextChars (fuel + 1) (c :: rest) =
      if c = '"' then .ok rest
      else if c = '\\' then
        match rest with
        | [] => stopAt .unfinishedText []
        | d :: rest =>
          if (escaped? d).isSome then skipTextChars fuel rest
          else if d = 'u' then (readHex rest).bind fun r => skipTextChars fuel r.2
          else stopAfter .badEscape (d :: rest)
      else if c.toNat < 0x20 then stopAt .controlCharacter (c :: rest)
      else skipTextChars fuel rest := by
  rfl

theorem skipTextChars_cons {c : Char} {here : List Char} (h : WrittenChar c here) (fuel : Nat)
    (rest : List Char) : skipTextChars (fuel + 1) (here ++ rest) = skipTextChars fuel rest := by
  have hslash : '\\' ≠ '"' := by decide
  cases h with
  | plain hquote hslash hcontrol =>
    rw [List.singleton_append, skipTextChars_succ, if_neg hquote, if_neg hslash, if_neg hcontrol]
  | escape h =>
    rw [List.cons_append, skipTextChars_succ, if_neg hslash, if_pos rfl, List.singleton_append]
    simp only [h, Option.isSome_some, if_true]
  | unicode h =>
    have hu : escaped? 'u' = none := rfl
    rw [List.cons_append, skipTextChars_succ, if_neg hslash, if_pos rfl, List.cons_append]
    simp only [hu, Option.isSome_none, Bool.false_eq_true, if_false, if_true, h]
    rfl

theorem WrittenChars.readTextChars_append {cs text : List Char} (h : WrittenChars cs text)
    {fuel : Nat} (hfuel : cs.length < fuel) (rest : List Char) :
    readTextChars fuel (text ++ '"' :: rest) = .ok (cs, rest) := by
  -- one step for each character that was written, and one for the closing quote
  induction h generalizing fuel with
  | nil =>
    obtain ⟨fuel, rfl⟩ := Nat.exists_eq_add_of_lt hfuel
    rw [List.nil_append, readTextChars, if_pos rfl]
  | cons h _ ih =>
    obtain ⟨fuel, rfl⟩ := Nat.exists_eq_add_one_of_ne_zero (Nat.ne_zero_of_lt hfuel)
    rw [List.append_assoc, readTextChars_cons h, ih (Nat.lt_of_succ_lt_succ hfuel)]
    rfl

theorem WrittenChars.skipTextChars_append {cs text : List Char} (h : WrittenChars cs text)
    {fuel : Nat} (hfuel : cs.length < fuel) (rest : List Char) :
    skipTextChars fuel (text ++ '"' :: rest) = .ok rest := by
  induction h generalizing fuel with
  | nil =>
    obtain ⟨fuel, rfl⟩ := Nat.exists_eq_add_of_lt hfuel
    rw [List.nil_append, skipTextChars_succ, if_pos rfl]
  | cons h _ ih =>
    obtain ⟨fuel, rfl⟩ := Nat.exists_eq_add_one_of_ne_zero (Nat.ne_zero_of_lt hfuel)
    rw [List.append_assoc, skipTextChars_cons h, ih (Nat.lt_of_succ_lt_succ hfuel)]

section Text

variable {s : String} {text : List Char}

theorem readText_append (h : WrittenChars s.toList text) (rest : List Char) :
    readText (text ++ '"' :: rest) = .ok (s, rest) := by
  have hfuel : s.toList.length < (text ++ '"' :: rest).length + 1 := by
    have hle := h.length_le
    rw [List.length_append]
    omega
  rw [readText, h.readTextChars_append hfuel]
  exact congrArg (fun s => Except.ok (s, rest)) String.ofList_toList

theorem skipText_append (h : WrittenChars s.toList text) (rest : List Char) :
    skipText (text ++ '"' :: rest) = .ok rest := by
  apply h.skipTextChars_append
  have hle := h.length_le
  rw [List.length_append]
  omega

end Text

/-! ### Numbers -/

/-- A number that was just read does not go on. -/
def EndsNumber (cs : List Char) : Prop :=
  ∀ c ∈ cs.head?, c.isDigit = false ∧ c ≠ '.' ∧ c ≠ 'e' ∧ c ≠ 'E'

theorem endsNumber_nil : EndsNumber [] :=
  nofun

theorem ne_of_isDigit {c d : Char} (hc : c.isDigit = true) (hd : d.isDigit = false) : c ≠ d := by
  rintro rfl
  exact absurd hc (ne_true_of_eq_false hd)

/-- A number starts with a minus or a digit. -/
theorem integer_eq_cons (n : Int) :
    ∃ c ds, Decimal.integer n = c :: ds ∧ ∀ d, d ≠ '-' → d.isDigit = false → c ≠ d := by
  cases n with
  | ofNat n =>
    obtain ⟨c, ds, hdigits⟩ := List.exists_cons_of_ne_nil (Decimal.digits_ne_nil n)
    have hc : c.isDigit = true := Decimal.isDigit_of_mem_digits (hdigits ▸ List.mem_cons_self)
    exact ⟨c, ds, hdigits, fun d _ hd => ne_of_isDigit hc hd⟩
  | negSucc n => exact ⟨'-', Decimal.digits (n + 1), rfl, fun d hd _ => hd.symm⟩

section Digits

variable {n : Nat} {rest : List Char}

theorem takeWhile_digits (hrest : EndsNumber rest) :
    (Decimal.digits n ++ rest).takeWhile Char.isDigit = Decimal.digits n := by
  rw [List.takeWhile_append_of_pos fun c => Decimal.isDigit_of_mem_digits]
  cases rest with
  | nil => simp
  | cons c rest => simp [(hrest c rfl).1]

theorem dropWhile_digits (hrest : EndsNumber rest) :
    (Decimal.digits n ++ rest).dropWhile Char.isDigit = rest := by
  rw [List.dropWhile_append_of_pos fun c => Decimal.isDigit_of_mem_digits]
  cases rest with
  | nil => rfl
  | cons c rest => simp [(hrest c rfl).1]

/-- The first digit and what stands behind it; no digit follows a zero. -/
theorem digits_eq_cons (n : Nat) (hrest : EndsNumber rest) :
    ∃ c tail, Decimal.digits n ++ rest = c :: tail ∧ c.isDigit = true ∧
      (c = '0' && (match tail with | d :: _ => d.isDigit | [] => false)) = false := by
  obtain ⟨c, ds, hdigits⟩ := List.exists_cons_of_ne_nil (Decimal.digits_ne_nil n)
  have hc : c.isDigit = true := Decimal.isDigit_of_mem_digits (hdigits ▸ List.mem_cons_self)
  refine ⟨c, ds ++ rest, by rw [hdigits, List.cons_append], hc, ?_⟩
  by_cases hzero : c = '0'
  · subst hzero
    obtain rfl := Decimal.eq_zero_of_digits hdigits
    obtain rfl : ds = [] := (List.cons.inj (hdigits.symm.trans Decimal.digits_zero)).2
    cases rest with
    | nil => rfl
    | cons c rest => simp [(hrest c rfl).1]
  · simp [hzero]

theorem readNumber_digits (negative : Bool) (hn : n < 2 ^ 64) (hrest : EndsNumber rest) :
    readNumber negative (Decimal.digits n ++ rest) = .ok (wholeNumber negative n, rest) := by
  obtain ⟨c, tail, hcs, hc, hzero⟩ := digits_eq_cons n hrest
  have hdigits := takeWhile_digits (n := n) hrest
  have hleft := dropWhile_digits (n := n) hrest
  rw [hcs] at hdigits hleft ⊢
  unfold readNumber
  dsimp only
  rw [if_pos hc]
  refine (if_neg (ne_true_of_eq_false hzero)).trans ?_
  simp only [hdigits, hleft, Decimal.absorb_digits hn]
  split
  · exact absurd rfl (hrest _ rfl).2.1
  · exact absurd rfl (hrest _ rfl).2.2.1
  · exact absurd rfl (hrest _ rfl).2.2.2
  · rfl

theorem skipNumber_digits (hrest : EndsNumber rest) :
    skipNumber (Decimal.digits n ++ rest) = .ok rest := by
  obtain ⟨c, tail, hcs, hc, hzero⟩ := digits_eq_cons n hrest
  have hleft := dropWhile_digits (n := n) hrest
  rw [hcs] at hleft ⊢
  rw [List.dropWhile_cons_of_pos hc] at hleft
  unfold skipNumber
  dsimp only
  rw [if_pos hc]
  refine (if_neg (ne_true_of_eq_false hzero)).trans ?_
  simp only [hleft]
  split
  · exact absurd rfl (hrest _ rfl).2.1
  · exact absurd rfl (hrest _ rfl).2.2.1
  · exact absurd rfl (hrest _ rfl).2.2.2
  · rfl

end Digits

end Shakedown.Json
