import Shakedown.Proofs.Text.Split
import Shakedown.Proofs.Text.Utf8
import Shakedown.Url.Form

/-!
# Forms lose nothing

What is written as a form can be read back: each name and each value is written without the
characters that separate them, and comes back byte by byte. Pairs that are appended to a text that
holds pairs already stand behind these.
-/

namespace Shakedown.Url

/-- A character that neither separates the parts of a form nor stands for another one in it. -/
def IsFormMark (c : Char) : Prop :=
  c = '&' ∨ c = '=' ∨ c = '+' ∨ c = '%'

instance : DecidablePred IsFormMark := fun c =>
  inferInstanceAs (Decidable (c = '&' ∨ c = '=' ∨ c = '+' ∨ c = '%'))

/-! ### Bytes -/

section Bytes

variable (rest : List Char)

theorem percentDecode_cons_of_ne {c : Char} (h : c ≠ '%') :
    percentDecode (c :: rest) = String.utf8EncodeChar c ++ percentDecode rest := by
  rw [percentDecode]
  intro _ _ _ hc
  exact absurd hc h

theorem percentDecode_digits {high low : Char} {x y : Nat}
    (hhigh : Text.hexValue? high = some x) (hlow : Text.hexValue? low = some y) :
    percentDecode ('%' :: high :: low :: rest) =
      UInt8.ofNat (x * 16 + y) :: percentDecode rest := by
  rw [percentDecode, hhigh, hlow]

theorem hexValue?_digit {n : Nat} (h : n < 16) :
    Text.hexValue? (Nat.digitChar n).toUpper = some n ∧
      ¬IsFormMark (Nat.digitChar n).toUpper := by
  have hall : ∀ n < 16, Text.hexValue? (Nat.digitChar n).toUpper = some n ∧
      ¬IsFormMark (Nat.digitChar n).toUpper := by decide
  exact hall n h

theorem utf8EncodeChar_of_isFormPlain {b : UInt8} (h : isFormPlain b = true) :
    String.utf8EncodeChar (Char.ofNat b.toNat) = [b] ∧ ¬IsFormMark (Char.ofNat b.toNat) := by
  have hall : ∀ n < 256, isFormPlain (UInt8.ofNat n) = true →
      String.utf8EncodeChar (Char.ofNat n) = [UInt8.ofNat n] ∧ ¬IsFormMark (Char.ofNat n) := by
    decide +kernel
  have hb := hall b.toNat b.toNat_lt
  rw [UInt8.ofNat_toNat] at hb
  exact hb h

/-- The two characters that separate do not occur in what is written for a byte. -/
theorem ne_of_mem_formByte {b : UInt8} {c : Char} (hc : c ∈ formByte b) : c ≠ '&' ∧ c ≠ '=' := by
  have hmark {c : Char} (h : ¬IsFormMark c) : c ≠ '&' ∧ c ≠ '=' :=
    ⟨fun heq => h (.inl heq), fun heq => h (.inr (.inl heq))⟩
  have hhigh := hexValue?_digit (n := b.toNat / 16) (by have := b.toNat_lt; omega)
  have hlow := hexValue?_digit (n := b.toNat % 16) (by omega)
  unfold formByte at hc
  split at hc
  · rw [List.mem_singleton.mp hc]
    decide
  · split at hc
    · rename_i hplain
      rw [List.mem_singleton.mp hc]
      exact hmark (utf8EncodeChar_of_isFormPlain hplain).2
    · have hcases : c = '%' ∨ c = (Nat.digitChar (b.toNat / 16)).toUpper ∨
          c = (Nat.digitChar (b.toNat % 16)).toUpper := by
        simpa [percentByte, Text.twoHexDigits] using hc
      rcases hcases with rfl | rfl | rfl
      · decide
      · exact hmark hhigh.2
      · exact hmark hlow.2

theorem map_ne_plus {cs : List Char} (h : '+' ∉ cs) :
    (cs.map fun c => if c = '+' then ' ' else c) = cs := by
  refine (List.map_congr_left fun c hc => if_neg ?_).trans (List.map_id cs)
  rintro rfl
  exact h hc

theorem percentDecode_formByte (b : UInt8) :
    percentDecode (((formByte b).map fun c => if c = '+' then ' ' else c) ++ rest) =
      b :: percentDecode rest := by
  have hhigh := hexValue?_digit (n := b.toNat / 16) (by have := b.toNat_lt; omega)
  have hlow := hexValue?_digit (n := b.toNat % 16) (by omega)
  have hplus {c : Char} (h : ¬IsFormMark c) : c ≠ '+' := fun heq => h (.inr (.inr (.inl heq)))
  unfold formByte
  split
  · -- the space that stands for the plus is read as the byte of a space
    rename_i hspace
    rw [hspace, List.map_singleton, if_pos rfl, List.singleton_append,
      percentDecode_cons_of_ne rest (by decide)]
    rfl
  · split
    · rename_i hplain
      obtain ⟨hbyte, hmark⟩ := utf8EncodeChar_of_isFormPlain hplain
      have hpercent : Char.ofNat b.toNat ≠ '%' := fun heq => hmark (.inr (.inr (.inr heq)))
      rw [List.map_singleton, if_neg (hplus hmark), List.singleton_append,
        percentDecode_cons_of_ne rest hpercent, hbyte, List.singleton_append]
    · have hno : '+' ∉ percentByte b := by
        have hfirst := hplus hhigh.2
        have hsecond := hplus hlow.2
        simp [percentByte, Text.twoHexDigits, hfirst.symm, hsecond.symm]
      rw [map_ne_plus hno]
      change percentDecode ('%' :: _ :: _ :: rest) = _
      rw [percentDecode_digits rest hhigh.1 hlow.1, Nat.div_add_mod', UInt8.ofNat_toNat]

end Bytes

/-! ### Names and values -/

theorem ne_of_mem_formText {s : String} {c : Char} (hc : c ∈ formText s) : c ≠ '&' ∧ c ≠ '=' := by
  obtain ⟨b, -, hb⟩ := List.mem_flatMap.mp hc
  exact ne_of_mem_formByte hb

theorem percentDecode_formBytes (bytes : List UInt8) :
    percentDecode ((bytes.flatMap formByte).map fun c => if c = '+' then ' ' else c) = bytes := by
  induction bytes with
  | nil => rfl
  | cons b rest ih => rw [List.flatMap_cons, List.map_append, percentDecode_formByte, ih]

theorem formTextDecode_formText (s : String) : formTextDecode (formText s) = s := by
  rw [formTextDecode, formText, percentDecode_formBytes, Text.decodeLossy_utf8,
    String.ofList_toList]

/-! ### Pairs -/

theorem formDecode_append (xs ys : List Char) :
    formDecode (xs ++ '&' :: ys) = formDecode xs ++ formDecode ys := by
  unfold formDecode
  rw [Text.split_append_sep, List.filter_append, List.map_append]

theorem formDecode_formPair (p : String × String) : formDecode (formPair p) = [p] := by
  have hamp : '&' ∉ formPair p := by
    intro hmem
    rcases List.mem_append.mp hmem with hname | hvalue
    · exact (ne_of_mem_formText hname).1 rfl
    · rcases List.mem_cons.mp hvalue with heq | hvalue
      · exact absurd heq (by decide)
      · exact (ne_of_mem_formText hvalue).1 rfl
  have hname : ∀ c ∈ formText p.1, decide (c ≠ '=') = true := fun c hc =>
    decide_eq_true (ne_of_mem_formText hc).2
  have htake : (formPair p).takeWhile (· ≠ '=') = formText p.1 := by
    rw [formPair, List.takeWhile_append_of_pos hname, List.takeWhile_cons_of_neg (by decide),
      List.append_nil]
  have hdrop : ((formPair p).dropWhile (· ≠ '=')).drop 1 = formText p.2 := by
    rw [formPair, List.dropWhile_append_of_pos hname, List.dropWhile_cons_of_neg (by decide)]
    rfl
  have hpiece : [formPair p].filter (fun piece => !piece.isEmpty) = [formPair p] := by
    simp [formPair]
  unfold formDecode
  rw [Text.split_of_not_mem hamp, hpiece, List.map_singleton, htake, hdrop,
    formTextDecode_formText, formTextDecode_formText]

theorem formDecode_formAppend (start : List Char) (pairs : List (String × String)) :
    formDecode (formAppend start pairs) = formDecode start ++ pairs := by
  induction pairs generalizing start with
  | nil => rw [formAppend, List.append_nil]
  | cons p rest ih =>
    have hfirst : formDecode ((if start.isEmpty then [] else start ++ ['&']) ++ formPair p) =
        formDecode start ++ [p] := by
      cases start with
      | nil => exact formDecode_formPair p
      | cons c more =>
        rw [if_neg (by simp), List.append_assoc, List.singleton_append, formDecode_append,
          formDecode_formPair]
    rw [formAppend, ih, hfirst, List.append_assoc, List.singleton_append]

theorem formDecode_formEncode (pairs : List (String × String)) :
    formDecode (formEncode pairs) = pairs :=
  formDecode_formAppend [] pairs

/-- Nothing in a name or a value can begin another pair. -/
example : formDecode (formEncode [("a&b", "1=2 +%"), ("", "é#")]) =
    [("a&b", "1=2 +%"), ("", "é#")] := by
  decide +kernel

end Shakedown.Url
