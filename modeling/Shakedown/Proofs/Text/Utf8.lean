import Shakedown.Text.Utf8

/-!
# Text comes back from its bytes

The bytes of a character are read back to that character, whatever follows them. So the bytes of a
text hold no error, and decoding them gives the text.
-/

namespace Shakedown.Text

/-! ### First bytes

The first byte says how many bytes follow and holds the leading bits. Its bounds for the second byte
shut out the forms that are too long, surrogates, and what lies behind the last character. -/

theorem lead_two {n : Nat} (hlow : 2 ≤ n) (hhigh : n < 32) :
    lead (UInt8.ofNat (n + 192)) = ([], some { bits := n, owed := 1 }) := by
  have hall : ∀ n < 32, 2 ≤ n →
      lead (UInt8.ofNat (n + 192)) = ([], some { bits := n, owed := 1 }) := by decide
  exact hall n hhigh hlow

theorem lead_three {n : Nat} (h : n < 16) :
    lead (UInt8.ofNat (n + 224)) =
      ([], some ⟨n, 2, if n = 0 then 0xA0 else 0x80, if n = 13 then 0x9F else 0xBF⟩) := by
  have hall : ∀ n < 16, lead (UInt8.ofNat (n + 224)) =
      ([], some ⟨n, 2, if n = 0 then 0xA0 else 0x80, if n = 13 then 0x9F else 0xBF⟩) := by
    decide
  exact hall n h

theorem lead_four {n : Nat} (h : n < 5) :
    lead (UInt8.ofNat (n + 240)) =
      ([], some ⟨n, 3, if n = 0 then 0x90 else 0x80, if n = 4 then 0x8F else 0xBF⟩) := by
  have hall : ∀ n < 5, lead (UInt8.ofNat (n + 240)) =
      ([], some ⟨n, 3, if n = 0 then 0x90 else 0x80, if n = 4 then 0x8F else 0xBF⟩) := by
    decide
  exact hall n h

/-! ### Later bytes -/

section Later

variable {p : Pending} {n : Nat} (rest : List UInt8)

theorem advance_later (hn : n < 64) (hleast : p.least.toNat ≤ n + 128)
    (hgreatest : n + 128 ≤ p.greatest.toNat) :
    advance (some p) (UInt8.ofNat (n + 128)) =
      if p.owed ≤ 1 then ([some (Char.ofNat (p.bits * 64 + n))], none)
      else ([], some { bits := p.bits * 64 + n, owed := p.owed - 1 }) := by
  have hbyte : (UInt8.ofNat (n + 128)).toNat = n + 128 := by
    rw [UInt8.toNat_ofNat']
    omega
  have hbits : (n + 128) % 64 = n := by omega
  rw [advance, if_pos]
  · simp only [hbyte, hbits]
  · rw [UInt8.le_iff_toNat_le, UInt8.le_iff_toNat_le, hbyte]
    exact ⟨hleast, hgreatest⟩

theorem decodeFrom_last (howed : p.owed = 1) (hn : n < 64) (hleast : p.least.toNat ≤ n + 128)
    (hgreatest : n + 128 ≤ p.greatest.toNat) :
    decodeFrom (some p) (UInt8.ofNat (n + 128) :: rest) =
      some (Char.ofNat (p.bits * 64 + n)) :: decodeFrom none rest := by
  rw [decodeFrom, advance_later hn hleast hgreatest, if_pos (by omega)]
  rfl

theorem decodeFrom_more (howed : 1 < p.owed) (hn : n < 64) (hleast : p.least.toNat ≤ n + 128)
    (hgreatest : n + 128 ≤ p.greatest.toNat) :
    decodeFrom (some p) (UInt8.ofNat (n + 128) :: rest) =
      decodeFrom (some { bits := p.bits * 64 + n, owed := p.owed - 1 }) rest := by
  rw [decodeFrom, advance_later hn hleast hgreatest, if_neg (by omega)]
  rfl

end Later

theorem decodeFrom_lead {b : UInt8} {p : Pending} (h : lead b = ([], some p)) (rest : List UInt8) :
    decodeFrom none (b :: rest) = decodeFrom (some p) rest := by
  rw [decodeFrom, advance, h]
  rfl

/-! ### Characters

A character has one of four forms, by the size of its number.
-/

section Forms

variable {c : Char} (rest : List UInt8)

theorem utf8EncodeChar_one (h : c.toNat ≤ 127) :
    String.utf8EncodeChar c = [UInt8.ofNat c.toNat] :=
  if_pos h

theorem utf8EncodeChar_two (hlow : 127 < c.toNat) (h : c.toNat ≤ 2047) :
    String.utf8EncodeChar c =
      [UInt8.ofNat (c.toNat / 64 % 32 + 192), UInt8.ofNat (c.toNat % 64 + 128)] :=
  (if_neg (Nat.not_le.mpr hlow)).trans (if_pos h)

theorem utf8EncodeChar_three (hlow : 2047 < c.toNat) (h : c.toNat ≤ 65535) :
    String.utf8EncodeChar c =
      [UInt8.ofNat (c.toNat / 4096 % 16 + 224), UInt8.ofNat (c.toNat / 64 % 64 + 128),
        UInt8.ofNat (c.toNat % 64 + 128)] := by
  have hone : ¬c.toNat ≤ 127 := by omega
  exact (if_neg hone).trans ((if_neg (Nat.not_le.mpr hlow)).trans (if_pos h))

theorem utf8EncodeChar_four (hlow : 65535 < c.toNat) :
    String.utf8EncodeChar c =
      [UInt8.ofNat (c.toNat / 262144 % 8 + 240), UInt8.ofNat (c.toNat / 4096 % 64 + 128),
        UInt8.ofNat (c.toNat / 64 % 64 + 128), UInt8.ofNat (c.toNat % 64 + 128)] := by
  have hone : ¬c.toNat ≤ 127 := by omega
  have htwo : ¬c.toNat ≤ 2047 := by omega
  exact (if_neg hone).trans ((if_neg htwo).trans (if_neg (Nat.not_le.mpr hlow)))

theorem decodeFrom_one (h : c.toNat ≤ 127) :
    decodeFrom none (String.utf8EncodeChar c ++ rest) = some c :: decodeFrom none rest := by
  have hbyte : (UInt8.ofNat c.toNat).toNat = c.toNat := by
    rw [UInt8.toNat_ofNat']
    omega
  have hlead : lead (UInt8.ofNat c.toNat) = ([some c], none) := by
    rw [lead, if_pos, hbyte, Char.ofNat_toNat]
    rw [UInt8.lt_iff_toNat_lt, hbyte]
    exact Nat.lt_succ_of_le h
  rw [utf8EncodeChar_one h, List.singleton_append, decodeFrom, advance, hlead]
  rfl

theorem decodeFrom_two (hlow : 127 < c.toNat) (h : c.toNat ≤ 2047) :
    decodeFrom none (String.utf8EncodeChar c ++ rest) = some c :: decodeFrom none rest := by
  have hfirst : c.toNat / 64 % 32 = c.toNat / 64 := by omega
  rw [utf8EncodeChar_two hlow h, hfirst]
  simp only [List.cons_append, List.nil_append]
  rw [decodeFrom_lead (lead_two (by omega) (by omega)),
    decodeFrom_last rest rfl (by omega) (Nat.le_add_left _ _) (by simp; omega),
    Nat.div_add_mod', Char.ofNat_toNat]

theorem decodeFrom_three (hlow : 2047 < c.toNat) (h : c.toNat ≤ 65535) :
    decodeFrom none (String.utf8EncodeChar c ++ rest) = some c :: decodeFrom none rest := by
  have hvalid : c.toNat < 0xD800 ∨ 0xDFFF < c.toNat ∧ c.toNat < 0x110000 := c.valid
  have hfirst : c.toNat / 4096 % 16 = c.toNat / 4096 := by omega
  have hbits : (c.toNat / 4096 * 64 + c.toNat / 64 % 64) * 64 + c.toNat % 64 = c.toNat := by omega
  rw [utf8EncodeChar_three hlow h, hfirst]
  simp only [List.cons_append, List.nil_append]
  rw [decodeFrom_lead (lead_three (by omega)),
    decodeFrom_more _ (by simp) (by omega) (by dsimp only; split <;> simp; omega)
      (by dsimp only; split <;> simp <;> omega),
    decodeFrom_last rest rfl (by omega) (Nat.le_add_left _ _) (by simp; omega), hbits,
    Char.ofNat_toNat]

theorem decodeFrom_four (hlow : 65535 < c.toNat) :
    decodeFrom none (String.utf8EncodeChar c ++ rest) = some c :: decodeFrom none rest := by
  have hvalid : c.toNat < 0xD800 ∨ 0xDFFF < c.toNat ∧ c.toNat < 0x110000 := c.valid
  have hfirst : c.toNat / 262144 % 8 = c.toNat / 262144 := by omega
  have hbits : ((c.toNat / 262144 * 64 + c.toNat / 4096 % 64) * 64 + c.toNat / 64 % 64) * 64 +
      c.toNat % 64 = c.toNat := by omega
  rw [utf8EncodeChar_four hlow, hfirst]
  simp only [List.cons_append, List.nil_append]
  rw [decodeFrom_lead (lead_four (by omega)),
    decodeFrom_more _ (by simp) (by omega) (by dsimp only; split <;> simp; omega)
      (by dsimp only; split <;> simp <;> omega),
    decodeFrom_more _ (by simp) (by omega) (Nat.le_add_left _ _) (by simp; omega),
    decodeFrom_last rest rfl (by omega) (Nat.le_add_left _ _) (by simp; omega), hbits,
    Char.ofNat_toNat]

theorem decodeFrom_utf8EncodeChar (c : Char) (rest : List UInt8) :
    decodeFrom none (String.utf8EncodeChar c ++ rest) = some c :: decodeFrom none rest := by
  by_cases hone : c.toNat ≤ 127
  · exact decodeFrom_one rest hone
  by_cases htwo : c.toNat ≤ 2047
  · exact decodeFrom_two rest (by omega) htwo
  by_cases hthree : c.toNat ≤ 65535
  · exact decodeFrom_three rest (by omega) hthree
  · exact decodeFrom_four rest (by omega)

end Forms

/-! ### Texts -/

theorem decodeFrom_utf8 (cs : List Char) : decodeFrom none (utf8 cs) = cs.map some := by
  induction cs with
  | nil => rfl
  | cons c rest ih =>
    rw [utf8, List.flatMap_cons, decodeFrom_utf8EncodeChar, List.map_cons, ← ih]
    rfl

/-- The bytes of a text hold no error. -/
theorem decode?_utf8 (cs : List Char) : decode? (utf8 cs) = some cs := by
  rw [decode?, decodeFrom_utf8]
  induction cs with
  | nil => rfl
  | cons c rest ih =>
    rw [List.map_cons, List.mapM_cons, ih]
    rfl

theorem decodeLossy_utf8 (cs : List Char) : decodeLossy (utf8 cs) = cs := by
  rw [decodeLossy, decodeFrom_utf8, List.map_map]
  exact List.map_id cs

end Shakedown.Text
