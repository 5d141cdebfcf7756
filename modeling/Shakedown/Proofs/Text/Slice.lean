import Shakedown.Proofs.Text.Utf8

/-!
# Cutting a text by its bytes

A place between two bytes of a text lies between two characters exactly when the byte behind it does
not continue a character. Only at such a place can a text be cut. The places at which the characters
of a text begin are of that kind, so the first characters of a text can be cut off by their bytes.
-/

namespace Shakedown.Text

/-- A byte that continues a character has the form `10xxxxxx`. -/
def continues (b : UInt8) : Bool :=
  0x80 ≤ b && b < 0xC0

/-- Whether a place between bytes lies between characters, or at an end of the text. -/
def isBoundary (bytes : List UInt8) (place : Nat) : Bool :=
  match bytes[place]? with
  | some b => place == 0 || !continues b
  | none => place == bytes.length

/-- The text before a place between its bytes. There is none if the place lies in a character. -/
def before? (cs : List Char) (place : Nat) : Option (List Char) :=
  if isBoundary (utf8 cs) place then decode? ((utf8 cs).take place) else none

/-- Each character of a text with the place at which it begins, for a text that begins at a place. -/
def charPlaces : Nat → List Char → List (Nat × Char)
  | _, [] => []
  | place, c :: rest => (place, c) :: charPlaces (place + c.utf8Size) rest

variable (xs ys : List Char)

theorem utf8_append : utf8 (xs ++ ys) = utf8 xs ++ utf8 ys :=
  List.flatMap_append

/-! ### Places between characters -/

/-- The first byte of a character continues none. -/
theorem exists_utf8EncodeChar (c : Char) :
    ∃ b bytes, String.utf8EncodeChar c = b :: bytes ∧ continues b = false := by
  have hfirst (n : Nat) (hn : n < 128 ∨ 192 ≤ n) (hlt : n < 256) :
      continues (UInt8.ofNat n) = false := by
    have hbyte : (UInt8.ofNat n).toNat = n := by
      rw [UInt8.toNat_ofNat']
      omega
    rw [continues, Bool.and_eq_false_iff, decide_eq_false_iff_not, decide_eq_false_iff_not,
      UInt8.le_iff_toNat_le, UInt8.lt_iff_toNat_lt, hbyte]
    change ¬128 ≤ n ∨ ¬n < 192
    omega
  by_cases hone : c.toNat ≤ 127
  · exact ⟨_, _, utf8EncodeChar_one hone, hfirst _ (by omega) (by omega)⟩
  by_cases htwo : c.toNat ≤ 2047
  · exact ⟨_, _, utf8EncodeChar_two (by omega) htwo, hfirst _ (by omega) (by omega)⟩
  by_cases hthree : c.toNat ≤ 65535
  · exact ⟨_, _, utf8EncodeChar_three (by omega) hthree, hfirst _ (by omega) (by omega)⟩
  · exact ⟨_, _, utf8EncodeChar_four (by omega), hfirst _ (by omega) (by omega)⟩

theorem isBoundary_utf8_append : isBoundary (utf8 (xs ++ ys)) (utf8 xs).length = true := by
  rw [utf8_append, isBoundary, List.getElem?_append_right (Nat.le_refl _), Nat.sub_self]
  cases ys with
  | nil => simp [utf8]
  | cons c rest =>
    obtain ⟨b, bytes, hbytes, hb⟩ := exists_utf8EncodeChar c
    simp [utf8, hbytes, hb]

theorem before?_utf8_append : before? (xs ++ ys) (utf8 xs).length = some xs := by
  rw [before?, if_pos (isBoundary_utf8_append xs ys), utf8_append, List.take_left, decode?_utf8]

/-! ### Where the characters begin -/

theorem length_utf8_cons (c : Char) (rest : List Char) :
    (utf8 (c :: rest)).length = c.utf8Size + (utf8 rest).length := by
  rw [utf8, List.flatMap_cons, List.length_append, String.length_utf8EncodeChar]
  rfl

theorem getElem?_charPlaces (cs : List Char) (place n : Nat) :
    (charPlaces place cs)[n]? =
      cs[n]?.map fun c => (place + (utf8 (cs.take n)).length, c) := by
  induction cs generalizing place n with
  | nil => rfl
  | cons c rest ih =>
    cases n with
    | zero => rfl
    | succ n =>
      rw [charPlaces, List.getElem?_cons_succ, List.getElem?_cons_succ, ih, List.take_succ_cons,
        length_utf8_cons, Nat.add_assoc]

/-- The first characters of a text are what stands before the place where the next one begins. -/
theorem before?_charPlaces {cs : List Char} {n place : Nat} {c : Char}
    (h : (charPlaces 0 cs)[n]? = some (place, c)) :
    isBoundary (utf8 cs) place = true ∧ before? cs place = some (cs.take n) := by
  rw [getElem?_charPlaces, Option.map_eq_some_iff] at h
  obtain ⟨c, -, hplace⟩ := h
  obtain rfl : (utf8 (cs.take n)).length = place := by
    simpa using congrArg Prod.fst hplace
  have hboundary := isBoundary_utf8_append (cs.take n) (cs.drop n)
  have hbefore := before?_utf8_append (cs.take n) (cs.drop n)
  rw [List.take_append_drop] at hboundary hbefore
  exact ⟨hboundary, hbefore⟩

/-- A character of two bytes cannot be cut in two. -/
example : before? ['é', 'a'] 2 = some ['é'] ∧ before? ['é', 'a'] 1 = none := by
  decide

end Shakedown.Text
