import Shakedown.Envelope.Reader
import Shakedown.Proofs.Json.Skipping
import Shakedown.Proofs.Result

/-!
# The fields of an envelope

Each field has a reader of its own. Whatever value stands in its place, the reader takes it for what
the field makes of it, or stops without a result.
-/

namespace Shakedown

namespace Envelope

open Json (Stop Blanks Written Fits EndsNumber)

variable {α : Type}

/-! ### What a value says -/

def okOf? : Json → Option Bool
  | .bool b => some b
  | _ => none

def codeOf? : Json → Option UInt16
  | .int n => if 0 ≤ n ∧ n < 65536 then some (UInt16.ofNat n.toNat) else none
  | _ => none

/-- A field that may be left open has `null` for that. -/
def nullable (meaning : Json → Option α) : Json → Option (Option α)
  | .null => some none
  | j => (meaning j).map some

theorem nullable_of_ne {meaning : Json → Option α} {j : Json} (h : j ≠ .null) :
    nullable meaning j = (meaning j).map some := by
  cases j with
  | null => exact absurd rfl h
  | _ => rfl

def appdataOf? : Json → Option (Option Json) :=
  nullable fun j => some j.sorted

def messageOf? : Json → Option (Option String) :=
  nullable Json.text?

/-- A reader takes a value for what `meaning` makes of it, and stops behind it. -/
def Takes (read : List Char → Except Stop (α × List Char)) (meaning : Json → Option α) : Prop :=
  ∀ ⦃j blanks cs rest⦄, Blanks blanks → Written j cs → Fits (Json.roomForLevels - 1) j →
    EndsNumber rest → (read (blanks ++ (cs ++ rest))).toOption = (meaning j).map fun x => (x, rest)

/-! ### The four readers -/

theorem toOption_refuse (wanted : String) (cs : List Char) :
    (refuse wanted cs : Except Stop α).toOption = none := by
  unfold refuse
  split <;> rfl

theorem takes_readOk : Takes readOk okOf? := by
  intro j blanks cs rest hblanks h _ _
  rw [readOk, Json.skipBlanks_append hblanks, h.opens.skipBlanks]
  cases h with
  | true =>
    change ((Json.readWord "rue".toList ("rue".toList ++ rest)).map _).toOption = _
    rw [Json.readWord_append]
    rfl
  | false =>
    change ((Json.readWord "alse".toList ("alse".toList ++ rest)).map _).toOption = _
    rw [Json.readWord_append]
    rfl
  | int n =>
    obtain ⟨c, ds, hcs, hne⟩ := Json.integer_eq_cons n
    simp [hcs, hne, okOf?, toOption_refuse]
  | _ => exact toOption_refuse ..

theorem toOption_codeOf (n : Int) (rest : List Char) :
    (codeOf (.int n) rest).toOption = (codeOf? (.int n)).map fun x => (x, rest) := by
  unfold codeOf codeOf?
  dsimp only
  split <;> rfl

theorem takes_readCode : Takes readCode codeOf? := by
  intro j blanks cs rest hblanks h hfits hrest
  rw [readCode, Json.skipBlanks_append hblanks, h.opens.skipBlanks]
  cases h with
  | int n =>
    obtain ⟨hlow, hhigh⟩ := Json.fits_int.mp hfits
    rw [← toOption_codeOf]
    congr 1
    cases n with
    | ofNat n =>
      rw [Int.ofNat_eq_natCast] at hhigh
      obtain ⟨c, tail, hcs, hc, -⟩ := Json.digits_eq_cons n hrest
      have hminus : c ≠ '-' := Json.ne_of_isDigit hc rfl
      have hnumber := Json.readNumber_digits (n := n) false (by omega) hrest
      rw [hcs] at hnumber
      rw [Decimal.integer, hcs]
      split
      · rename_i heq
        exact absurd (List.cons.inj heq).1 hminus
      · rename_i heq
        exact nomatch heq
      · rename_i heq
        obtain ⟨rfl, rfl⟩ := List.cons.inj heq
        simp [hc, hnumber, Except.bind, Json.wholeNumber]
    | negSucc n =>
      have hsize : 1 ≤ n + 1 ∧ n + 1 ≤ 2 ^ 63 := by omega
      have hnumber := Json.readNumber_digits (n := n + 1) true (by omega) hrest
      change (Json.readNumber true (Decimal.digits (n + 1) ++ rest)).bind _ = _
      rw [hnumber, Json.wholeNumber, if_pos rfl, if_pos hsize]
      rfl
  | _ => simp [codeOf?, toOption_refuse]

theorem head_ne_n {j : Json} {cs : List Char} (h : Written j cs) (hj : j ≠ .null) :
    ∃ c tail, cs = c :: tail ∧ c ≠ 'n' := by
  cases h with
  | null => exact absurd rfl hj
  | int n =>
    obtain ⟨c, ds, hcs, hne⟩ := Json.integer_eq_cons n
    exact ⟨c, ds, hcs, hne _ (by decide) rfl⟩
  | _ => exact ⟨_, _, rfl, by decide⟩

theorem takes_readAppdata : Takes readAppdata appdataOf? := by
  intro j blanks cs rest hblanks h hfits hrest
  have hlength : cs.length < Json.steps (cs ++ rest) := by
    rw [Json.steps, List.length_append]
    omega
  have hvalue := h.readValueIn hfits hlength hrest
  rw [readAppdata, Json.skipBlanks_append hblanks, h.opens.skipBlanks]
  by_cases hnull : j = .null
  · subst hnull
    cases h
    change ((Json.readWord "ull".toList ("ull".toList ++ rest)).map _).toOption = _
    rw [Json.readWord_append]
    rfl
  · obtain ⟨c, tail, rfl, hc⟩ := head_ne_n h hnull
    rw [List.cons_append] at hvalue ⊢
    rw [appdataOf?, nullable_of_ne hnull]
    simp [hc, Json.readValue, hvalue]
    rfl

theorem takes_readMessage : Takes readMessage messageOf? := by
  intro j blanks cs rest hblanks h _ hrest
  rw [readMessage, Json.skipBlanks_append hblanks, h.opens.skipBlanks]
  cases h with
  | null =>
    change ((Json.readWord "ull".toList ("ull".toList ++ rest)).map _).toOption = _
    rw [Json.readWord_append]
    rfl
  | @str s text h =>
    rw [List.cons_append, List.append_assoc]
    change ((Json.readText (text ++ '"' :: rest)).map _).toOption = _
    rw [Json.readText_append h]
    rfl
  | int n =>
    obtain ⟨c, ds, hcs, hne⟩ := Json.integer_eq_cons n
    simp [hcs, hne, messageOf?, nullable, Json.text?, toOption_refuse]
  | _ => exact toOption_refuse ..

end Envelope

end Shakedown
