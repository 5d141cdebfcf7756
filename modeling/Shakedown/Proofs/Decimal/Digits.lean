import Mathlib.Data.List.TakeWhile
import Shakedown.Decimal.Reading
import Shakedown.Decimal.Written

/-!
# The digits of a number

A number is written with at least one digit and without a needless zero in front. Its digits stand
for the number, and they are all taken when the number fits 64 bits.
-/

namespace Shakedown.Decimal

theorem digits_ne_nil (n : Nat) : digits n ≠ [] :=
  Nat.toDigits_ne_nil

theorem isDigit_of_mem_digits {n : Nat} {c : Char} (h : c ∈ digits n) : c.isDigit = true :=
  Nat.isDigit_of_mem_toDigits (by omega) (by omega) h

theorem digits_of_ten_le {n : Nat} (h : 10 ≤ n) :
    digits n = digits (n / 10) ++ [Nat.digitChar (n % 10)] :=
  Nat.toDigits_of_base_le (by omega) h

/-- Only zero starts with the digit zero. -/
theorem eq_zero_of_digits {n : Nat} {ds : List Char} (h : digits n = '0' :: ds) : n = 0 := by
  induction n using Nat.strongRecOn generalizing ds with
  | ind n ih =>
    by_cases hsmall : n < 10
    · have hone : digits n = [Nat.digitChar n] := Nat.toDigits_of_lt_base hsmall
      rw [hone, List.cons.injEq] at h
      exact Nat.digitChar_eq_zero.mp h.1
    · have hlarge : 10 ≤ n := by omega
      rw [digits_of_ten_le hlarge, List.append_eq_cons_iff] at h
      obtain ⟨hnil, -⟩ | ⟨front, hfront, -⟩ := h
      · exact absurd hnil (digits_ne_nil _)
      · have hzero : n / 10 = 0 := ih (n / 10) (by omega) hfront
        omega

theorem digits_zero : digits 0 = ['0'] :=
  Nat.toDigits_zero 10

/-! ### Digits as numbers -/

theorem valueFrom_digits (n : Nat) : valueFrom 0 (digits n) = n := by
  have hvalue : Nat.ofDigitChars 10 (digits n) 0 = n := Nat.ofDigitChars_toDigits (by omega) le_rfl
  rw [Nat.ofDigitChars_eq_foldl] at hvalue
  simpa only [valueFrom, Nat.mul_comm] using hvalue

theorem le_valueFrom (start : Nat) (ds : List Char) : start ≤ valueFrom start ds := by
  induction ds generalizing start with
  | nil => exact le_rfl
  | cons d rest ih =>
    calc start ≤ start * 10 + (d.toNat - '0'.toNat) := by omega
      _ ≤ valueFrom (start * 10 + (d.toNat - '0'.toNat)) rest := ih _

theorem absorb_of_lt {start : Nat} {ds : List Char} (h : valueFrom start ds < 2 ^ 64) :
    absorb start ds = (valueFrom start ds, []) := by
  induction ds generalizing start with
  | nil => rfl
  | cons d rest ih =>
    have hnext : start * 10 + (d.toNat - '0'.toNat) < 2 ^ 64 :=
      lt_of_le_of_lt (le_valueFrom _ rest) h
    rw [absorb, if_pos hnext]
    exact ih h

theorem absorb_digits {n : Nat} (h : n < 2 ^ 64) : absorb 0 (digits n) = (n, []) := by
  rw [absorb_of_lt] <;> rw [valueFrom_digits]
  exact h

/-! ### The characters of a decimal -/

/-- What a decimal is written with: digits, a point, an exponent and signs. -/
def isPart (c : Char) : Bool :=
  c.isDigit || c == '.' || c == 'e' || c == '+' || c == '-'

theorem isPart_digits (n : Nat) : ∀ c ∈ digits n, isPart c = true := by
  intro c hc
  simp [isPart, isDigit_of_mem_digits hc]

theorem isPart_zeros (n : Nat) : ∀ c ∈ List.replicate n '0', isPart c = true := by
  intro c hc
  rw [List.eq_of_mem_replicate hc]
  rfl

namespace Scientific

theorem isPart_positional (s : Scientific) : ∀ c ∈ s.positional, isPart c = true := by
  have hdigits := isPart_digits s.coefficient
  have hpoint : ∀ c ∈ ['.'], isPart c = true := List.all_eq_true.mp rfl
  have hbehind : ∀ c ∈ ['.', '0'], isPart c = true := List.all_eq_true.mp rfl
  have hbefore : ∀ c ∈ ['0', '.'], isPart c = true := List.all_eq_true.mp rfl
  unfold positional
  dsimp only
  split_ifs
  · exact List.forall_mem_append.mpr
      ⟨List.forall_mem_append.mpr ⟨hdigits, isPart_zeros _⟩, hbehind⟩
  · exact List.forall_mem_append.mpr
      ⟨List.forall_mem_append.mpr ⟨fun c hc => hdigits c (List.mem_of_mem_take hc), hpoint⟩,
        fun c hc => hdigits c (List.mem_of_mem_drop hc)⟩
  · exact List.forall_mem_append.mpr
      ⟨List.forall_mem_append.mpr ⟨hbefore, isPart_zeros _⟩, hdigits⟩

theorem isPart_exponential (s : Scientific) : ∀ c ∈ s.exponential, isPart c = true := by
  have hdigits := isPart_digits s.coefficient
  unfold exponential
  refine List.forall_mem_append.mpr ⟨List.forall_mem_append.mpr ⟨?_, ?_⟩, isPart_digits _⟩
  · split
    · exact nofun
    · rename_i d heq
      exact heq ▸ hdigits
    · rename_i d ds _ heq
      rw [heq] at hdigits
      obtain ⟨hd, hds⟩ := List.forall_mem_cons.mp hdigits
      exact List.forall_mem_cons.mpr ⟨hd, List.forall_mem_cons.mpr ⟨rfl, hds⟩⟩
  · split
    · exact List.all_eq_true.mp rfl
    · exact List.all_eq_true.mp rfl

end Scientific

theorem isPart_concise (x : Float) : ∀ c ∈ concise x, isPart c = true := by
  have htext (bits : Nat) : ∀ c ∈ (if bits % 2 ^ 63 = 0 then ['0', '.', '0'] else
      (fun s : Scientific => if -5 ≤ s.magnitude ∧ s.magnitude ≤ 15 then s.positional
        else s.exponential) (shortest (bits % 2 ^ 63))), isPart c = true := by
    dsimp only
    split_ifs
    · exact List.all_eq_true.mp rfl
    · exact Scientific.isPart_positional _
    · exact Scientific.isPart_exponential _
  unfold concise signed
  dsimp only
  split
  · exact htext _
  · exact List.forall_mem_cons.mpr ⟨rfl, htext _⟩

end Shakedown.Decimal
