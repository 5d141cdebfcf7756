/-!
How bad a failure is, and the exit code that tells so.
-/

namespace Shakedown

/-- From least to most severe. -/
inductive Severity where
  | medium
  | high
  | critical
  deriving DecidableEq, Inhabited

namespace Severity

def rank : Severity → Nat
  | medium => 0
  | high => 1
  | critical => 2

def name : Severity → String
  | medium => "medium"
  | high => "high"
  | critical => "critical"

def title : Severity → String
  | medium => "Medium"
  | high => "High"
  | critical => "Critical"

/-- A failed test exits with 1, a wrong configuration with 2, an unusable server with 3. -/
def exitCode : Severity → Nat
  | medium => 2
  | high => 1
  | critical => 3

def max (a b : Severity) : Severity :=
  if a.rank < b.rank then b else a

def worst? : List Severity → Option Severity
  | [] => none
  | s :: rest => some (rest.foldl max s)

theorem rank_max (a b : Severity) : (max a b).rank = Nat.max a.rank b.rank := by
  cases a <;> cases b <;> rfl

theorem max_eq_or (a b : Severity) : max a b = a ∨ max a b = b := by
  unfold max
  split
  · exact .inr rfl
  · exact .inl rfl

/-- Folding keeps a severity of the list that none of them exceeds. -/
theorem foldl_max_spec (l : List Severity) (s : Severity) :
    l.foldl max s ∈ s :: l ∧ ∀ t ∈ s :: l, t.rank ≤ (l.foldl max s).rank := by
  induction l generalizing s with
  | nil => simp
  | cons u rest ih =>
    obtain ⟨hmem, hle⟩ := ih (max s u)
    have hmax : (max s u).rank ≤ (rest.foldl max (max s u)).rank := hle _ List.mem_cons_self
    rw [rank_max] at hmax
    refine ⟨?_, fun t ht => ?_⟩
    · rcases List.mem_cons.1 hmem with heq | hlater
      · rw [List.foldl_cons, heq]
        rcases max_eq_or s u with h | h <;> simp [h]
      · exact List.mem_cons_of_mem _ (List.mem_cons_of_mem _ hlater)
    · rcases List.mem_cons.1 ht with rfl | ht
      · exact Nat.le_trans (Nat.le_max_left ..) hmax
      · rcases List.mem_cons.1 ht with rfl | ht
        · exact Nat.le_trans (Nat.le_max_right ..) hmax
        · exact hle t (List.mem_cons_of_mem _ ht)

theorem worst?_eq_none_iff {l : List Severity} : worst? l = none ↔ l = [] := by
  cases l <;> simp [worst?]

theorem worst?_eq_some {l : List Severity} {s : Severity} (h : worst? l = some s) :
    s ∈ l ∧ ∀ t ∈ l, t.rank ≤ s.rank := by
  cases l with
  | nil => exact nomatch h
  | cons u rest =>
    obtain rfl : rest.foldl max u = s := Option.some.inj h
    exact foldl_max_spec rest u

end Severity

end Shakedown
