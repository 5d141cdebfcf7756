import Shakedown.Proofs.Run.Effect

/-!
# Running again

Against servers that answer the same call always in the same way, every later run is like the first.
The registries that it starts from are not those of the first run, but what they hold in addition is
what the run itself puts there: it registers and installs the same apps and records the same
administrators in the same order, so its tests find what those of the first run found.
-/

namespace Shakedown

variable {μ : Type}

def Stateless (servers : Base → Server) : Prop :=
  ∀ b before before' call, (servers b before call).result = (servers b before' call).result

namespace Placed

section Stateless

variable {servers : Base → Server} (hstateless : Stateless servers) (before before' : List Call)

include hstateless

theorem answer_of_stateless (p : Placed) : p.answer servers before' = p.answer servers before := by
  unfold answer Server.answer
  rw [hstateless p.base before' before]

theorem attempted_of_stateless (placed : List Placed) :
    attempted servers before' placed = attempted servers before placed := by
  induction placed generalizing before before' with
  | nil => rfl
  | cons p rest ih =>
    rw [attempted, attempted, answer_of_stateless hstateless before before' p]
    cases (p.answer servers before).success? with
    | none => rfl
    | some e => rw [ih (before ++ [p.call]) (before' ++ [p.call])]

theorem testResult_of_stateless (b : Base) (found : Except Failure (Option Call)) :
    Case.testResult (servers b) before' found = Case.testResult (servers b) before found := by
  cases found with
  | error f => rfl
  | ok call? =>
    cases call? with
    | none => rfl
    | some call =>
      unfold Case.testResult Server.answer
      dsimp only
      rw [hstateless b before' before]

theorem testResults_of_stateless (registries : Base → Registry) (placed : List Placed) :
    testResults servers registries before' placed =
      testResults servers registries before placed := by
  induction placed generalizing before before' with
  | nil => rfl
  | cons p rest ih =>
    rw [testResults, testResults, testResult_of_stateless hstateless before before' p.base,
      ih (before ++ (p.testCall? registries).toList) (before' ++ (p.testCall? registries).toList)]

end Stateless

end Placed

namespace Suite

section Again

variable {servers : Base → Server} (placed : List Placed) (v w : World μ)

theorem contains_registered (b : Base) (a : App) :
    (registered placed w b).contains a =
      ((w.registry b).contains a || (decide (b = .own) && decide (a ∈ placed.map Placed.app))) := by
  cases b with
  | own => exact Registry.contains_foldl_register ..
  | guest => exact (Bool.or_false _).symm

/-- The same installs leave registries as they are in which they have been attempted before. -/
theorem left_again {attempts : List (Placed × Answered)}
    (happs : ∀ x ∈ attempts, x.1 ∈ placed)
    (hv : v.registry = Placed.left attempts (registered placed w)) :
    Placed.left attempts (registered placed v) = Placed.left attempts (registered placed w) := by
  have hregistered (u : World μ) :
      ∀ x ∈ attempts, (registered placed u .own).contains x.1.app = true :=
    fun x hx => contains_registered_of_mem placed u (happs x hx)
  funext b
  -- each field gets again what it already has: `or` is idempotent, on `Bool` as on `Option`
  apply Registry.ext_fields
  · intro a
    have hkeeps := (keepsIds_registered placed v b).trans (Placed.keepsIds_left attempts _ b)
    rw [← hv]
    refine hkeeps.id?_eq ?_
    rw [Placed.contains_left, contains_registered, hv, Placed.contains_left, contains_registered]
    generalize (w.registry b).contains a = before
    generalize (decide (b = .own) && decide (a ∈ placed.map Placed.app)) = ofCase
    cases before <;> cases ofCase <;> simp
  · intro a
    cases b with
    | own =>
      rw [Placed.isInstalled_left_own _ _ _ (hregistered v), isInstalled_registered, hv,
        Placed.isInstalled_left_own _ _ _ (hregistered w), Bool.or_assoc, Bool.or_self]
    | guest =>
      rw [Placed.isInstalled_left_guest, isInstalled_registered, hv]
  · intro a
    rw [Placed.admin?_left, admin?_registered, hv, Placed.admin?_left]
    by_cases ha : a = .accounts
    · rw [if_pos ha, if_pos ha, ← Option.or_assoc, Option.or_self]
    · rw [if_neg ha, if_neg ha]

/-- A run that starts with the registries that another run has left does what that run did. -/
theorem run_of_left (hstateless : Stateless servers)
    (hv : v.registry = ((ofPlaced servers placed).run w).2.registry) :
    (ofPlaced servers placed).installResults v = (ofPlaced servers placed).installResults w ∧
      (ofPlaced servers placed).testResults v = (ofPlaced servers placed).testResults w ∧
      ((ofPlaced servers placed).run v).2.registry =
        ((ofPlaced servers placed).run w).2.registry ∧
      ∃ sent, ((ofPlaced servers placed).run w).2.calls = w.calls ++ sent ∧
        ((ofPlaced servers placed).run v).2.calls = v.calls ++ sent := by
  have hattempts := Placed.attempted_of_stateless hstateless w.calls v.calls placed
  obtain ⟨htests, hcalls, hregistry⟩ := run_placed servers placed w
  obtain ⟨htests', hcalls', hregistry'⟩ := run_placed servers placed v
  rw [hregistry] at hv
  have hagain := left_again placed v w (fun x hx => (Placed.mem_attempted hx).1) hv
  rw [hattempts, hagain] at htests' hcalls' hregistry'
  refine ⟨?_, ?_, hregistry'.trans hregistry.symm, _, hcalls, hcalls'⟩
  · rw [(installs_placed servers placed v).1, (installs_placed servers placed w).1, hattempts]
  · rw [htests', htests, Placed.testResults_of_stateless hstateless]

end Again

/-- The world after some runs, one after the other. -/
def afterRuns (s : Suite μ) : Nat → World μ → World μ
  | 0, w => w
  | n + 1, w => (s.run (s.afterRuns n w)).2

theorem registry_afterRuns {servers : Base → Server} (placed : List Placed) (w : World μ)
    (hstateless : Stateless servers) (n : Nat) :
    ((ofPlaced servers placed).afterRuns (n + 1) w).registry =
      ((ofPlaced servers placed).run w).2.registry := by
  induction n with
  | zero => rfl
  | succ n ih => exact (run_of_left placed _ w hstateless ih).2.2.1

theorem outcomes_of_results {s : Suite μ} {v w : World μ}
    (hinstalls : s.installResults v = s.installResults w)
    (htests : s.testResults v = s.testResults w) : (s.run v).1.outcomes = (s.run w).1.outcomes := by
  apply List.ext_getElem?
  intro i
  rw [getElem?_outcomes, getElem?_outcomes, hinstalls, htests]

/-- Against stateless servers, later runs send, report and leave what the first of them did. -/
theorem run_again (servers : Base → Server) (placed : List Placed) (w : World μ) (n : Nat)
    (hstateless : Stateless servers) :
    let s : Suite μ := ofPlaced servers placed
    let first := s.run w
    let before := s.afterRuns (n + 1) w
    let later := s.run before
    (∃ sent, first.2.calls = w.calls ++ sent ∧ later.2.calls = before.calls ++ sent) ∧
      later.1.cases.map CaseReport.name = first.1.cases.map CaseReport.name ∧
      later.1.cases.map CaseReport.app = first.1.cases.map CaseReport.app ∧
      later.1.outcomes = first.1.outcomes ∧
      ∀ b, later.2.registry b = first.2.registry b := by
  intro s first before later
  obtain ⟨hinstalls, htests, hregistry, hsent⟩ :=
    run_of_left placed before w hstateless (registry_afterRuns placed w hstateless n)
  refine ⟨hsent, ?_, ?_, outcomes_of_results hinstalls htests, congrFun hregistry⟩
  · exact (map_name_cases s _).trans (map_name_cases s w).symm
  · exact (map_app_cases s _).trans (map_app_cases s w).symm

/-- Two administrators one after the other, and a run on the registries that are left. -/
theorem run_again_two_admins :
    let servers : Base → Server := fun _ _ call =>
      { result :=
          if call.app = "notanapp" then .ok (.failure 400 "UNKNOWN_APP") else .ok (.success .null) }
    let placed : List Placed :=
      [⟨.core, .own, ⟨"a", "x"⟩⟩, ⟨.accounts, .own, ⟨"a", "x"⟩⟩, ⟨.accounts, .own, ⟨"b", "y"⟩⟩,
        ⟨.files, .own, ⟨"b", "y"⟩⟩]
    let w : World Unit := World.start Registry.empty ()
    let s : Suite Unit := ofPlaced servers placed
    let again := s.run (s.run w).2
    Stateless servers ∧ again.1.outcomes = (s.run w).1.outcomes ∧
      again.2.registry .own = (s.run w).2.registry .own := by
  intro servers placed w s again
  have hstateless : Stateless servers := fun _ _ _ _ => rfl
  obtain ⟨-, -, -, houtcomes, hregistry⟩ := run_again servers placed w 0 hstateless
  exact ⟨hstateless, houtcomes, hregistry .own⟩

end Suite

end Shakedown
