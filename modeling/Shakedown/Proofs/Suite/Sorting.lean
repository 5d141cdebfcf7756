import Shakedown.Proofs.Suite.Order
import Shakedown.Proofs.Run.Outcome

/-!
# Adding cases is sorting them

A case that is added goes behind those of the apps that install before or with its own. However many
are added, the cases of a suite are those that one stable sort by install order makes of them: cases
of one app stay in the order in which they were added. Two sorted lists that agree on the cases of
each app are equal, which tells that any two ways of sorting that keep this order do the same.
-/

namespace Shakedown

variable {μ : Type}

namespace Case

/-- The cases of an app, in their order. -/
def ofApp (a : App) (cases : List (Case μ)) : List (Case μ) :=
  cases.filter fun c => c.app = a

/-- A case may stand in front of another: its app installs before or with that of the other. -/
def isNoLater (c d : Case μ) : Bool :=
  decide (c.app.rank ≤ d.app.rank)

/-- One stable sort of cases by install order. -/
def inOrder (cases : List (Case μ)) : List (Case μ) :=
  cases.mergeSort isNoLater

@[simp]
theorem isNoLater_iff {c d : Case μ} : c.isNoLater d = true ↔ c.app.rank ≤ d.app.rank :=
  decide_eq_true_iff

theorem isNoLater_trans (c d e : Case μ) (hcd : c.isNoLater d) (hde : d.isNoLater e) :
    c.isNoLater e := by
  rw [isNoLater_iff] at hcd hde ⊢
  omega

theorem isNoLater_total (c d : Case μ) : c.isNoLater d || d.isNoLater c := by
  rw [Bool.or_eq_true, isNoLater_iff, isNoLater_iff]
  omega

/-! ### Sorted lists -/

theorem ofApp_cons (a : App) (c : Case μ) (cases : List (Case μ)) :
    ofApp a (c :: cases) = if c.app = a then c :: ofApp a cases else ofApp a cases := by
  simp [ofApp, List.filter_cons]

theorem mem_ofApp {a : App} {c : Case μ} {cases : List (Case μ)} :
    c ∈ ofApp a cases ↔ c ∈ cases ∧ c.app = a := by
  simp [ofApp]

section Sorted

variable {cases cases' : List (Case μ)}

theorem mem_of_ofApp_eq (hsame : ∀ a, ofApp a cases = ofApp a cases') {c : Case μ}
    (hc : c ∈ cases) : c ∈ cases' := by
  have hmem : c ∈ ofApp c.app cases := mem_ofApp.mpr ⟨hc, rfl⟩
  rw [hsame] at hmem
  exact (mem_ofApp.mp hmem).1

theorem rank_le_of_head {c : Case μ}
    (hsorted : (c :: cases).Pairwise fun c d => c.app.rank ≤ d.app.rank)
    {d : Case μ} (hd : d ∈ c :: cases) : c.app.rank ≤ d.app.rank := by
  rcases List.mem_cons.mp hd with rfl | hlater
  · exact Nat.le_refl _
  · exact (List.pairwise_cons.mp hsorted).1 d hlater

/-- A sorted list of cases is known from the cases of each app. -/
theorem eq_of_ofApp_eq (hsorted : cases.Pairwise fun c d => c.app.rank ≤ d.app.rank)
    (hsorted' : cases'.Pairwise fun c d => c.app.rank ≤ d.app.rank)
    (hsame : ∀ a, ofApp a cases = ofApp a cases') : cases = cases' := by
  induction cases generalizing cases' with
  | nil =>
    rw [eq_comm, List.eq_nil_iff_forall_not_mem]
    intro c hc
    exact List.not_mem_nil (mem_of_ofApp_eq (fun a => (hsame a).symm) hc)
  | cons c rest ih =>
    cases cases' with
    | nil => exact absurd (mem_of_ofApp_eq hsame List.mem_cons_self) List.not_mem_nil
    | cons c' rest' =>
      -- neither head can install before the other, so they are the first cases of one app
      have hle := rank_le_of_head hsorted
        (mem_of_ofApp_eq (fun a => (hsame a).symm) List.mem_cons_self)
      have hge := rank_le_of_head hsorted' (mem_of_ofApp_eq hsame List.mem_cons_self)
      have happ : c'.app = c.app := App.rank_injective (Nat.le_antisymm hge hle)
      have hheads := hsame c.app
      rw [ofApp_cons, ofApp_cons, if_pos rfl, if_pos happ, List.cons.injEq] at hheads
      obtain ⟨rfl, -⟩ := hheads
      congr 1
      apply ih (List.pairwise_cons.mp hsorted).2 (List.pairwise_cons.mp hsorted').2
      intro a
      have ha := hsame a
      rw [ofApp_cons, ofApp_cons] at ha
      by_cases hc : c.app = a
      · rw [if_pos hc, if_pos hc, List.cons.injEq] at ha
        exact ha.2
      · rwa [if_neg hc, if_neg hc] at ha

end Sorted

/-! ### One sort of all cases -/

section InOrder

variable (cases : List (Case μ))

theorem inOrder_perm : (inOrder cases).Perm cases :=
  List.mergeSort_perm cases _

theorem pairwise_inOrder : (inOrder cases).Pairwise fun c d => c.app.rank ≤ d.app.rank := by
  have hsorted := List.pairwise_mergeSort isNoLater_trans isNoLater_total cases
  exact hsorted.imp isNoLater_iff.mp

/-- Sorting keeps the order of the cases of one app. -/
theorem ofApp_inOrder (a : App) : ofApp a (inOrder cases) = ofApp a cases := by
  have hequal : (ofApp a cases).Pairwise fun c d => c.isNoLater d := by
    apply List.pairwise_of_forall_mem_list
    intro c hc d hd
    have happ : c.app = d.app := (mem_ofApp.mp hc).2.trans (mem_ofApp.mp hd).2.symm
    rw [isNoLater_iff]
    exact Nat.le_of_eq (congrArg App.rank happ)
  have hsublist : (ofApp a cases).Sublist (inOrder cases) :=
    List.sublist_mergeSort isNoLater_trans isNoLater_total hequal List.filter_sublist
  have hinside : (ofApp a cases).Sublist (ofApp a (inOrder cases)) := by
    have hfiltered := hsublist.filter fun c => c.app = a
    simpa [ofApp, List.filter_filter] using hfiltered
  have hlength : (ofApp a (inOrder cases)).length = (ofApp a cases).length :=
    ((inOrder_perm cases).filter _).length_eq
  exact (hinside.eq_of_length hlength.symm).symm

end InOrder

/-! ### One insertion after the other -/

theorem ofApp_append (a : App) (cases cases' : List (Case μ)) :
    ofApp a (cases ++ cases') = ofApp a cases ++ ofApp a cases' :=
  List.filter_append ..

/-- A case that is inserted comes last among those of its app. -/
theorem ofApp_insert (a : App) (c : Case μ) {cases : List (Case μ)}
    (hsorted : cases.Pairwise fun c d => c.app.rank ≤ d.app.rank) :
    ofApp a (c.insert cases) = ofApp a (cases ++ [c]) := by
  induction cases with
  | nil => rfl
  | cons d rest ih =>
    rw [insert]
    by_cases hlt : c.app.rank < d.app.rank
    · rw [if_pos hlt, ofApp_append, ofApp_cons, ofApp_cons a c []]
      by_cases ha : c.app = a
      · -- everything that stands behind the new case installs after it
        have hnone : ofApp a (d :: rest) = [] := by
          rw [List.eq_nil_iff_forall_not_mem]
          intro e he
          obtain ⟨hmem, happ⟩ := mem_ofApp.mp he
          have hle := rank_le_of_head hsorted hmem
          rw [happ, ← ha] at hle
          omega
        rw [if_pos ha, if_pos ha, hnone]
        rfl
      · rw [if_neg ha, if_neg ha]
        simp [ofApp]
    · rw [if_neg hlt, List.cons_append, ofApp_cons, ofApp_cons,
        ih (List.pairwise_cons.mp hsorted).2]

theorem insert_eq_inOrder (c : Case μ) {cases : List (Case μ)}
    (hsorted : cases.Pairwise fun c d => c.app.rank ≤ d.app.rank) :
    c.insert cases = inOrder (cases ++ [c]) := by
  apply eq_of_ofApp_eq (pairwise_insert c hsorted) (pairwise_inOrder _)
  intro a
  rw [ofApp_insert a c hsorted, ofApp_inOrder]

end Case

namespace Suite

/-! ### Any number of cases -/

section AddAll

variable {s : Suite μ} (hsorted : s.cases.Pairwise fun c d => c.app.rank ≤ d.app.rank)
  (added : List (Case μ))

include hsorted

theorem ofApp_cases_addAll (a : App) :
    Case.ofApp a (s.addAll added).cases = Case.ofApp a (s.cases ++ added) := by
  induction added generalizing s with
  | nil =>
    rw [List.append_nil]
    rfl
  | cons c rest ih =>
    have hadd : Case.ofApp a (s.add c).cases = Case.ofApp a (s.cases ++ [c]) :=
      Case.ofApp_insert a c hsorted
    calc Case.ofApp a ((s.add c).addAll rest).cases
        = Case.ofApp a ((s.add c).cases ++ rest) := ih (Case.pairwise_insert c hsorted)
      _ = Case.ofApp a (s.cases ++ [c]) ++ Case.ofApp a rest := by rw [Case.ofApp_append, hadd]
      _ = Case.ofApp a (s.cases ++ c :: rest) := by
          rw [← Case.ofApp_append, List.append_assoc, List.singleton_append]

theorem cases_addAll_eq_foldl :
    (s.addAll added).cases =
      added.foldl (fun cases c => Case.inOrder (cases ++ [c])) s.cases := by
  induction added generalizing s with
  | nil => rfl
  | cons c rest ih =>
    have hadd : (s.add c).cases = Case.inOrder (s.cases ++ [c]) :=
      Case.insert_eq_inOrder c hsorted
    calc ((s.add c).addAll rest).cases
        = rest.foldl (fun cases c => Case.inOrder (cases ++ [c])) (s.add c).cases :=
          ih (Case.pairwise_insert c hsorted)
      _ = (c :: rest).foldl (fun cases c => Case.inOrder (cases ++ [c])) s.cases := by
          rw [hadd, List.foldl_cons]

theorem cases_addAll_eq_inOrder : (s.addAll added).cases = Case.inOrder (s.cases ++ added) := by
  apply Case.eq_of_ofApp_eq (pairwise_cases_addAll added hsorted) (Case.pairwise_inOrder _)
  intro a
  rw [ofApp_cases_addAll hsorted, Case.ofApp_inOrder]

end AddAll

end Suite

/-! ### The order of the hooks -/

theorem Phase.map_invocationsFrom (phase : Phase) (cases : List (Case μ))
    (results : List (Except Failure Unit)) (start : Nat)
    (hlength : start + results.length ≤ cases.length) :
    (phase.invocationsFrom start results).map (fun i => (i.phase, cases[i.index]?)) =
      ((cases.drop start).take results.length).map fun c => (phase, some c) := by
  induction results generalizing start with
  | nil => simp [invocationsFrom]
  | cons result rest ih =>
    rw [List.length_cons] at hlength
    have hstart : start < cases.length := by omega
    rw [invocationsFrom, List.map_cons, ih (start + 1) (by omega), List.drop_eq_getElem_cons hstart,
      List.length_cons, List.take_succ_cons, List.map_cons, List.getElem?_eq_getElem hstart]

/-- The hooks that a run invokes are those of an initial part: every install in the order of the
cases, and behind them every test in this order. -/
theorem Suite.hooks_prefix (s : Suite μ) (w : World μ) :
    (s.invocations w).map (fun i => (i.phase, s.cases[i.index]?)) <+:
      s.cases.map (fun c => (Phase.install, some c)) ++
        s.cases.map (fun c => (Phase.tests, some c)) := by
  rw [invocations_eq, List.map_append, Phase.invocations, Phase.invocations]
  rcases s.completed_or_aborted w with ⟨hall, hlength⟩ | ⟨k, f, hk, hsome, htests⟩
  · rw [Phase.map_invocationsFrom _ _ _ _ (by simp [hall]),
      Phase.map_invocationsFrom _ _ _ _ (by simp [hlength])]
    simp [hall, hlength]
  · rw [Phase.map_invocationsFrom _ _ _ _ (by simp [hsome]; omega), htests]
    apply List.IsPrefix.trans _ (List.prefix_append _ _)
    simpa [Phase.invocationsFrom] using (List.take_prefix _ s.cases).map _

namespace Suite

/-- Added cases stand in install order, and those of one app in the order in which they were added. -/
theorem cases_of_added (added : List (Case μ)) :
    let s : Suite μ := empty.addAll added
    let order : List (Case μ) := Case.inOrder added
    s.cases.Perm added ∧
      (s.cases.Pairwise fun c d => c.app.rank ≤ d.app.rank) ∧
      (∀ a, (s.cases.filter fun c => c.app = a) = added.filter fun c => c.app = a) ∧
      s.cases = order ∧
      s.cases = added.foldl (fun cases c => Case.inOrder (cases ++ [c])) [] ∧
      s.caseNames = order.map Case.name ∧
      ∀ w : World μ, (s.run w).1.cases.map CaseReport.name = order.map Case.name ∧
        (s.run w).1.cases.map CaseReport.app = order.map Case.app ∧
        (s.invocations w).map (fun i => (i.phase, s.cases[i.index]?)) <+:
          order.map (fun c => (Phase.install, some c)) ++
            order.map (fun c => (Phase.tests, some c)) := by
  intro s order
  have hempty : (empty : Suite μ).cases.Pairwise fun c d => c.app.rank ≤ d.app.rank := .nil
  have horder : s.cases = order := cases_addAll_eq_inOrder hempty added
  refine ⟨cases_addAll_perm empty added, pairwise_cases_addAll added hempty,
    fun a => ofApp_cases_addAll hempty added a, horder, cases_addAll_eq_foldl hempty added, ?_, ?_⟩
  · rw [caseNames, horder]
  · intro w
    rw [← horder]
    exact ⟨map_name_cases s w, map_app_cases s w, hooks_prefix s w⟩

end Suite

end Shakedown
