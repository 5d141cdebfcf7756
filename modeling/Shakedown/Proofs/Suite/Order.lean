import Shakedown.Suite

/-!
# The order of the cases of a suite

Cases stand in the order in which their apps install. Adding cases that come in that order puts each
of them at the end, so the suite of some apps holds one case for each of them, in install order.
-/

namespace Shakedown

variable {μ : Type}

namespace Case

theorem insert_eq_append {c : Case μ} {cases : List (Case μ)}
    (hrank : ∀ d ∈ cases, d.app.rank ≤ c.app.rank) : c.insert cases = cases ++ [c] := by
  induction cases with
  | nil => rfl
  | cons d rest ih =>
    have hnot : ¬c.app.rank < d.app.rank := Nat.not_lt.mpr (hrank d List.mem_cons_self)
    rw [insert, if_neg hnot, ih fun e he => hrank e (List.mem_cons_of_mem d he)]
    rfl

theorem insert_perm (c : Case μ) (cases : List (Case μ)) :
    (c.insert cases).Perm (c :: cases) := by
  induction cases with
  | nil => exact List.Perm.refl [c]
  | cons d rest ih =>
    rw [insert]
    by_cases hlt : c.app.rank < d.app.rank
    · rw [if_pos hlt]
    · rw [if_neg hlt]
      exact (ih.cons d).trans (List.Perm.swap c d rest)

theorem pairwise_insert (c : Case μ) {cases : List (Case μ)}
    (hsorted : cases.Pairwise fun c d => c.app.rank ≤ d.app.rank) :
    (c.insert cases).Pairwise fun c d => c.app.rank ≤ d.app.rank := by
  induction cases with
  | nil => exact List.pairwise_singleton _ c
  | cons d rest ih =>
    obtain ⟨hd, hrest⟩ := List.pairwise_cons.mp hsorted
    rw [insert]
    by_cases hlt : c.app.rank < d.app.rank
    · rw [if_pos hlt, List.pairwise_cons]
      refine ⟨?_, hsorted⟩
      intro e he
      rcases List.mem_cons.mp he with rfl | hlater
      · omega
      · have hde := hd e hlater
        omega
    · rw [if_neg hlt, List.pairwise_cons]
      refine ⟨?_, ih hrest⟩
      intro e he
      rcases List.mem_cons.mp ((insert_perm c rest).mem_iff.mp he) with rfl | hlater
      · omega
      · exact hd e hlater

end Case

theorem Suite.cases_addAll_of_sorted {s : Suite μ} {cases : List (Case μ)}
    (hsorted : (s.cases ++ cases).Pairwise fun c d => c.app.rank ≤ d.app.rank) :
    (s.addAll cases).cases = s.cases ++ cases := by
  induction cases generalizing s with
  | nil => exact (List.append_nil s.cases).symm
  | cons c rest ih =>
    have hbefore : ∀ d ∈ s.cases, d.app.rank ≤ c.app.rank := fun d hd =>
      (List.pairwise_append.mp hsorted).2.2 d hd c List.mem_cons_self
    have hadd : (s.add c).cases = s.cases ++ [c] := Case.insert_eq_append hbefore
    have hsplit : s.cases ++ c :: rest = (s.add c).cases ++ rest := by
      rw [hadd, List.append_assoc, List.singleton_append]
    rw [hsplit] at hsorted ⊢
    exact ih hsorted

namespace Suite

theorem cases_addAll_perm (s : Suite μ) (cases : List (Case μ)) :
    (s.addAll cases).cases.Perm (s.cases ++ cases) := by
  induction cases generalizing s with
  | nil =>
    rw [List.append_nil]
    exact List.Perm.refl _
  | cons c rest ih =>
    have hadd : (s.add c).cases.Perm (c :: s.cases) := Case.insert_perm c s.cases
    calc List.Perm (s.addAll (c :: rest)).cases ((s.add c).cases ++ rest) := ih (s.add c)
      List.Perm _ (c :: s.cases ++ rest) := hadd.append_right rest
      List.Perm _ (s.cases ++ c :: rest) := List.perm_middle.symm

theorem pairwise_cases_addAll {s : Suite μ} (cases : List (Case μ))
    (hsorted : s.cases.Pairwise fun c d => c.app.rank ≤ d.app.rank) :
    (s.addAll cases).cases.Pairwise fun c d => c.app.rank ≤ d.app.rank := by
  induction cases generalizing s with
  | nil => exact hsorted
  | cons c rest ih => exact ih (Case.pairwise_insert c hsorted)

end Suite

namespace App

def selected (apps : List App) : List App :=
  [core, accounts, files].filter fun a => a ∈ apps

theorem mem_selected {apps : List App} {a : App} : a ∈ selected apps ↔ a ∈ apps := by
  rw [selected, List.mem_filter, decide_eq_true_eq]
  exact and_iff_right (mem_all a)

theorem pairwise_selected (apps : List App) :
    (selected apps).Pairwise fun a b => a.rank < b.rank :=
  List.Pairwise.filter _ (by decide : [core, accounts, files].Pairwise fun a b => a.rank < b.rank)

theorem selected_sorted (apps : List App) :
    (selected apps).Pairwise fun a b => a.rank ≤ b.rank :=
  (pairwise_selected apps).imp Nat.le_of_lt

theorem nodup_of_pairwise {apps : List App} (hsorted : apps.Pairwise fun a b => a.rank < b.rank) :
    apps.Nodup :=
  hsorted.imp fun hlt heq => Nat.ne_of_lt hlt (congrArg rank heq)

theorem eq_of_pairwise {apps apps' : List App}
    (hsorted : apps.Pairwise fun a b => a.rank < b.rank)
    (hsorted' : apps'.Pairwise fun a b => a.rank < b.rank) (hsame : ∀ a, a ∈ apps ↔ a ∈ apps') :
    apps = apps' := by
  have hperm := (List.perm_ext_iff_of_nodup (nodup_of_pairwise hsorted)
    (nodup_of_pairwise hsorted')).mpr hsame
  refine List.Perm.eq_of_pairwise ?_ hsorted hsorted' hperm
  intro a b _ _ hab hba
  exact absurd hab (Nat.lt_asymm hba)

theorem perm_selected {apps order : List App} (hdistinct : order.Nodup)
    (horder : ∀ a, a ∈ order ↔ a ∈ apps) : order.Perm (selected apps) := by
  rw [List.perm_ext_iff_of_nodup hdistinct (nodup_of_pairwise (pairwise_selected apps))]
  intro a
  rw [horder, mem_selected]

/-! ### Sorting and dropping what is repeated -/

theorem eraseReps_loop (a : App) (apps acc : List App) :
    List.eraseRepsBy.loop (· == ·) a apps acc =
      acc.reverse ++ List.eraseRepsBy.loop (· == ·) a apps [] := by
  induction apps generalizing a acc with
  | nil => simp [List.eraseRepsBy.loop]
  | cons b rest ih =>
    unfold List.eraseRepsBy.loop
    cases a == b with
    | true => exact ih a acc
    | false =>
      dsimp only
      rw [ih b (a :: acc), ih b [a]]
      simp

theorem eraseReps_cons_cons (a b : App) (rest : List App) :
    (a :: b :: rest).eraseReps =
      if a = b then (b :: rest).eraseReps else a :: (b :: rest).eraseReps := by
  change List.eraseRepsBy.loop (· == ·) a (b :: rest) [] = _
  unfold List.eraseRepsBy.loop
  by_cases hab : a = b
  · subst hab
    simp [List.eraseReps, List.eraseRepsBy]
  · simp only [beq_eq_false_iff_ne.mpr hab, if_neg hab]
    exact eraseReps_loop b rest [a]

theorem mem_eraseReps {apps : List App} {a : App} : a ∈ apps.eraseReps ↔ a ∈ apps := by
  match apps with
  | [] => exact Iff.rfl
  | [b] => exact Iff.rfl
  | b :: c :: rest =>
    rw [eraseReps_cons_cons]
    by_cases hbc : b = c
    · rw [if_pos hbc, mem_eraseReps]
      simp [hbc]
    · rw [if_neg hbc, List.mem_cons, List.mem_cons, mem_eraseReps]

theorem pairwise_eraseReps {apps : List App}
    (hsorted : apps.Pairwise fun a b => a.rank ≤ b.rank) :
    apps.eraseReps.Pairwise fun a b => a.rank < b.rank := by
  match apps with
  | [] => exact List.Pairwise.nil
  | [b] => exact List.pairwise_singleton _ b
  | b :: c :: rest =>
    obtain ⟨hb, hrest⟩ := List.pairwise_cons.mp hsorted
    have hc := (List.pairwise_cons.mp hrest).1
    rw [eraseReps_cons_cons]
    by_cases hbc : b = c
    · rw [if_pos hbc]
      exact pairwise_eraseReps hrest
    · rw [if_neg hbc, List.pairwise_cons]
      refine ⟨?_, pairwise_eraseReps hrest⟩
      have hlt : b.rank < c.rank :=
        Nat.lt_of_le_of_ne (hb c List.mem_cons_self) fun h => hbc (rank_injective h)
      intro d hd
      rcases List.mem_cons.mp (mem_eraseReps.mp hd) with rfl | hlater
      · exact hlt
      · exact Nat.lt_of_lt_of_le hlt (hc d hlater)

theorem mem_inInstallOrder {apps : List App} {a : App} : a ∈ inInstallOrder apps ↔ a ∈ apps := by
  rw [inInstallOrder, mem_eraseReps, List.mem_mergeSort]

theorem pairwise_inInstallOrder (apps : List App) :
    (inInstallOrder apps).Pairwise fun a b => a.rank < b.rank := by
  have hsorted := @List.pairwise_mergeSort App (fun a b => a.rank ≤ b.rank)
    (by simpa using fun _ _ _ => Nat.le_trans) (by simpa using fun _ _ => Nat.le_total _ _) apps
  exact pairwise_eraseReps (hsorted.imp of_decide_eq_true)

theorem inInstallOrder_eq_selected (apps : List App) : inInstallOrder apps = selected apps := by
  refine eq_of_pairwise (pairwise_inInstallOrder apps) (pairwise_selected apps) fun a => ?_
  rw [mem_inInstallOrder, mem_selected]

end App

namespace Case

variable (server : Server) (base : Base) (credentials : Credentials)

theorem app_standard (a : App) : (standard server base credentials a : Case μ).app = a := by
  cases a <;> rfl

theorem map_app_standard (apps : List App) :
    (apps.map (standard server base credentials : App → Case μ)).map app = apps := by
  have hid : app ∘ (standard server base credentials : App → Case μ) = id := by
    funext a
    exact app_standard server base credentials a
  rw [List.map_map, hid, List.map_id]

theorem pairwise_standard {apps : List App} (hsorted : apps.Pairwise fun a b => a.rank ≤ b.rank) :
    (apps.map (standard server base credentials : App → Case μ)).Pairwise
      fun c d => c.app.rank ≤ d.app.rank := by
  rw [List.pairwise_map]
  refine hsorted.imp fun {a b} hab => ?_
  rwa [app_standard, app_standard]

theorem forApps_eq (apps : List App) :
    (forApps server base apps credentials : List (Case μ)) =
      (App.selected apps).map (standard server base credentials) := by
  rw [forApps, App.inInstallOrder_eq_selected]

theorem map_app_forApps (apps : List App) :
    (forApps server base apps credentials : List (Case μ)).map app = App.selected apps := by
  rw [forApps_eq, map_app_standard]

end Case

theorem Suite.cases_forApps (server : Server) (apps : List App) (credentials : Credentials) :
    (Suite.forApps server apps credentials : Suite μ).cases =
      (App.selected apps).map (Case.standard server .own credentials) := by
  rw [forApps, Case.forApps_eq]
  apply cases_addAll_of_sorted
  exact Case.pairwise_standard server .own credentials (App.selected_sorted apps)

theorem Suite.forApps_eq (server : Server) (apps : List App) (credentials : Credentials) :
    (Suite.forApps server apps credentials : Suite μ) =
      ⟨(App.selected apps).map (Case.standard server .own credentials)⟩ :=
  congrArg Suite.mk (cases_forApps server apps credentials)

end Shakedown
