import Mathlib.Data.List.Forall2
import Shakedown.Proofs.Case.Standard
import Shakedown.Proofs.Registry.Fields
import Shakedown.Proofs.Run.Outcome

/-!
# Runs of standard cases on two registries

A standard case is placed on one of two registries, next to the server that is reached from there.
What a run of placed cases does follows from the answers to the installs that it attempts: they
tell what every install returns and what is left in both registries. When none of them fails, the
tests look into these registries, which no test changes, and that decides which calls they send.
-/

namespace Shakedown

variable {μ : Type}

/-- Lists that are related one by one become equal where related members do. -/
theorem map_eq_of_forall₂ {α β γ : Type} {R : α → β → Prop} {f : α → γ} {g : β → γ}
    {xs : List α} {ys : List β} (hrel : List.Forall₂ R xs ys) (hfg : ∀ x y, R x y → f x = g y) :
    xs.map f = ys.map g := by
  induction hrel with
  | nil => rfl
  | cons hxy _ ih => rw [List.map_cons, List.map_cons, hfg _ _ hxy, ih]

structure Placed where
  app : App
  base : Base
  /-- Of interest to `accounts` only. -/
  credentials : Credentials
  deriving DecidableEq, Inhabited

namespace Placed

def toCase (servers : Base → Server) (p : Placed) : Case μ :=
  Case.standard (servers p.base) p.base p.credentials p.app

def call (p : Placed) : Call :=
  Call.install p.credentials p.app

def answer (servers : Base → Server) (before : List Call) (p : Placed) : Answered :=
  (servers p.base).answer before p.call

/-- The installs that a run attempts, each with what came of its call: they end with the first that
is not answered with success. -/
def attempted (servers : Base → Server) : List Call → List Placed → List (Placed × Answered)
  | _, [] => []
  | before, p :: rest =>
    (p, p.answer servers before) ::
      match (p.answer servers before).success? with
      | some _ => attempted servers (before ++ [p.call]) rest
      | none => []

def completed (attempts : List (Placed × Answered)) : Bool :=
  attempts.all fun x => x.2.success?.isSome

/-- A registry after an attempted install: the case records its administrator where it is placed,
and the run marks the app as installed in its own registry. -/
def settle (b : Base) (r : Registry) (x : Placed × Answered) : Registry :=
  match x.2.success? with
  | none => r
  | some e =>
    let r := Case.afterInstall x.1.base x.1.credentials x.1.app e b r
    match b with
    | .own => r.marked x.1.app
    | .guest => r

def left (attempts : List (Placed × Answered)) (registries : Base → Registry) (b : Base) :
    Registry :=
  attempts.foldl (settle b) (registries b)

def lookup (registries : Base → Registry) (p : Placed) : Except Failure (Option Call) :=
  Case.lookup p.credentials (registries p.base) p.app

def testCall? (registries : Base → Registry) (p : Placed) : Option Call :=
  Case.callOf (p.lookup registries)

def testResults (servers : Base → Server) (registries : Base → Registry) :
    List Call → List Placed → List (Except Failure Unit)
  | _, [] => []
  | before, p :: rest =>
    Case.testResult (servers p.base) before (p.lookup registries) ::
      testResults servers registries (before ++ (p.testCall? registries).toList) rest

/-- What a run sends: its installs and, if they are all answered with success, its tests. -/
def sent (registries : Base → Registry) (attempts : List (Placed × Answered))
    (placed : List Placed) : List Call :=
  attempts.map (fun x => x.1.call) ++
    if completed attempts then placed.filterMap (testCall? registries) else []

theorem app_toCase (servers : Base → Server) (p : Placed) :
    (p.toCase servers : Case μ).app = p.app := by
  unfold toCase
  cases p.app <;> rfl

theorem name_toCase (servers servers' : Base → Server) (p : Placed) :
    (p.toCase servers : Case μ).name = (p.toCase servers' : Case μ).name := by
  unfold toCase
  cases p.app <;> rfl

section Attempted

variable {servers : Base → Server} {before : List Call} {p : Placed} (rest : List Placed)

theorem attempted_cons_of_success {e : Envelope}
    (hsuccess : (p.answer servers before).success? = some e) :
    attempted servers before (p :: rest) =
      (p, p.answer servers before) :: attempted servers (before ++ [p.call]) rest := by
  rw [attempted, hsuccess]

theorem attempted_cons_of_none (hnone : (p.answer servers before).success? = none) :
    attempted servers before (p :: rest) = [(p, p.answer servers before)] := by
  rw [attempted, hnone]

theorem verdict_answer_eq_ok_iff :
    (p.answer servers before).verdict = .ok () ↔ (p.answer servers before).success?.isSome := by
  have hknown : (p.answer servers before).call.app ≠ "notanapp" :=
    Call.app_install_ne p.credentials p.app
  rw [Answered.verdict_eq_ok_iff, Answered.asExpected_iff_succeeded hknown,
    Answered.isSome_success?_iff]

theorem verdict_answer_of_success {e : Envelope}
    (hsuccess : (p.answer servers before).success? = some e) :
    (p.answer servers before).verdict = .ok () := by
  rw [verdict_answer_eq_ok_iff, hsuccess]
  rfl

theorem verdict_answer_of_none (hnone : (p.answer servers before).success? = none) :
    ∃ f, (p.answer servers before).verdict = .error f := by
  cases hverdict : (p.answer servers before).verdict with
  | error f => exact ⟨f, rfl⟩
  | ok u =>
    rw [verdict_answer_eq_ok_iff, hnone] at hverdict
    exact nomatch hverdict

theorem map_fst_of_completed {placed : List Placed}
    (hcompleted : completed (attempted servers before placed) = true) :
    (attempted servers before placed).map Prod.fst = placed := by
  induction placed generalizing before with
  | nil => rfl
  | cons p rest ih =>
    unfold completed at ih hcompleted
    cases hsuccess : (p.answer servers before).success? with
    | none =>
      rw [attempted_cons_of_none rest hsuccess, List.all_cons, hsuccess] at hcompleted
      exact nomatch hcompleted
    | some e =>
      rw [attempted_cons_of_success rest hsuccess, List.all_cons, Bool.and_eq_true] at hcompleted
      rw [attempted_cons_of_success rest hsuccess, List.map_cons, ih hcompleted.2]

theorem calls_of_completed {placed : List Placed}
    (hcompleted : completed (attempted servers before placed) = true) :
    (attempted servers before placed).map (fun x => x.1.call) = placed.map call := by
  have hcalls := congrArg (List.map call) (map_fst_of_completed hcompleted)
  rw [List.map_map] at hcalls
  exact hcalls

theorem getElem?_attempted {placed : List Placed} {i : Nat} {x : Placed × Answered}
    (hx : (attempted servers before placed)[i]? = some x) :
    placed[i]? = some x.1 ∧
      x.2 = x.1.answer servers (before ++ (placed.take i).map call) := by
  induction placed generalizing before i with
  | nil => exact nomatch hx
  | cons p rest ih =>
    cases i with
    | zero =>
      -- the first install is attempted whether or not it succeeds
      have hhead : (p, p.answer servers before) = x := by
        cases hsuccess : (p.answer servers before).success? with
        | none => simpa [attempted_cons_of_none rest hsuccess] using hx
        | some e => simpa [attempted_cons_of_success rest hsuccess] using hx
      subst hhead
      simp
    | succ i =>
      cases hsuccess : (p.answer servers before).success? with
      | none =>
        rw [attempted_cons_of_none rest hsuccess, List.getElem?_cons_succ] at hx
        exact nomatch hx
      | some e =>
        rw [attempted_cons_of_success rest hsuccess, List.getElem?_cons_succ] at hx
        obtain ⟨hplaced, hanswer⟩ := ih hx
        rw [List.append_assoc, List.singleton_append] at hanswer
        exact ⟨hplaced, hanswer⟩

theorem mem_attempted {placed : List Placed} {x : Placed × Answered}
    (hx : x ∈ attempted servers before placed) :
    x.1 ∈ placed ∧ ∃ earlier, x.2 = x.1.answer servers earlier := by
  obtain ⟨i, hi⟩ := List.mem_iff_getElem?.mp hx
  obtain ⟨hplaced, hanswer⟩ := getElem?_attempted hi
  exact ⟨List.mem_of_getElem? hplaced, _, hanswer⟩

theorem verdict_eq_ok_iff_of_mem {placed : List Placed} {x : Placed × Answered}
    (hx : x ∈ attempted servers before placed) : x.2.verdict = .ok () ↔ x.2.Succeeded := by
  obtain ⟨-, earlier, hanswer⟩ := mem_attempted hx
  rw [hanswer, verdict_answer_eq_ok_iff, Answered.isSome_success?_iff]

theorem completed_attempted_iff {placed : List Placed} :
    completed (attempted servers before placed) = true ↔
      ∀ result ∈ (attempted servers before placed).map (fun x => x.2.verdict),
        result = .ok () := by
  rw [completed, List.all_eq_true, List.forall_mem_map]
  refine forall₂_congr fun x hx => ?_
  rw [verdict_eq_ok_iff_of_mem hx, Answered.isSome_success?_iff]

end Attempted

/-! ### Two runs next to each other -/

section Related

variable {servers servers' : Base → Server} {sent : List Call → List Call → Prop}
  {places : Placed → Placed → Prop} {attempts : Placed × Answered → Placed × Answered → Prop}

/-- Runs whose attempts are related one by one attempt as many installs, if the answers to related
attempts tell of success together. -/
theorem attempted_rel
    (hsent : ∀ before before' p p', sent before before' → places p p' →
      sent (before ++ [p.call]) (before' ++ [p'.call]))
    (hanswer : ∀ before before' p p', sent before before' → places p p' →
      attempts (p, p.answer servers before) (p', p'.answer servers' before'))
    (hsuccess : ∀ x x', attempts x x' → x.2.success? = x'.2.success?)
    {placed placed' : List Placed} (hplaced : List.Forall₂ places placed placed')
    {before before' : List Call} (hbefore : sent before before') :
    List.Forall₂ attempts (attempted servers before placed)
      (attempted servers' before' placed') := by
  induction hplaced generalizing before before' with
  | nil => exact .nil
  | @cons p p' rest rest' hp _ ih =>
    have hhead := hanswer before before' p p' hbefore hp
    have hsame := hsuccess _ _ hhead
    cases hsome : (p.answer servers before).success? with
    | none =>
      rw [attempted_cons_of_none rest hsome, attempted_cons_of_none rest' (hsame.symm.trans hsome)]
      exact .cons hhead .nil
    | some e =>
      rw [attempted_cons_of_success rest hsome,
        attempted_cons_of_success rest' (hsame.symm.trans hsome)]
      exact .cons hhead (ih (hsent before before' p p' hbefore hp))

variable {xs xs' : List (Placed × Answered)} (hrel : List.Forall₂ attempts xs xs')

include hrel

theorem completed_of_rel (hsuccess : ∀ x x', attempts x x' → x.2.success? = x'.2.success?) :
    completed xs = completed xs' := by
  unfold completed
  induction hrel with
  | nil => rfl
  | cons hx _ ih => rw [List.all_cons, List.all_cons, hsuccess _ _ hx, ih]

theorem left_of_rel (hsettle : ∀ x x', attempts x x' → ∀ b r, settle b r x = settle b r x') :
    left xs = left xs' := by
  funext registries b
  unfold left
  induction hrel generalizing registries with
  | nil => rfl
  | cons hx _ ih =>
    rw [List.foldl_cons, List.foldl_cons, hsettle _ _ hx]
    exact ih fun _ => settle b (registries b) _

end Related

theorem getElem?_testResults (servers : Base → Server) (registries : Base → Registry)
    (before : List Call) (placed : List Placed) (i : Nat) :
    (testResults servers registries before placed)[i]? =
      placed[i]?.map fun p =>
        Case.testResult (servers p.base)
          (before ++ (placed.take i).filterMap (testCall? registries)) (p.lookup registries) := by
  induction placed generalizing before i with
  | nil => rfl
  | cons p rest ih =>
    rw [testResults]
    cases i with
    | zero => simp
    | succ i =>
      rw [List.getElem?_cons_succ, ih, List.getElem?_cons_succ, List.take_succ_cons,
        List.filterMap_cons]
      cases p.testCall? registries <;> simp

end Placed

/-! ### One case after the other -/

namespace Case

theorem registry_settleInstall_error (c : Case μ) (f : Failure) (w : World μ) :
    (c.settleInstall (.error f) w).registry = w.registry :=
  World.registry_note ..

/-- The app is marked in the registry of the run, wherever the case is placed. -/
theorem registry_settleInstall_ok (c : Case μ) (w : World μ) (b : Base) :
    (c.settleInstall (.ok ()) w).registry b =
      match b with
      | .own => (w.registry b).marked c.app
      | .guest => w.registry b := by
  cases b with
  | own =>
    change (c.settleInstall (.ok ()) w).own = w.own.marked c.app
    unfold settleInstall Registry.markInstalled Registry.get Registry.marked
    cases w.own.record? c.app <;> rfl
  | guest =>
    unfold settleInstall
    cases w.own.markInstalled c.app <;> rfl

theorem registry_settleTests (c : Case μ) (result : Except Failure Unit) (w : World μ) :
    (c.settleTests result w).registry = w.registry := by
  cases result with
  | error f => exact World.registry_note ..
  | ok u => exact World.registry_note ..

section Attempts

variable (servers : Base → Server) (p : Placed) (w : World μ)

theorem attemptInstall_placed :
    ((p.toCase servers).attemptInstall w).1.result = (p.answer servers w.calls).verdict ∧
      ((p.toCase servers).attemptInstall w).2.calls = w.calls ++ [p.call] := by
  rw [result_attemptInstall, attemptInstall_eq]
  dsimp only
  rw [calls_settleInstall]
  exact install_standard (servers p.base) p.base p.credentials p.app (w.note ..)

theorem registry_attemptInstall_placed (b : Base) :
    ((p.toCase servers).attemptInstall w).2.registry b =
      Placed.settle b (w.registry b) (p, p.answer servers w.calls) := by
  have hresult : ((p.toCase servers).installHook w).1 = (p.answer servers w.calls).verdict := by
    rw [← result_attemptInstall, (attemptInstall_placed servers p w).1]
  have hinstall : ((p.toCase servers).installHook w).2.registry b = _ :=
    registry_install_standard (servers p.base) p.base p.credentials p.app (w.note ..) b
  rw [World.registry_note, World.calls_note] at hinstall
  change _ = match (p.answer servers w.calls).success? with | some _ => _ | none => _ at hinstall
  rw [attemptInstall_eq, Placed.settle, hresult]
  dsimp only
  cases hsuccess : (p.answer servers w.calls).success? with
  | none =>
    obtain ⟨f, hverdict⟩ := Placed.verdict_answer_of_none hsuccess
    rw [hsuccess] at hinstall
    rw [hverdict, registry_settleInstall_error]
    exact hinstall
  | some e =>
    rw [hsuccess] at hinstall
    rw [Placed.verdict_answer_of_success hsuccess, registry_settleInstall_ok, hinstall,
      Placed.app_toCase]

theorem attemptTests_placed :
    ((p.toCase servers).attemptTests w).1.result =
        testResult (servers p.base) w.calls (p.lookup w.registry) ∧
      ((p.toCase servers).attemptTests w).2.calls =
        w.calls ++ (p.testCall? w.registry).toList ∧
      ((p.toCase servers).attemptTests w).2.registry = w.registry := by
  obtain ⟨hresult, hcalls, hregistry⟩ :=
    tests_of_lookup (servers p.base) p.base p.credentials p.app
      (w.note .info .suite ("Testing " ++ (p.toCase servers : Case μ).name))
  rw [World.registry_note] at hresult hcalls hregistry
  rw [result_attemptTests, attemptTests_eq]
  dsimp only
  rw [calls_settleTests, registry_settleTests]
  exact ⟨hresult, hcalls, hregistry⟩

end Attempts

section Phases

variable (servers : Base → Server) (placed : List Placed) (w : World μ)

theorem installAll_placed :
    (installAll (placed.map (Placed.toCase servers)) w).1.map Attempt.result =
        (Placed.attempted servers w.calls placed).map (fun x => x.2.verdict) ∧
      (installAll (placed.map (Placed.toCase servers)) w).2.calls =
        w.calls ++ (Placed.attempted servers w.calls placed).map (fun x => x.1.call) ∧
      (installAll (placed.map (Placed.toCase servers)) w).2.registry =
        Placed.left (Placed.attempted servers w.calls placed) w.registry := by
  induction placed generalizing w with
  | nil => exact ⟨rfl, (List.append_nil w.calls).symm, rfl⟩
  | cons p rest ih =>
    obtain ⟨hresult, hcalls⟩ := attemptInstall_placed servers p w
    have hregistry := registry_attemptInstall_placed servers p w
    rw [List.map_cons]
    cases hsuccess : (p.answer servers w.calls).success? with
    | none =>
      obtain ⟨f, hverdict⟩ := Placed.verdict_answer_of_none hsuccess
      rw [Placed.attempted_cons_of_none rest hsuccess,
        installAll_cons_of_error _ (hresult.trans hverdict)]
      refine ⟨?_, hcalls, funext hregistry⟩
      rw [List.map_singleton, List.map_singleton, hresult]
    | some e =>
      have hverdict := Placed.verdict_answer_of_success hsuccess
      obtain ⟨hresults, hsent, hleft⟩ := ih ((p.toCase servers).attemptInstall w).2
      rw [hcalls] at hresults hsent hleft
      rw [Placed.attempted_cons_of_success rest hsuccess,
        installAll_cons_of_ok _ (hresult.trans hverdict)]
      refine ⟨?_, ?_, ?_⟩
      · rw [List.map_cons, List.map_cons, hresult, hresults]
      · rw [List.map_cons, hsent, List.append_assoc, List.singleton_append]
      · rw [hleft]
        funext b
        rw [Placed.left, Placed.left, List.foldl_cons, hregistry]

theorem testAll_placed :
    (testAll (placed.map (Placed.toCase servers)) w).1.map Attempt.result =
        Placed.testResults servers w.registry w.calls placed ∧
      (testAll (placed.map (Placed.toCase servers)) w).2.calls =
        w.calls ++ placed.filterMap (Placed.testCall? w.registry) ∧
      (testAll (placed.map (Placed.toCase servers)) w).2.registry = w.registry := by
  induction placed generalizing w with
  | nil => exact ⟨rfl, (List.append_nil w.calls).symm, rfl⟩
  | cons p rest ih =>
    obtain ⟨hresult, hcalls, hregistry⟩ := attemptTests_placed servers p w
    obtain ⟨hresults, hsent, hkept⟩ := ih ((p.toCase servers).attemptTests w).2
    rw [hregistry] at hresults hsent hkept
    rw [hcalls] at hresults hsent
    rw [List.map_cons, testAll_cons]
    dsimp only
    refine ⟨?_, ?_, hkept⟩
    · rw [List.map_cons, hresult, hresults, Placed.testResults]
    · rw [hsent, List.filterMap_cons]
      cases p.testCall? w.registry <;> simp

end Phases

end Case

/-! ### Whole runs -/

namespace Suite

def ofPlaced (servers : Base → Server) (placed : List Placed) : Suite μ :=
  ⟨placed.map (Placed.toCase servers)⟩

variable (servers : Base → Server) (placed : List Placed) (w : World μ)

/-- The registries when the first install is about to run. -/
def registered : Base → Registry
  | .own => (placed.map Placed.app).foldl Registry.register w.own
  | .guest => w.guest

theorem registry_prepared_placed :
    ((ofPlaced servers placed).prepared w).registry = registered placed w := by
  have happs : (placed.map (Placed.toCase servers : Placed → Case μ)).map Case.app =
      placed.map Placed.app := by
    rw [List.map_map]
    exact List.map_congr_left fun p _ => Placed.app_toCase servers p
  funext b
  cases b with
  | own =>
    change ((placed.map (Placed.toCase servers)).map Case.app).foldl Registry.register w.own = _
    rw [happs]
    rfl
  | guest => rfl

theorem installs_placed :
    (ofPlaced servers placed).installResults w =
        (Placed.attempted servers w.calls placed).map (fun x => x.2.verdict) ∧
      ((ofPlaced servers placed).installs w).2.calls =
        w.calls ++ (Placed.attempted servers w.calls placed).map (fun x => x.1.call) ∧
      ((ofPlaced servers placed).installs w).2.registry =
        Placed.left (Placed.attempted servers w.calls placed) (registered placed w) := by
  have hinstalls := Case.installAll_placed servers placed ((ofPlaced servers placed).prepared w)
  rw [registry_prepared_placed] at hinstalls
  exact hinstalls

theorem all_succeeded_placed :
    ((ofPlaced servers placed).installs w).1.all Attempt.succeeded =
      Placed.completed (Placed.attempted servers w.calls placed) := by
  rw [Bool.eq_iff_iff, Placed.completed_attempted_iff, ← (installs_placed servers placed w).1,
    installResults, List.forall_mem_map, List.all_eq_true]
  exact forall₂_congr fun a _ => Attempt.succeeded_iff

/-- What the tests return, what is sent and what is left; an aborted run has no tests. -/
theorem run_placed :
    let attempts := Placed.attempted servers w.calls placed
    let registries := Placed.left attempts (registered placed w)
    (ofPlaced servers placed).testResults w =
        (if Placed.completed attempts then
          Placed.testResults servers registries (w.calls ++ attempts.map fun x => x.1.call) placed
        else []) ∧
      ((ofPlaced servers placed).run w).2.calls =
        w.calls ++ Placed.sent registries attempts placed ∧
      ((ofPlaced servers placed).run w).2.registry = registries := by
  intro attempts registries
  obtain ⟨-, hcalls, hregistry⟩ := installs_placed servers placed w
  rw [run_eq, testResults, tests, all_succeeded_placed, Placed.sent, ← List.append_assoc]
  by_cases hcompleted : Placed.completed attempts = true
  · obtain ⟨hresults, hsent, hkept⟩ :=
      Case.testAll_placed servers placed ((ofPlaced servers placed).installs w).2
    rw [hregistry] at hresults hsent hkept
    rw [hcalls] at hresults hsent
    rw [if_pos hcompleted, if_pos hcompleted, if_pos hcompleted]
    exact ⟨hresults, hsent, hkept⟩
  · rw [if_neg hcompleted, if_neg hcompleted, if_neg hcompleted]
    exact ⟨rfl, hcalls.trans (List.append_nil _).symm, hregistry⟩

end Suite

end Shakedown
