import Shakedown.Proofs.Run.Failures
import Shakedown.Proofs.Run.Placed
import Shakedown.Proofs.Suite.Order

/-!
# The password stays out of the results

The password of the administrator goes into one parameter of one call. Let two runs differ in the
password only, and let their servers answer alike as long as they are asked the same but for the
password. Then each call of one run is the same as that of the other but for this parameter, so the
servers go on to answer alike: what the hooks return is the same, and what the registries record
from it.
-/

namespace Shakedown

variable {μ : Type}

/-- Calls that are the same but for the password with which `accounts` is installed. -/
inductive Call.SameButPassword (password password' : String) : Call → Call → Prop
  | same (call : Call) : SameButPassword password password' call call
  | install {call : Call} : call.app = App.accounts.name → call.action = "install" →
      SameButPassword password password' (call.withParam "password" password)
        (call.withParam "password" password')

/-- Servers that answer alike, the first one to calls with one password and the second one to calls
with the other. -/
def AnswerAlike (password password' : String) (server server' : Server) : Prop :=
  ∀ before before' call call',
    List.Forall₂ (Call.SameButPassword password password') before before' →
      Call.SameButPassword password password' call call' →
        (server before call).result = (server' before' call').result

section Password

variable {password password' : String}

namespace Call.SameButPassword

variable {call call' : Call}

theorem app_eq (hsame : SameButPassword password password' call call') : call.app = call'.app := by
  cases hsame <;> rfl

theorem action_eq (hsame : SameButPassword password password' call call') :
    call.action = call'.action := by
  cases hsame <;> rfl

theorem refl_list (calls : List Call) :
    List.Forall₂ (SameButPassword password password') calls calls :=
  List.forall₂_same.mpr fun call _ => .same call

end Call.SameButPassword

/-- The verdict reads the app and the action of a call, and none of its parameters. -/
theorem Answered.verdict_congr {x x' : Answered} (happ : x.call.app = x'.call.app)
    (haction : x.call.action = x'.call.action) (hresult : x.result = x'.result) :
    x.verdict = x'.verdict := by
  rw [verdict, verdict, happ, haction, hresult]

/-- Cases of the same app in the same place, which differ in the password they are given. -/
inductive Placed.SameButPassword (password password' : String) : Placed → Placed → Prop
  | mk (app : App) (base : Base) (username : String) :
      SameButPassword password password' ⟨app, base, ⟨username, password⟩⟩
        ⟨app, base, ⟨username, password'⟩⟩

/-- Attempts at such cases whose calls came to the same. -/
structure Attempted.SameButPassword (password password' : String) (x x' : Placed × Answered) :
    Prop where
  placed : Placed.SameButPassword password password' x.1 x'.1
  call : Call.SameButPassword password password' x.2.call x'.2.call
  result_eq : x.2.result = x'.2.result

namespace Placed.SameButPassword

variable {p p' : Placed} (hsame : SameButPassword password password' p p')

include hsame

theorem call : Call.SameButPassword password password' p.call p'.call := by
  obtain ⟨app, base, username⟩ := hsame
  cases app with
  | core | files => exact .same _
  | accounts =>
    let call := (Call.forApp .accounts "install").withParam "username" username
    have happ : call.app = App.accounts.name := rfl
    exact .install happ rfl

/-- A lookup asks for the name of an administrator. -/
theorem lookup_eq (registries : Base → Registry) : p.lookup registries = p'.lookup registries := by
  obtain ⟨app, base, username⟩ := hsame
  cases app <;> rfl

theorem testCall?_eq (registries : Base → Registry) :
    p.testCall? registries = p'.testCall? registries := by
  rw [testCall?, testCall?, hsame.lookup_eq]

end Placed.SameButPassword

namespace Attempted.SameButPassword

variable {x x' : Placed × Answered} (hsame : SameButPassword password password' x x')

include hsame

theorem success?_eq : x.2.success? = x'.2.success? := by
  rw [Answered.success?, Answered.success?, hsame.result_eq]

theorem verdict_eq : x.2.verdict = x'.2.verdict :=
  Answered.verdict_congr hsame.call.app_eq hsame.call.action_eq hsame.result_eq

/-- What is recorded of an administrator is the name and what the server says. -/
theorem settle_eq (b : Base) (r : Registry) : Placed.settle b r x = Placed.settle b r x' := by
  have hplaced := hsame.placed
  rw [Placed.settle, Placed.settle, hsame.success?_eq]
  generalize x.1 = p, x'.1 = p' at hplaced
  obtain ⟨app, base, username⟩ := hplaced
  rfl

end Attempted.SameButPassword

/-! ### One case after the other -/

namespace Placed

section Attempts

variable {attempts attempts' : List (Placed × Answered)}
  (hsame : List.Forall₂ (Attempted.SameButPassword password password') attempts attempts')

include hsame

theorem completed_of_same : completed attempts = completed attempts' := by
  apply completed_of_rel hsame
  intro x x' hx
  exact hx.success?_eq

theorem left_of_same : left attempts = left attempts' := by
  apply left_of_rel hsame
  intro x x' hx
  exact hx.settle_eq

theorem verdicts_of_same :
    attempts.map (fun x => x.2.verdict) = attempts'.map fun x => x.2.verdict := by
  apply map_eq_of_forall₂ hsame
  intro x x' hx
  exact hx.verdict_eq

theorem calls_of_same :
    List.Forall₂ (Call.SameButPassword password password') (attempts.map fun x => x.1.call)
      (attempts'.map fun x => x.1.call) := by
  apply List.rel_map _ hsame
  intro x x' hx
  exact hx.placed.call

end Attempts

section AnswerAlike

variable {server server' : Server} (halike : AnswerAlike password password' server server')
  {placed placed' : List Placed}
  (hplaced : List.Forall₂ (SameButPassword password password') placed placed')
  {before before' : List Call}
  (hbefore : List.Forall₂ (Call.SameButPassword password password') before before')

include halike hplaced hbefore

/-- The same installs are attempted: up to the first that is not answered with success. -/
theorem attempted_of_same :
    List.Forall₂ (Attempted.SameButPassword password password')
      (attempted (fun _ => server) before placed)
      (attempted (fun _ => server') before' placed') := by
  apply attempted_rel _ _ _ hplaced hbefore
  · intro before before' p p' hsent hp
    exact List.rel_append hsent (.cons hp.call .nil)
  · intro before before' p p' hsent hp
    exact ⟨hp, hp.call, halike before before' p.call p'.call hsent hp.call⟩
  · intro x x' hx
    exact hx.success?_eq

/-- Tests look into the same registries, and what they send holds no password. -/
theorem testResults_of_same (registries : Base → Registry) :
    testResults (fun _ => server) registries before placed =
      testResults (fun _ => server') registries before' placed' := by
  induction hplaced generalizing before before' with
  | nil => rfl
  | @cons p p' rest rest' hp hrest ih =>
    have hhead : Case.testResult server before (p.lookup registries) =
        Case.testResult server' before' (p.lookup registries) := by
      cases p.lookup registries with
      | error f => rfl
      | ok call? =>
        cases call? with
        | none => rfl
        | some call =>
          exact Answered.verdict_congr rfl rfl
            (halike before before' call call hbefore (.same call))
    have hsent := List.rel_append hbefore
      (@Call.SameButPassword.refl_list password password' (p.testCall? registries).toList)
    rw [testResults, testResults, ← hp.lookup_eq, ← hp.testCall?_eq, hhead, ih hsent]

end AnswerAlike

theorem tests_of_same {placed placed' : List Placed}
    (hplaced : List.Forall₂ (SameButPassword password password') placed placed')
    (registries : Base → Registry) :
    placed.filterMap (testCall? registries) = placed'.filterMap (testCall? registries) := by
  induction hplaced with
  | nil => rfl
  | cons hp _ ih => rw [List.filterMap_cons, List.filterMap_cons, hp.testCall?_eq, ih]

end Placed

end Password

/-! ### Whole runs -/

namespace Suite

theorem forApps_eq_ofPlaced (server : Server) (apps : List App) (credentials : Credentials) :
    (forApps server apps credentials : Suite μ) =
      ofPlaced (fun _ => server)
        ((App.selected apps).map fun a => ⟨a, .own, credentials⟩) := by
  rw [forApps_eq, ofPlaced, List.map_map]
  rfl

section Placed

variable {password password' : String} {server server' : Server}
  (halike : AnswerAlike password password' server server') {placed placed' : List Placed}
  (hplaced : List.Forall₂ (Placed.SameButPassword password password') placed placed')
  (w : World μ)

include hplaced in
theorem registered_of_same : registered placed w = registered placed' w := by
  have happs : placed.map Placed.app = placed'.map Placed.app := by
    apply map_eq_of_forall₂ hplaced
    rintro _ _ ⟨app, base, username⟩
    rfl
  funext b
  cases b with
  | own => exact congrArg (List.foldl Registry.register w.own) happs
  | guest => rfl

include halike hplaced

/-- The hooks return the same, and what they send is the same but for the password. -/
theorem run_of_same :
    (ofPlaced (fun _ => server) placed).invocations w =
        (ofPlaced (fun _ => server') placed').invocations w ∧
      ((ofPlaced (fun _ => server) placed).run w).2.registry =
        ((ofPlaced (fun _ => server') placed').run w).2.registry ∧
      ∃ sent sent', ((ofPlaced (fun _ => server) placed).run w).2.calls = w.calls ++ sent ∧
        ((ofPlaced (fun _ => server') placed').run w).2.calls = w.calls ++ sent' ∧
        List.Forall₂ (Call.SameButPassword password password') sent sent' := by
  have hattempts := Placed.attempted_of_same halike hplaced
    (Call.SameButPassword.refl_list w.calls)
  have hinstalls := Placed.calls_of_same hattempts
  have hcompleted := Placed.completed_of_same hattempts
  have hbefore := List.rel_append (Call.SameButPassword.refl_list w.calls) hinstalls
  obtain ⟨htests, hcalls, hregistry⟩ := run_placed (fun _ => server) placed w
  obtain ⟨htests', hcalls', hregistry'⟩ := run_placed (fun _ => server') placed' w
  rw [← hcompleted, ← Placed.left_of_same hattempts, ← registered_of_same hplaced,
    ← Placed.testResults_of_same halike hplaced hbefore] at htests'
  rw [← Placed.left_of_same hattempts, ← registered_of_same hplaced] at hcalls' hregistry'
  refine ⟨?_, hregistry.trans hregistry'.symm, _, _, hcalls, hcalls', ?_⟩
  · rw [invocations_eq, invocations_eq, (installs_placed (fun _ => server) placed w).1,
      (installs_placed (fun _ => server') placed' w).1, Placed.verdicts_of_same hattempts,
      htests.trans htests'.symm]
  · rw [Placed.sent, Placed.sent, ← hcompleted, Placed.tests_of_same hplaced]
    exact List.rel_append hinstalls (Call.SameButPassword.refl_list _)

end Placed

/-- With servers that do not look at the password, runs differ only where it is sent. -/
theorem run_of_other_password (server server' : Server) (apps : List App)
    (username password password' : String) (w : World μ)
    (halike : AnswerAlike password password' server server') :
    let one := (forApps server apps ⟨username, password⟩ : Suite μ).run w
    let other := (forApps server' apps ⟨username, password'⟩ : Suite μ).run w
    other.1.cases.map CaseReport.name = one.1.cases.map CaseReport.name ∧
      other.1.cases.map CaseReport.app = one.1.cases.map CaseReport.app ∧
      other.1.outcomes = one.1.outcomes ∧
      other.1.exitCode = one.1.exitCode ∧
      (∀ b, other.2.registry b = one.2.registry b) ∧
      ∃ sent sent', one.2.calls = w.calls ++ sent ∧ other.2.calls = w.calls ++ sent' ∧
        List.Forall₂ (Call.SameButPassword password password') sent sent' := by
  intro one other
  let places (password : String) : List Placed :=
    (App.selected apps).map fun a => ⟨a, .own, ⟨username, password⟩⟩
  have hplaced : List.Forall₂ (Placed.SameButPassword password password') (places password)
      (places password') := by
    rw [List.forall₂_map_left_iff, List.forall₂_map_right_iff, List.forall₂_same]
    exact fun a _ => .mk a .own username
  obtain ⟨hinvocations, hregistry, hsent⟩ := run_of_same halike hplaced w
  have hnames : ∀ a, (Case.standard server' .own ⟨username, password'⟩ a : Case μ).name =
      (Case.standard server .own ⟨username, password⟩ a : Case μ).name := by
    rintro (_ | _ | _) <;> rfl
  rw [← forApps_eq_ofPlaced, ← forApps_eq_ofPlaced] at hinvocations hregistry hsent
  have houtcomes : other.1.outcomes = one.1.outcomes :=
    outcomes_congr (by simp [cases_forApps]) hinvocations.symm
  refine ⟨?_, ?_, houtcomes, exitCode_congr (by rw [houtcomes]),
    fun b => (congrFun hregistry b).symm, hsent⟩
  · calc other.1.cases.map CaseReport.name
        = (forApps server' apps ⟨username, password'⟩ : Suite μ).cases.map Case.name :=
          map_name_cases _ w
      _ = (forApps server apps ⟨username, password⟩ : Suite μ).cases.map Case.name := by
          simp [cases_forApps, hnames]
      _ = one.1.cases.map CaseReport.name := (map_name_cases _ w).symm
  · calc other.1.cases.map CaseReport.app
        = (forApps server' apps ⟨username, password'⟩ : Suite μ).cases.map Case.app :=
          map_app_cases _ w
      _ = (forApps server apps ⟨username, password⟩ : Suite μ).cases.map Case.app := by
          simp [cases_forApps, Case.app_standard]
      _ = one.1.cases.map CaseReport.app := (map_app_cases _ w).symm

/-- Servers that number their answers, one slower than the other. -/
theorem run_of_other_password_numbered :
    let answer (before : List Call) (call : Call) : Except Failure Envelope :=
      if call.app = Case.unknownName then .ok (.failure 404 Case.unknownRefusal)
      else .ok (.success (.int before.length))
    let server : Server := fun before call => { result := answer before call }
    let server' : Server := fun before call => { result := answer before call, elapsed := 1000000 }
    let w : World Unit := World.start Registry.empty ()
    let one := (forApps server App.all ⟨"admin", "secret"⟩).run w
    let other := (forApps server' App.all ⟨"admin", "hidden"⟩).run w
    AnswerAlike "secret" "hidden" server server' ∧
      one.1.outcomes = [.passed, .passed, .passed] ∧
      other.1.outcomes = one.1.outcomes ∧
      other.2.calls ≠ one.2.calls := by
  intro answer server server' w one other
  have halike : AnswerAlike "secret" "hidden" server server' := by
    intro before before' call call' hbefore hsame
    change answer before call = answer before' call'
    simp only [answer]
    rw [hbefore.length_eq, hsame.app_eq]
  obtain ⟨-, -, houtcomes, -⟩ :=
    run_of_other_password server server' App.all "admin" "secret" "hidden" w halike
  refine ⟨halike, ?_, houtcomes, ?_⟩
  · simp only [one, forApps_eq]
    decide +kernel
  · simp only [one, other, forApps_eq]
    decide +kernel

end Suite

end Shakedown
