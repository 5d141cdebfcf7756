import Shakedown.Proofs.Run.Failures
import Shakedown.Proofs.Run.Placed
import Shakedown.Proofs.Transport.Arguments
import Shakedown.Proofs.Transport.Complaint
import Shakedown.Proofs.Transport.Requests

/-!
# The two transports agree

Let a program end in time with certain bodies on its standard output, and let an endpoint answer
with the same bodies. Then it makes no difference which of the two a run goes through, whatever the
bodies are: it sends the same calls, leaves the same registries and reports the same outcomes. What
differs is the text of a complaint about a body that is no envelope.

A success is the same through both, so the runs attempt the same installs, and their tests look up
the same administrators. With that, the hooks of a case are related one by one.
-/

namespace Shakedown

variable {μ : Type}

/-- After some calls come others, each of which a program can be started with. -/
def Extends (earlier before : List Call) : Prop :=
  ∃ sent, before = earlier ++ sent ∧ ∀ call ∈ sent, call.NulFree

theorem Extends.refl (earlier : List Call) : Extends earlier earlier :=
  ⟨[], (List.append_nil earlier).symm, List.forall_mem_nil _⟩

theorem Extends.append {earlier before more : List Call} (hbefore : Extends earlier before)
    (hmore : ∀ call ∈ more, call.NulFree) : Extends earlier (before ++ more) := by
  obtain ⟨sent, rfl, hsent⟩ := hbefore
  refine ⟨sent ++ more, List.append_assoc .., fun call hcall => ?_⟩
  rcases List.mem_append.mp hcall with h | h
  · exact hsent call h
  · exact hmore call h

theorem Extends.concat {earlier before : List Call} {call : Call}
    (hbefore : Extends earlier before) (hcall : call.NulFree) :
    Extends earlier (before ++ [call]) :=
  hbefore.append (List.forall_mem_singleton.mpr hcall)

/-! ### Programs and endpoints with the same bodies -/

/-- For the calls behind some others, a program ends as it is said for them. -/
def Shell.Follows (s : Shell) (ending : List Call → Call → Ending × Nat) (earlier : List Call)
    (program : Shell.Program) : Prop :=
  ∀ before call, Extends earlier before → call.NulFree →
    program (s.started before) (s.arguments call) = ending before call

/-- For the calls behind some others, exchanges end as it is said for them. -/
def Endpoint.Follows (e : Endpoint) (outcome : List Call → Call → Exchange × Nat)
    (earlier : List Call) (remote : Endpoint.Remote) : Prop :=
  ∀ before call request, Extends earlier before → call.NulFree →
    e.request call = .ok request → remote (e.requested before) request = outcome before call

/-- A program can end in any way for each call, since its arguments tell the calls apart. -/
theorem Shell.exists_program {s : Shell} (hprogram : NulFree s.program) (hroot : NulFree s.root)
    (ending : List Call → Call → Ending × Nat) (earlier : List Call) :
    ∃ program, s.Follows ending earlier program := by
  have hread := Function.leftInverse_invFun s.arguments_injective
  let read : List String → Call := Function.invFun s.arguments
  refine ⟨fun past arguments =>
    ending (earlier ++ (past.drop (s.started earlier).length).map read) (read arguments), ?_⟩
  rintro before call ⟨sent, rfl, hsent⟩ -
  have hstarted : s.started (earlier ++ sent) = s.started earlier ++ sent.map s.arguments :=
    started_append earlier fun c hc => canStart_of_nulFree hprogram hroot (hsent c hc)
  have hpast : ((s.started (earlier ++ sent)).drop (s.started earlier).length).map read = sent := by
    rw [hstarted, List.drop_left, List.map_map]
    exact (List.map_congr_left fun c _ => hread c).trans (List.map_id sent)
  dsimp only
  rw [hpast]
  exact congrArg _ (hread call)

/-- Exchanges can end in any way for each call, since requests tell the calls apart. -/
theorem Endpoint.exists_remote {e : Endpoint} (husable : e.Usable)
    (outcome : List Call → Call → Exchange × Nat) (earlier : List Call) :
    ∃ remote, e.Follows outcome earlier remote := by
  obtain ⟨made, hmade⟩ := Classical.axiomOfChoice (exists_request husable)
  have hread := Function.leftInverse_invFun (made_injective husable hmade)
  let read : Request → Call := Function.invFun made
  refine ⟨fun past request =>
    outcome (earlier ++ (past.drop (e.requested earlier).length).map read) (read request), ?_⟩
  rintro before call request ⟨sent, rfl, -⟩ - hrequest
  have hpast :
      ((e.requested (earlier ++ sent)).drop (e.requested earlier).length).map read = sent := by
    rw [requested_append hmade, List.drop_left, List.map_map]
    exact (List.map_congr_left fun c _ => hread c).trans (List.map_id sent)
  obtain rfl : made call = request := Except.ok.inj ((hmade call).symm.trans hrequest)
  dsimp only
  rw [hpast]
  exact congrArg _ (hread call)

/-- A program ends in time after every call. -/
def Shell.finishing (body errors : List Call → Call → List UInt8)
    (exit lasting : List Call → Call → Nat) (before : List Call) (call : Call) : Ending × Nat :=
  (.finished (body before call) (errors before call) (exit before call), lasting before call)

/-- Every call is answered. -/
def Endpoint.answering (body : List Call → Call → List UInt8)
    (status lasting : List Call → Call → Nat) (before : List Call) (call : Call) :
    Exchange × Nat :=
  (.answered (status before call) (body before call), lasting before call)

/-- Servers that differ no more than the transports do, about calls that either of these can send;
the second names the statuses. -/
def Agree (status : List Call → Call → Nat) (earlier : List Call)
    (servers servers' : Base → Server) : Prop :=
  ∀ b before call, Extends earlier before → call.NulFree →
    SameBut (some (status before call)) (servers b before call).result
      (servers' b before call).result

theorem agree_transports {shell : Shell} {endpoint : Endpoint} (hprogram : NulFree shell.program)
    (hroot : NulFree shell.root) (husable : endpoint.Usable)
    {body errors : List Call → Call → List UInt8}
    {exit status lasting lasting' : List Call → Call → Nat} {earlier : List Call}
    {program : Shell.Program} {remote : Endpoint.Remote}
    (hshell : shell.Follows (Shell.finishing body errors exit lasting) earlier program)
    (hendpoint : endpoint.Follows (Endpoint.answering body status lasting') earlier remote) :
    Agree status earlier (fun _ => shell.server program) (fun _ => endpoint.server remote) := by
  intro _ before call hbefore hcall
  obtain ⟨request, hrequest⟩ := Endpoint.exists_request husable call
  rw [Shell.result_server (Shell.canStart_of_nulFree hprogram hroot hcall),
    hshell before call hbefore hcall, Endpoint.result_server remote before hrequest,
    hendpoint before call request hbefore hcall hrequest]
  exact sameBut_resultOf shell request.url _ _ _ _

namespace Placed

theorem nulFree_calls {placed : List Placed} (hplaced : ∀ p ∈ placed, p.credentials.NulFree) :
    ∀ c ∈ placed.map call, c.NulFree := by
  rw [List.forall_mem_map]
  exact fun p hp => Call.nulFree_install (hplaced p hp) p.app

theorem nulFree_testCall? {registries : Base → Registry} {p : Placed} {call : Call}
    (hcall : p.testCall? registries = some call) : call.NulFree := by
  unfold testCall? lookup at hcall
  rcases Case.lookup_cases p.credentials p.app (registries p.base) with hok | ⟨f, herror, -⟩
  · rw [hok] at hcall
    exact App.nulFree_testCall? hcall
  · rw [herror] at hcall
    exact nomatch hcall

theorem nulFree_testCalls (registries : Base → Registry) (placed : List Placed) :
    ∀ c ∈ placed.filterMap (testCall? registries), c.NulFree := by
  intro c hc
  obtain ⟨p, -, hcall⟩ := List.mem_filterMap.mp hc
  exact nulFree_testCall? hcall

/-- The statuses with which the calls of the case at `i` are answered. Ahead of its install are the
installs of the cases before it, and ahead of its tests are all installs and the tests before. -/
def statusIn (status : List Call → Call → Nat) (registries : Base → Registry) (before : List Call)
    (placed : List Placed) (i : Nat) (p : Placed) : Phase → Option Nat
  | .install => some (status (before ++ (placed.take i).map call) p.call)
  | .tests =>
    (p.testCall? registries).map
      (status (before ++ placed.map call ++ (placed.take i).filterMap (testCall? registries)))

section Agree

variable {status : List Call → Call → Nat} {earlier before : List Call}
  {servers servers' : Base → Server} (hagree : Agree status earlier servers servers')
  (hbefore : Extends earlier before)

include hagree hbefore

theorem sameBut_answer {p : Placed} (hp : p.credentials.NulFree) :
    SameBut (some (status before p.call)) (p.answer servers before).result
      (p.answer servers' before).result :=
  hagree p.base before p.call hbefore (Call.nulFree_install hp p.app)

theorem sameBut_testResult (registries : Base → Registry) (p : Placed) :
    SameBut ((p.testCall? registries).map (status before))
      (Case.testResult (servers p.base) before (p.lookup registries))
      (Case.testResult (servers' p.base) before (p.lookup registries)) := by
  unfold testCall? lookup
  rcases Case.lookup_cases p.credentials p.app (registries p.base) with hok | ⟨f, herror, hhigh⟩
  · rw [hok]
    cases hcall : p.app.testCall? with
    | none => exact .same nofun
    | some call =>
      have hanswer : SameBut (some (status before call))
          ((servers p.base).answer before call).result
          ((servers' p.base).answer before call).result :=
        hagree p.base before call hbefore (App.nulFree_testCall? hcall)
      exact hanswer.verdict rfl
  · rw [herror]
    refine .same fun g hg => ?_
    cases hg
    rw [hhigh]
    decide

theorem attempted_of_agree {placed : List Placed}
    (hplaced : ∀ p ∈ placed, p.credentials.NulFree) :
    (attempted servers' before placed).map Prod.fst =
        (attempted servers before placed).map Prod.fst ∧
      completed (attempted servers' before placed) =
        completed (attempted servers before placed) ∧
      ∀ registries, left (attempted servers' before placed) registries =
        left (attempted servers before placed) registries := by
  let same (x x' : Placed × Answered) : Prop := x.1 = x'.1 ∧ x.2.success? = x'.2.success?
  -- a success is the same envelope through both, so both runs stop here or both go on
  have hattempts : List.Forall₂ same (attempted servers before placed)
      (attempted servers' before placed) := by
    refine @attempted_rel servers servers'
      (fun before before' => before = before' ∧ Extends earlier before)
      (fun p p' => p = p' ∧ p.credentials.NulFree) same ?_ ?_ (fun x x' hx => hx.2) placed placed ?_
      before before ⟨rfl, hbefore⟩
    · rintro before _ p _ ⟨rfl, hbefore⟩ ⟨rfl, hp⟩
      exact ⟨rfl, hbefore.concat (Call.nulFree_install hp p.app)⟩
    · rintro before _ p _ ⟨rfl, hbefore⟩ ⟨rfl, hp⟩
      exact ⟨rfl, (sameBut_answer hagree hbefore hp).success?_eq.symm⟩
    · exact List.forall₂_same.mpr fun p hp => ⟨rfl, hplaced p hp⟩
  have hplaces : (attempted servers before placed).map Prod.fst =
      (attempted servers' before placed).map Prod.fst := by
    apply map_eq_of_forall₂ hattempts
    exact fun x x' hx => hx.1
  have hleft : left (attempted servers before placed) = left (attempted servers' before placed) := by
    apply left_of_rel hattempts
    intro x x' hx b r
    rw [settle, settle, hx.1, hx.2]
  exact ⟨hplaces.symm, (completed_of_rel hattempts fun x x' hx => hx.2).symm,
    fun registries => congrFun hleft.symm registries⟩

theorem calls_of_agree {placed : List Placed} (hplaced : ∀ p ∈ placed, p.credentials.NulFree) :
    (attempted servers' before placed).map (fun x => x.1.call) =
      (attempted servers before placed).map fun x => x.1.call := by
  have hcalls := congrArg (List.map call) (attempted_of_agree hagree hbefore hplaced).1
  rw [List.map_map, List.map_map] at hcalls
  exact hcalls

theorem sameBut_installs {placed : List Placed} (hplaced : ∀ p ∈ placed, p.credentials.NulFree)
    {i : Nat} {p : Placed} (hp : placed[i]? = some p) :
    Option.Rel (SameBut (some (status (before ++ (placed.take i).map call) p.call)))
      ((attempted servers before placed).map fun x => x.2.verdict)[i]?
      ((attempted servers' before placed).map fun x => x.2.verdict)[i]? := by
  have hplaces := congrArg (fun ps : List Placed => ps[i]?)
    (attempted_of_agree hagree hbefore hplaced).1
  rw [List.getElem?_map, List.getElem?_map] at hplaces ⊢
  cases hx : (attempted servers before placed)[i]? with
  | none =>
    rw [hx] at hplaces
    rw [Option.map_eq_none_iff.mp hplaces]
    exact .none
  | some x =>
    rw [hx] at hplaces
    obtain ⟨x', hx', -⟩ := Option.map_eq_some_iff.mp hplaces
    obtain ⟨hplace, hanswer⟩ := getElem?_attempted hx
    obtain ⟨hplace', hanswer'⟩ := getElem?_attempted hx'
    obtain rfl : p = x.1 := Option.some.inj (hp.symm.trans hplace)
    rw [← Option.some.inj (hplace.symm.trans hplace')] at hanswer'
    rw [hx', Option.map_some, Option.map_some, hanswer, hanswer']
    have hmem := hplaced x.1 (List.mem_of_getElem? hplace)
    have hinstalls : Extends earlier (before ++ (placed.take i).map call) :=
      hbefore.append (nulFree_calls fun p hp => hplaced p (List.mem_of_mem_take hp))
    exact .some ((sameBut_answer hagree hinstalls hmem).verdict rfl)

end Agree

end Placed

namespace Suite

section Agree

variable {status : List Call → Call → Nat} {servers servers' : Base → Server}
  {placed : List Placed} (w : World μ) (hagree : Agree status w.calls servers servers')
  (hplaced : ∀ p ∈ placed, p.credentials.NulFree)

include hagree hplaced

theorem run_of_agree :
    ((ofPlaced servers' placed).run w).2.calls = ((ofPlaced servers placed).run w).2.calls ∧
      ((ofPlaced servers' placed).run w).2.registry =
        ((ofPlaced servers placed).run w).2.registry := by
  obtain ⟨-, hcompleted, hleft⟩ := Placed.attempted_of_agree hagree (.refl w.calls) hplaced
  have hinstalls := Placed.calls_of_agree hagree (.refl w.calls) hplaced
  obtain ⟨-, hcalls, hregistry⟩ := run_placed servers placed w
  obtain ⟨-, hcalls', hregistry'⟩ := run_placed servers' placed w
  rw [hcalls', hcalls, hregistry', hregistry, hleft, Placed.sent, hcompleted, hinstalls]
  exact ⟨rfl, rfl⟩

theorem sameBut_testResults {i : Nat} {p : Placed} (hp : placed[i]? = some p) :
    Option.Rel
      (SameBut (Placed.statusIn status ((ofPlaced servers placed).run w).2.registry w.calls placed
        i p .tests))
      ((ofPlaced servers placed).testResults w)[i]?
      ((ofPlaced servers' placed).testResults w)[i]? := by
  obtain ⟨-, hcompleted, hleft⟩ := Placed.attempted_of_agree hagree (.refl w.calls) hplaced
  have hinstalls := Placed.calls_of_agree hagree (.refl w.calls) hplaced
  obtain ⟨htests, -, hregistry⟩ := run_placed servers placed w
  obtain ⟨htests', -, -⟩ := run_placed servers' placed w
  rw [hcompleted, hleft, hinstalls] at htests'
  rw [htests, htests', hregistry]
  by_cases hall : Placed.completed (Placed.attempted servers w.calls placed) = true
  · rw [if_pos hall, if_pos hall, Placed.getElem?_testResults, Placed.getElem?_testResults, hp,
      Placed.calls_of_completed hall]
    have hinstalled := (Extends.refl w.calls).append (Placed.nulFree_calls hplaced)
    exact .some (Placed.sameBut_testResult hagree
      (hinstalled.append (Placed.nulFree_testCalls _ _)) _ p)
  · -- neither run has tests
    rw [if_neg hall, if_neg hall]
    exact .none

theorem sameBut_outcomes {i : Nat} {p : Placed} (hp : placed[i]? = some p) :
    ∃ o o', ((ofPlaced servers placed).run w).1.outcomes[i]? = some o ∧
      ((ofPlaced servers' placed).run w).1.outcomes[i]? = some o' ∧
      Outcome.SameBut (Placed.statusIn status ((ofPlaced servers placed).run w).2.registry w.calls
        placed i p) o o' := by
  have hcase (servers : Base → Server) :
      (ofPlaced servers placed : Suite μ).cases[i]? = some (p.toCase servers) := by
    unfold ofPlaced
    rw [List.getElem?_map, hp]
    rfl
  have hinstalls := Placed.sameBut_installs hagree (.refl w.calls) hplaced hp
  rw [← (installs_placed servers placed w).1, ← (installs_placed servers' placed w).1] at hinstalls
  have htests := sameBut_testResults w hagree hplaced hp
  rw [getElem?_outcomes, getElem?_outcomes, hcase, hcase]
  exact ⟨_, _, rfl, rfl, Outcome.sameBut_ofResults hinstalls htests⟩

theorem map_outcomes_of_agree {α : Type} {f : Outcome → α}
    (hf : ∀ {statusIn o o'}, Outcome.SameBut statusIn o o' → f o' = f o) :
    ((ofPlaced servers' placed).run w).1.outcomes.map f =
      ((ofPlaced servers placed).run w).1.outcomes.map f := by
  apply List.ext_getElem?
  intro i
  rw [List.getElem?_map, List.getElem?_map]
  cases hp : placed[i]? with
  | none =>
    have hnone (servers : Base → Server) :
        ((ofPlaced servers placed).run w).1.outcomes[i]? = none := by
      rw [getElem?_outcomes, ofPlaced, List.getElem?_map, hp]
      rfl
    rw [hnone, hnone]
  | some p =>
    obtain ⟨o, o', ho, ho', hsame⟩ := sameBut_outcomes w hagree hplaced hp
    rw [ho, ho', Option.map_some, Option.map_some, hf hsame]

end Agree

theorem nulFree_of_run (servers : Base → Server) {placed : List Placed}
    (hplaced : ∀ p ∈ placed, p.credentials.NulFree) (w : World μ) :
    ∃ sent, ((ofPlaced servers placed).run w).2.calls = w.calls ++ sent ∧
      ∀ call ∈ sent, call.NulFree := by
  obtain ⟨-, hcalls, -⟩ := run_placed servers placed w
  refine ⟨_, hcalls, ?_⟩
  intro call hcall
  rcases List.mem_append.mp hcall with hinstall | htest
  · obtain ⟨x, hx, rfl⟩ := List.mem_map.mp hinstall
    exact Call.nulFree_install (hplaced x.1 (Placed.mem_attempted hx).1) x.1.app
  · split at htest
    · exact Placed.nulFree_testCalls _ _ call htest
    · exact absurd htest List.not_mem_nil

/-- Whatever bodies are assigned to the calls, programs and exchanges can follow them, and a run goes
the same way through both but for the complaints about such bodies. -/
theorem run_through_either (shell : Shell) (endpoint : Endpoint) (placed : List Placed)
    (w : World μ) (body errors : List Call → Call → List UInt8)
    (exit status lasting lasting' : List Call → Call → Nat) (hprogram : NulFree shell.program)
    (hroot : NulFree shell.root) (hplaced : ∀ p ∈ placed, p.credentials.NulFree)
    (husable : endpoint.Usable) :
    (∃ program, shell.Follows (Shell.finishing body errors exit lasting) w.calls program) ∧
      (∃ remote, endpoint.Follows (Endpoint.answering body status lasting') w.calls remote) ∧
      ∀ program remote,
        shell.Follows (Shell.finishing body errors exit lasting) w.calls program →
        endpoint.Follows (Endpoint.answering body status lasting') w.calls remote →
        let printed : Report × World μ := (ofPlaced (fun _ => shell.server program) placed).run w
        let served : Report × World μ := (ofPlaced (fun _ => endpoint.server remote) placed).run w
        (∃ sent, printed.2.calls = w.calls ++ sent ∧ served.2.calls = w.calls ++ sent ∧
            ∀ call ∈ sent, shell.canStart call = true ∧
              ∃ request, endpoint.request call = .ok request) ∧
          (∀ b, served.2.registry b = printed.2.registry b) ∧
          served.1.cases.map CaseReport.name = printed.1.cases.map CaseReport.name ∧
          served.1.cases.map CaseReport.app = printed.1.cases.map CaseReport.app ∧
          served.1.outcomes.map Outcome.status = printed.1.outcomes.map Outcome.status ∧
          served.1.outcomes.map Outcome.severity? = printed.1.outcomes.map Outcome.severity? ∧
          served.1.exitCode = printed.1.exitCode ∧
          ∀ i p, placed[i]? = some p →
            ∃ o o', printed.1.outcomes[i]? = some o ∧ served.1.outcomes[i]? = some o' ∧
              Outcome.SameBut (Placed.statusIn status printed.2.registry w.calls placed i p)
                o o' := by
  refine ⟨Shell.exists_program hprogram hroot _ w.calls, Endpoint.exists_remote husable _ w.calls,
    ?_⟩
  intro program remote hshell hendpoint printed served
  have hagree := agree_transports hprogram hroot husable hshell hendpoint
  obtain ⟨hcalls, hregistry⟩ := run_of_agree w hagree hplaced
  have hseverities := map_outcomes_of_agree w hagree hplaced Outcome.SameBut.severity?_eq
  obtain ⟨sent, hsent, hfree⟩ := nulFree_of_run (fun _ => shell.server program) hplaced w
  refine ⟨⟨sent, hsent, hcalls.trans hsent, ?_⟩, congrFun hregistry, ?_, ?_,
    map_outcomes_of_agree w hagree hplaced Outcome.SameBut.status_eq, hseverities,
    exitCode_congr hseverities, fun i p => sameBut_outcomes w hagree hplaced⟩
  · intro call hcall
    exact ⟨Shell.canStart_of_nulFree hprogram hroot (hfree call hcall),
      Endpoint.exists_request husable call⟩
  · refine (map_name_cases _ w).trans (Eq.trans ?_ (map_name_cases _ w).symm)
    rw [ofPlaced, ofPlaced, List.map_map, List.map_map]
    exact List.map_congr_left fun p _ => Placed.name_toCase ..
  · refine (map_app_cases _ w).trans (Eq.trans ?_ (map_app_cases _ w).symm)
    rw [ofPlaced, ofPlaced, List.map_map, List.map_map]
    refine List.map_congr_left fun p _ => ?_
    exact (Placed.app_toCase _ p).trans (Placed.app_toCase _ p).symm

/-- Bodies that are neither UTF-8 nor an envelope, under a status of its own for each call. -/
theorem run_through_either_not_utf8 :
    let shell : Shell := ⟨"php", "/srv", 5000⟩
    let endpoint : Endpoint := ⟨"http://localhost/api", 5000⟩
    let placed : List Placed :=
      [⟨.core, .own, ⟨"admin", "secret"⟩⟩, ⟨.accounts, .guest, ⟨"admin", "secret"⟩⟩]
    let w : World Unit := World.start Registry.empty ()
    let body : List Call → Call → List UInt8 := fun _ _ => [0x3C, 0xFF]
    let status : List Call → Call → Nat := fun before _ => 500 + before.length
    let zero : List Call → Call → Nat := fun _ _ => 0
    let program : Shell.Program := fun _ _ => (.finished [0x3C, 0xFF] [] 0, 0)
    let remote : Endpoint.Remote := fun past _ =>
      (.answered (500 + past.length) [0x3C, 0xFF], 0)
    let printed : Report × World Unit := (ofPlaced (fun _ => shell.server program) placed).run w
    let served : Report × World Unit := (ofPlaced (fun _ => endpoint.server remote) placed).run w
    NulFree shell.program ∧ NulFree shell.root ∧ (∀ p ∈ placed, p.credentials.NulFree) ∧
      endpoint.Usable ∧
      shell.Follows (Shell.finishing body (fun _ _ => []) zero zero) w.calls program ∧
      endpoint.Follows (Endpoint.answering body status zero) w.calls remote ∧
      served.1.exitCode = printed.1.exitCode ∧
      ∃ o o', printed.1.outcomes[0]? = some o ∧ served.1.outcomes[0]? = some o' ∧
        Outcome.SameBut (Placed.statusIn status printed.2.registry w.calls placed 0
          ⟨.core, .own, ⟨"admin", "secret"⟩⟩) o o' := by
  intro shell endpoint placed w body status zero program remote printed served
  have hprogram : NulFree shell.program := by decide
  have hroot : NulFree shell.root := by decide
  have hadmin : Credentials.NulFree ⟨"admin", "secret"⟩ := ⟨by decide, by decide⟩
  have hplaced : ∀ p ∈ placed, p.credentials.NulFree :=
    List.forall_mem_cons.mpr ⟨hadmin, List.forall_mem_singleton.mpr hadmin⟩
  have husable : (Endpoint.mk "http://localhost/api" 5000).Usable := ⟨_, rfl, rfl⟩
  have hshell : shell.Follows (Shell.finishing body (fun _ _ => []) zero zero) w.calls program :=
    fun _ _ _ _ => rfl
  have hendpoint : endpoint.Follows (Endpoint.answering body status zero) w.calls remote := by
    intro before call request _ _ _
    change (Exchange.answered (500 + (endpoint.requested before).length) _, 0) = _
    rw [Endpoint.length_requested husable]
    rfl
  obtain ⟨-, -, hagree⟩ :=
    run_through_either shell endpoint placed w body (fun _ _ => []) zero status zero zero hprogram
      hroot hplaced husable
  obtain ⟨-, -, -, -, -, -, hcode, houtcomes⟩ := hagree program remote hshell hendpoint
  exact ⟨hprogram, hroot, hplaced, husable, hshell, hendpoint, hcode, houtcomes 0 _ rfl⟩

end Suite

end Shakedown
