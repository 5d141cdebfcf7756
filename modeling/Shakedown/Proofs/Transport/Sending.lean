import Shakedown.Proofs.Case.Standard
import Shakedown.Transport.Endpoint
import Shakedown.Transport.Shell

/-!
# Calls that can be sent

A program can be started with every call that is free of the character NUL, if its own name and the
root of the script are. The URL of an endpoint stands the query of any call: whether a request can
be made of it does not depend on the call.
-/

namespace Shakedown

def NulFree (text : String) : Prop := '\x00' ∉ text.toList

instance (text : String) : Decidable (NulFree text) :=
  inferInstanceAs (Decidable (¬_))

theorem NulFree.append {first second : String} (hfirst : NulFree first)
    (hsecond : NulFree second) : NulFree (first ++ second) := by
  unfold NulFree
  rw [String.toList_append, List.mem_append]
  exact not_or.mpr ⟨hfirst, hsecond⟩

structure Credentials.NulFree (c : Credentials) : Prop where
  username : Shakedown.NulFree c.username
  password : Shakedown.NulFree c.password

structure Call.NulFree (call : Call) : Prop where
  app : Shakedown.NulFree call.app
  action : Shakedown.NulFree call.action
  params : ∀ p ∈ call.params.toList, Shakedown.NulFree p.1 ∧ Shakedown.NulFree p.2

namespace Call

theorem nulFree_install {credentials : Credentials} (hcredentials : credentials.NulFree)
    (a : App) : (install credentials a).NulFree := by
  refine ⟨?_, (by decide : Shakedown.NulFree "install"), ?_⟩
  · change Shakedown.NulFree a.name
    cases a <;> decide
  · change ∀ p ∈ (if a = .accounts then credentials.params else Entries.empty).toList, _
    by_cases ha : a = .accounts
    · rw [if_pos ha]
      change ∀ p ∈ [("password", credentials.password), ("username", credentials.username)], _
      rw [List.forall_mem_cons, List.forall_mem_singleton]
      have hkeys : Shakedown.NulFree "password" ∧ Shakedown.NulFree "username" := by decide
      exact ⟨⟨hkeys.1, hcredentials.password⟩, hkeys.2, hcredentials.username⟩
    · rw [if_neg ha]
      exact List.forall_mem_nil _

theorem nulFree_toUnknownApp : toUnknownApp.NulFree :=
  ⟨by decide, by decide, List.forall_mem_nil _⟩

theorem nulFree_readSettings : readSettings.NulFree :=
  ⟨by decide, by decide, List.forall_mem_nil _⟩

end Call

theorem App.nulFree_testCall? {a : App} {call : Call} (hcall : a.testCall? = some call) :
    call.NulFree := by
  cases a with
  | core =>
    cases hcall
    exact Call.nulFree_toUnknownApp
  | accounts => exact nomatch hcall
  | files =>
    cases hcall
    exact Call.nulFree_readSettings

/-! ### Programs -/

namespace Shell

variable {s : Shell}

theorem nulFree_scriptPath {root : String} (hroot : NulFree root) : NulFree (scriptPath root) := by
  unfold scriptPath
  by_cases hslash : root = "" ∨ root.toList.getLast? = some '/'
  · rw [if_pos hslash]
    exact hroot.append (by decide)
  · rw [if_neg hslash]
    exact hroot.append (by decide)

theorem canStart_iff {call : Call} :
    s.canStart call = true ↔ ∀ text ∈ s.program :: s.arguments call, NulFree text := by
  unfold canStart NulFree
  rw [List.all_eq_true]
  refine forall₂_congr fun text _ => ?_
  rw [Bool.not_eq_true', ← Bool.not_eq_true, List.contains_iff_mem]

theorem canStart_of_nulFree (hprogram : NulFree s.program) (hroot : NulFree s.root) {call : Call}
    (hcall : call.NulFree) : s.canStart call = true := by
  rw [canStart_iff]
  unfold arguments
  simp only [List.forall_mem_cons]
  refine ⟨hprogram, nulFree_scriptPath hroot, by decide, hcall.app, hcall.action, ?_⟩
  intro text htext
  obtain ⟨p, hp, hmem⟩ := List.mem_flatMap.mp htext
  obtain ⟨hkey, hvalue⟩ := hcall.params p hp
  rcases List.mem_cons.mp hmem with rfl | hmem
  · exact NulFree.append (by decide) hkey
  · rw [List.mem_singleton.mp hmem]
    exact hvalue

theorem started_append (before : List Call) {more : List Call}
    (hmore : ∀ call ∈ more, s.canStart call = true) :
    s.started (before ++ more) = s.started before ++ more.map s.arguments := by
  unfold started
  rw [List.filter_append, List.map_append, List.filter_eq_self.mpr hmore]

theorem result_server {program : Program} {before : List Call} {call : Call} (hstart : s.canStart call = true) :
    (s.server program before call).result =
      s.resultOf (program (s.started before) (s.arguments call)).1 := by
  unfold server
  rw [if_pos hstart]
  rfl

end Shell

/-! ### Endpoints -/

namespace Endpoint

variable {e : Endpoint}

/-- The URL of the endpoint can be read, names a host, and requests can be sent to it. -/
def Usable (e : Endpoint) : Prop :=
  ∃ url, e.base = .ok url ∧ canSend url = true

theorem canSend_withQuery (url : Url) (pairs : List (String × String)) :
    canSend (url.withQuery pairs) = canSend url := rfl

theorem canSend_withoutUser (url : Url) : canSend url.withoutUser = canSend url := by
  unfold Url.withoutUser
  by_cases huser : url.user?.isSome = true
  · rw [if_pos huser]
    rfl
  · rw [if_neg huser]

theorem exists_urlFor (husable : e.Usable) (call : Call) : ∃ url, e.urlFor call = .ok url := by
  obtain ⟨base, hbase, hsend⟩ := husable
  refine ⟨base.withoutUser.withQuery (queryOf call), ?_⟩
  have hcan : canSend (base.withoutUser.withQuery (queryOf call)) = true := by
    rw [canSend_withQuery, canSend_withoutUser, hsend]
  unfold urlFor
  rw [hbase]
  exact if_pos hcan

theorem exists_request (husable : e.Usable) (call : Call) :
    ∃ request, e.request call = .ok request := by
  obtain ⟨url, hurl⟩ := exists_urlFor husable call
  obtain ⟨base, hbase, -⟩ := husable
  refine ⟨requestFor base url call, ?_⟩
  unfold request
  rw [hbase, hurl]
  rfl

theorem requested_append {made : Call → Request} (hmade : ∀ call, e.request call = .ok (made call))
    (before more : List Call) :
    e.requested (before ++ more) = e.requested before ++ more.map made := by
  have hsome : (fun call => (e.request call).toOption) = fun call => some (made call) := by
    funext call
    rw [hmade]
    rfl
  unfold requested
  rw [List.filterMap_append, hsome, ← List.filterMap_eq_map]
  rfl

theorem length_requested (husable : e.Usable) (calls : List Call) :
    (e.requested calls).length = calls.length := by
  obtain ⟨made, hmade⟩ := Classical.axiomOfChoice (exists_request husable)
  have hrequested := requested_append hmade [] calls
  rw [List.nil_append] at hrequested
  rw [hrequested]
  exact List.length_map ..

theorem result_server (remote : Remote) (before : List Call) {call : Call} {request : Request} (hrequest : e.request call = .ok request) :
    (e.server remote before call).result =
      resultOf request.url (remote (e.requested before) request).1 := by
  unfold server
  rw [hrequest]

end Endpoint

end Shakedown
