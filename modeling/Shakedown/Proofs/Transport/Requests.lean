import Shakedown.Proofs.Transport.Sending
import Shakedown.Proofs.Url.Target

/-!
# What a request says

App and action stand in the query of the target, behind what the URL of the endpoint has there, and
the parameters stand in the body. All of it can be read back, so the server is asked for nothing
but the call: no text of a call can pass for a part of another text, or for a further parameter.
-/

namespace Shakedown.Endpoint

variable {e : Endpoint} {url : Url} {call : Call} {request : Request}

theorem base_eq (hread : Url.ofText? e.url = .ok url) (hhost : url.hasHost = true) :
    e.base = .ok url := by
  unfold base
  rw [hread]
  exact if_pos hhost

theorem ofText?_of_base (hbase : e.base = .ok url) : Url.ofText? e.url = .ok url := by
  unfold base at hbase
  cases hread : Url.ofText? e.url with
  | error f =>
    rw [hread] at hbase
    cases hbase
  | ok read =>
    rw [hread] at hbase
    dsimp only at hbase
    split at hbase
    · cases hbase
      rfl
    · cases hbase

theorem request_eq_ok_iff (hbase : e.base = .ok url) :
    e.request call = .ok request ↔
      canSend url = true ∧
        requestFor url (url.withoutUser.withQuery (queryOf call)) call = request := by
  have hsend : canSend (url.withoutUser.withQuery (queryOf call)) = canSend url := by
    rw [canSend_withQuery, canSend_withoutUser]
  unfold Endpoint.request urlFor
  rw [hbase]
  change ((if canSend (url.withoutUser.withQuery (queryOf call)) = true then
    Except.ok (url.withoutUser.withQuery (queryOf call)) else _) >>= _) = _ ↔ _
  rw [hsend]
  by_cases hcan : canSend url = true
  · rw [if_pos hcan, and_iff_right hcan]
    exact ⟨Except.ok.inj, congrArg Except.ok⟩
  · rw [if_neg hcan]
    exact ⟨nofun, fun h => absurd h.1 hcan⟩

theorem path_withoutUser (url : Url) : url.withoutUser.path = url.path := by
  unfold Url.withoutUser
  split <;> rfl

theorem query_withoutUser (url : Url) : url.withoutUser.query = url.query := by
  unfold Url.withoutUser
  split <;> rfl

/-- The query of a request is read as that of the URL, and app and action behind it. -/
theorem formDecode_target (hread : Url.ofText? e.url = .ok url) (call : Call) :
    Url.formDecode (Url.queryOfTarget
        (requestFor url (url.withoutUser.withQuery (queryOf call)) call).target) =
      Url.formDecode (url.query.getD []) ++ queryOf call := by
  have hpath : '?' ∉ (url.withoutUser.withQuery (queryOf call)).path.chars := by
    change '?' ∉ url.withoutUser.path.chars
    rw [path_withoutUser]
    exact Url.question_notMem_path hread
  change Url.formDecode
    (Url.queryOfTarget (url.withoutUser.withQuery (queryOf call)).target) = _
  rw [Url.queryOfTarget_target hpath rfl, Url.formDecode_formAppend, query_withoutUser]

theorem formDecode_body (base url : Url) (call : Call) :
    Url.formDecode (requestFor base url call).body = call.params.toList :=
  Url.formDecode_formEncode call.params.toList

theorem hasHost_of_scheme (hread : Url.ofText? e.url = .ok url)
    (hscheme : url.scheme = "http".toList ∨ url.scheme = "https".toList) : url.hasHost = true := by
  have hspecial : Url.isSpecial url.scheme = true ∧ url.scheme ≠ "file".toList := by
    rcases hscheme with h | h <;> (rw [h]; decide)
  exact Url.hasHost_of_isSpecial hread hspecial.1 hspecial.2

section Decoded

variable (hread : Url.ofText? e.url = .ok url) (hbase : e.base = .ok url)

include hread hbase

theorem decode_request (hok : e.request call = .ok request) :
    Url.formDecode (Url.queryOfTarget request.target) =
        Url.formDecode (url.query.getD []) ++ queryOf call ∧
      Url.formDecode request.body = call.params.toList := by
  obtain ⟨-, rfl⟩ := (request_eq_ok_iff hbase).mp hok
  exact ⟨formDecode_target hread call, formDecode_body _ _ call⟩

/-- Target and body of a request tell which call it was made for. -/
theorem request_injective {call' : Call} {request' : Request} (hok : e.request call = .ok request)
    (hok' : e.request call' = .ok request') (htarget : request.target = request'.target)
    (hbody : request.body = request'.body) : call = call' := by
  obtain ⟨hquery, hparams⟩ := decode_request hread hbase hok
  obtain ⟨hquery', hparams'⟩ := decode_request hread hbase hok'
  rw [htarget, hquery'] at hquery
  rw [hbody, hparams'] at hparams
  obtain ⟨app, action, ⟨params, hsorted⟩⟩ := call
  obtain ⟨app', action', ⟨params', hsorted'⟩⟩ := call'
  have hpairs := List.append_cancel_left hquery
  simp only [queryOf, List.cons.injEq, Prod.mk.injEq, true_and, and_true] at hpairs
  obtain ⟨rfl, rfl⟩ := hpairs
  cases hparams
  rfl

end Decoded

theorem made_injective (husable : e.Usable) {made : Call → Request}
    (hmade : ∀ call, e.request call = .ok (made call)) : Function.Injective made := by
  obtain ⟨url, hbase, -⟩ := husable
  have hread : Url.ofText? e.url = .ok url := ofText?_of_base hbase
  intro call call' heq
  exact request_injective hread hbase (hmade call) (hmade call') (by rw [heq]) (by rw [heq])

/-- A request has app and action in its query and the parameters in its body, and can be read back. -/
theorem request_decoded (hread : Url.ofText? e.url = .ok url)
    (hscheme : url.scheme = "http".toList ∨ url.scheme = "https".toList) :
    (∀ call, (∃ request, e.request call = .ok request) ↔ canSend url = true) ∧
      (∀ call request, e.request call = .ok request →
        Url.formDecode (Url.queryOfTarget request.target) =
            Url.formDecode (url.query.getD []) ++ [("app", call.app), ("action", call.action)] ∧
          Url.formDecode request.body = call.params.toList ∧
          call.params.toList.Pairwise fun p q => p.1 < q.1) ∧
      ∀ call call' request request', e.request call = .ok request →
        e.request call' = .ok request' → request.target = request'.target →
          request.body = request'.body → call = call' := by
  have hbase : e.base = .ok url := base_eq hread (hasHost_of_scheme hread hscheme)
  refine ⟨fun call => ?_, fun call request hok => ?_, ?_⟩
  · constructor
    · rintro ⟨request, hok⟩
      exact ((request_eq_ok_iff hbase).mp hok).1
    · exact fun hcan => ⟨_, (request_eq_ok_iff hbase).mpr ⟨hcan, rfl⟩⟩
  · obtain ⟨htarget, hbody⟩ := decode_request hread hbase hok
    exact ⟨htarget, hbody, call.params.sorted⟩
  · intro call call' request request'
    exact request_injective hread hbase

/-- A URL with a query of its own, and texts that hold what separates the parts of a form. -/
theorem request_decoded_own_query :
    let e : Endpoint := ⟨"http://localhost/a?x=1&&y", 5000⟩
    let url : Url :=
      { scheme := "http".toList, host := some (.name "localhost".toList)
        path := .rooted ["a".toList], query := some "x=1&&y".toList }
    let call : Call := ⟨"a&b", "1=2 +%#é", Entries.empty.put "k&" "?="⟩
    Url.ofText? e.url = .ok url ∧ url.scheme = "http".toList ∧
      ∃ request, e.request call = .ok request ∧
        Url.formDecode (Url.queryOfTarget request.target) =
          [("x", "1"), ("y", ""), ("app", "a&b"), ("action", "1=2 +%#é")] ∧
        Url.formDecode request.body = [("k&", "?=")] := by
  intro e url call
  have hread : Url.ofText? "http://localhost/a?x=1&&y" =
      .ok { scheme := "http".toList, host := some (.name "localhost".toList)
            path := .rooted ["a".toList], query := some "x=1&&y".toList } := by
    decide +kernel
  obtain ⟨hsent, hdecoded, -⟩ := request_decoded (e := e) hread (.inl rfl)
  obtain ⟨request, hok⟩ := (hsent call).mpr rfl
  obtain ⟨hquery, hbody, -⟩ := hdecoded call request hok
  have hown : Url.formDecode (url.query.getD []) = [("x", "1"), ("y", "")] := by decide +kernel
  rw [hown] at hquery
  exact ⟨hread, rfl, request, hok, hquery, hbody⟩

end Shakedown.Endpoint
