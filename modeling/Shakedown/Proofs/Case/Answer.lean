import Shakedown.Case

/-!
# Calls and what becomes of them

A server answers each call in the light of the calls before it. Every call of the standard cases has
one expectation: a call to the app that no server knows has to be refused as such, and every other
call has to succeed. The verdict on an answer is what the hook that sent the call makes of it.
-/

namespace Shakedown

structure Answered where
  call : Call
  result : Except Failure Envelope

namespace Server

variable (server : Server)

/-- What comes of a call that follows certain others. -/
def answer (before : List Call) (call : Call) : Answered :=
  ⟨call, (server before call).result⟩

/-- What comes of calls that are sent one after the other, behind certain others. -/
def answered : List Call → List Call → List Answered
  | _, [] => []
  | before, call :: rest => server.answer before call :: answered (before ++ [call]) rest

theorem answered_append (before first second : List Call) :
    server.answered before (first ++ second) =
      server.answered before first ++ server.answered (before ++ first) second := by
  induction first generalizing before with
  | nil => rw [List.append_nil]; rfl
  | cons call rest ih =>
    rw [List.cons_append, answered, ih, answered, List.cons_append, List.append_assoc,
      List.singleton_append]

theorem mem_answered {before calls : List Call} {x : Answered}
    (hx : x ∈ server.answered before calls) :
    x.call ∈ calls ∧ ∃ earlier, x = server.answer earlier x.call := by
  induction calls generalizing before with
  | nil => exact nomatch hx
  | cons call rest ih =>
    rcases List.mem_cons.mp hx with rfl | hlater
    · exact ⟨List.mem_cons_self, before, rfl⟩
    · exact ⟨List.mem_cons_of_mem call (ih hlater).1, (ih hlater).2⟩

theorem answered_singleton (before : List Call) (call : Call) :
    server.answered before [call] = [server.answer before call] := rfl

end Server

/-- What the sender of a call expects of its envelope. -/
def Call.Expects (call : Call) (e : Envelope) : Prop :=
  if call.app = "notanapp" then e.ok = false ∧ e.message = some "UNKNOWN_APP" else e.ok = true

namespace Answered

def Succeeded (a : Answered) : Prop :=
  ∃ e, a.result = .ok e ∧ e.ok = true

def Refused (a : Answered) (message : String) : Prop :=
  ∃ e, a.result = .ok e ∧ e.ok = false ∧ e.message = some message

def AsExpected (a : Answered) : Prop :=
  ∃ e, a.result = .ok e ∧ a.call.Expects e

/-- The envelope of an answer that tells of success. -/
def success? (a : Answered) : Option Envelope :=
  match a.result with
  | .ok e => if e.ok then some e else none
  | .error _ => none

/-- What a hook makes of an answer. -/
def verdict (a : Answered) : Except Failure Unit :=
  match a.result with
  | .error f => .error f
  | .ok e =>
    if a.call.app = Case.unknownName then
      e.requireRefusal a.call.app a.call.action Case.unknownRefusal
    else (e.requireOk a.call.app a.call.action).map fun _ => ()

end Answered

theorem Answered.success?_eq_some_iff {a : Answered} {e : Envelope} :
    a.success? = some e ↔ a.result = .ok e ∧ e.ok = true := by
  unfold success?
  cases a.result with
  | error f => simp
  | ok e' =>
    by_cases hok : e'.ok = true
    · simp only [if_pos hok, Option.some.injEq, Except.ok.injEq]
      exact ⟨fun heq => ⟨heq, heq ▸ hok⟩, And.left⟩
    · simp only [if_neg hok, Except.ok.injEq]
      exact ⟨nofun, fun h => absurd (h.1 ▸ h.2) hok⟩

theorem Answered.isSome_success?_iff {a : Answered} : a.success?.isSome ↔ a.Succeeded := by
  rw [Option.isSome_iff_exists]
  exact exists_congr fun e => success?_eq_some_iff

/-! ### Expectations -/

namespace Envelope

variable {e : Envelope} {app action expected : String} {f : Failure}

theorem category_of_requireOk (herror : e.requireOk app action = .error f) :
    f.category = .assertion := by
  unfold requireOk at herror
  split at herror
  · exact nomatch herror
  · cases herror
    rfl

theorem requireOk_of_ok (hok : e.ok = true) : e.requireOk app action = .ok e.appdata :=
  if_pos hok

theorem requireRefusal_eq_ok_iff :
    e.requireRefusal app action expected = .ok () ↔
      e.ok = false ∧ e.message = some expected := by
  unfold requireRefusal
  by_cases hok : e.ok = true
  · simp [hok]
  · by_cases hmessage : e.message = some expected <;> simp [hok, hmessage]

theorem category_of_requireRefusal (herror : e.requireRefusal app action expected = .error f) :
    f.category = .assertion := by
  unfold requireRefusal at herror
  split at herror
  · cases herror
    rfl
  · split at herror
    · exact nomatch herror
    · cases herror
      rfl

end Envelope

namespace Answered

variable {a : Answered}

theorem verdict_eq_ok_iff : a.verdict = .ok () ↔ a.AsExpected := by
  obtain ⟨call, result⟩ := a
  unfold verdict AsExpected Call.Expects
  cases result with
  | error f => simp
  | ok e =>
    by_cases hunknown : call.app = "notanapp"
    · simp [hunknown, Case.unknownName, Case.unknownRefusal, Envelope.requireRefusal_eq_ok_iff]
    · by_cases hok : e.ok = true
      · simp [hunknown, Case.unknownName, Envelope.requireOk_of_ok hok, hok, Except.map]
      · simp [hunknown, Case.unknownName, Envelope.requireOk, hok, Except.map]

theorem category_of_verdict {e : Envelope} {f : Failure} (hresult : a.result = .ok e)
    (herror : a.verdict = .error f) : f.category = .assertion := by
  rw [verdict, hresult] at herror
  dsimp only at herror
  by_cases hunknown : a.call.app = Case.unknownName
  · rw [if_pos hunknown] at herror
    exact Envelope.category_of_requireRefusal herror
  · rw [if_neg hunknown] at herror
    cases hrequire : e.requireOk a.call.app a.call.action with
    | ok appdata =>
      rw [hrequire] at herror
      exact nomatch herror
    | error g =>
      rw [hrequire] at herror
      cases herror
      exact Envelope.category_of_requireOk hrequire

/-- A hook that sends a call fails for no reasons of its own: either there was no envelope, and the
hook passes the failure on, or the envelope is not what it expects. -/
theorem verdict_eq_error {f : Failure} (herror : a.verdict = .error f) :
    a.result = .error f ∨
      (∃ e, a.result = .ok e ∧ ¬a.call.Expects e) ∧ f.category = .assertion := by
  cases hresult : a.result with
  | error g =>
    rw [verdict, hresult] at herror
    cases herror
    exact Or.inl rfl
  | ok e =>
    have hunexpected : ¬a.call.Expects e := by
      intro hexpects
      rw [verdict_eq_ok_iff.mpr ⟨e, hresult, hexpects⟩] at herror
      exact nomatch herror
    exact Or.inr ⟨⟨e, rfl, hunexpected⟩, category_of_verdict hresult herror⟩

theorem asExpected_iff_succeeded (hknown : a.call.app ≠ "notanapp") :
    a.AsExpected ↔ a.Succeeded := by
  unfold AsExpected Succeeded Call.Expects
  simp [hknown]

theorem asExpected_iff_refused (hunknown : a.call.app = "notanapp") :
    a.AsExpected ↔ a.Refused "UNKNOWN_APP" := by
  unfold AsExpected Refused Call.Expects
  simp [hunknown]

end Answered

namespace Server

variable (server : Server)

/-- What is sent of a plan that ends with the first call that is not answered as expected. -/
def sentOf : List Call → List Call → List Call
  | _, [] => []
  | before, call :: rest =>
    match (server.answer before call).verdict with
    | .error _ => [call]
    | .ok _ => call :: sentOf (before ++ [call]) rest

theorem sentOf_cons_of_error {before : List Call} {call : Call} {f : Failure} (rest : List Call)
    (herror : (server.answer before call).verdict = .error f) :
    server.sentOf before (call :: rest) = [call] := by
  rw [sentOf, herror]

theorem sentOf_cons_of_ok {before : List Call} {call : Call} (rest : List Call)
    (hok : (server.answer before call).verdict = .ok ()) :
    server.sentOf before (call :: rest) = call :: server.sentOf (before ++ [call]) rest := by
  rw [sentOf, hok]

/-- Either the whole plan is sent, or it is cut behind a call that was not answered as expected. -/
theorem sentOf_cases (before plan : List Call) :
    (server.sentOf before plan = plan ∧ ∀ x ∈ server.answered before plan, x.AsExpected) ∨
      ∃ accepted call rest, plan = accepted ++ call :: rest ∧
        server.sentOf before plan = accepted ++ [call] ∧
        (∀ x ∈ server.answered before accepted, x.AsExpected) ∧
        ¬(server.answer (before ++ accepted) call).AsExpected := by
  induction plan generalizing before with
  | nil => exact Or.inl ⟨rfl, List.forall_mem_nil _⟩
  | cons call rest ih =>
    cases hverdict : (server.answer before call).verdict with
    | error f =>
      have hunexpected : ¬(server.answer before call).AsExpected := by
        rw [← Answered.verdict_eq_ok_iff, hverdict]
        exact nofun
      rw [sentOf_cons_of_error server rest hverdict]
      refine Or.inr ⟨[], call, rest, rfl, rfl, List.forall_mem_nil _, ?_⟩
      rwa [List.append_nil]
    | ok u =>
      have hexpected : (server.answer before call).AsExpected :=
        Answered.verdict_eq_ok_iff.mp hverdict
      rw [sentOf_cons_of_ok server rest hverdict]
      rcases ih (before ++ [call]) with
        ⟨hwhole, hall⟩ | ⟨accepted, last, later, hplan, hcut, hall, hnot⟩
      · rw [hwhole]
        exact Or.inl ⟨rfl, List.forall_mem_cons.mpr ⟨hexpected, hall⟩⟩
      · refine Or.inr ⟨call :: accepted, last, later, ?_, ?_, ?_, ?_⟩
        · rw [hplan, List.cons_append]
        · rw [hcut, List.cons_append]
        · exact List.forall_mem_cons.mpr ⟨hexpected, hall⟩
        · rwa [List.append_assoc, List.singleton_append] at hnot

/-- The calls that are sent leave nothing to fail only if the whole plan is answered as expected. -/
theorem verdicts_sentOf_iff (before plan : List Call) :
    (server.answered before (server.sentOf before plan)).map Answered.verdict =
        List.replicate plan.length (.ok ()) ↔
      ∀ x ∈ server.answered before plan, x.AsExpected := by
  induction plan generalizing before with
  | nil => exact ⟨fun _ => List.forall_mem_nil _, fun _ => rfl⟩
  | cons call rest ih =>
    rw [answered, List.forall_mem_cons, ← Answered.verdict_eq_ok_iff, List.length_cons,
      List.replicate_succ]
    cases hverdict : (server.answer before call).verdict with
    | error f =>
      rw [sentOf_cons_of_error server rest hverdict, answered_singleton, List.map_singleton,
        hverdict]
      exact ⟨nofun, nofun⟩
    | ok u =>
      rw [sentOf_cons_of_ok server rest hverdict, answered, List.map_cons, hverdict,
        List.cons.injEq, ih]

end Server

end Shakedown
