import Shakedown.Call
import Shakedown.Expectation
import Shakedown.Log.Event
import Shakedown.Registry

/-!
The world that the hooks of a run act on.

It holds the two registries that cases can be built on, every call sent so far, the events
reported so far and the time. What a server answers is a function of the calls before and of the
call. Cases may keep a memory of their own, of any type.
-/

namespace Shakedown

/-- What came of one call, and what was reported and how many nanoseconds passed meanwhile. -/
structure Reply where
  result : Except Failure Envelope
  log : List Log.Event := []
  elapsed : Nat := 0

/-- A server answers a call in the light of all calls before it, the oldest first. -/
abbrev Server := List Call → Call → Reply

/-- The registry of the suite that runs, or a second one. -/
inductive Base where
  | own
  | guest
  deriving DecidableEq, Inhabited

structure World (μ : Type) where
  own : Registry
  guest : Registry
  calls : List Call
  log : List Log.Event
  /-- Nanoseconds since the start of 1970. -/
  clock : Nat
  memory : μ

/-- An action that can fail; it may change anything. -/
abbrev Hook (μ : Type) := World μ → Except Failure Unit × World μ

namespace World

variable {μ : Type}

/-- A world before its first call. -/
def start (own : Registry) (memory : μ) : World μ :=
  ⟨own, Registry.empty, [], [], 0, memory⟩

def registry (w : World μ) : Base → Registry
  | .own => w.own
  | .guest => w.guest

def setRegistry (w : World μ) (b : Base) (r : Registry) : World μ :=
  match b with
  | .own => { w with own := r }
  | .guest => { w with guest := r }

def note (w : World μ) (level : Log.Level) (area : Log.Area) (message : String) : World μ :=
  { w with log := w.log ++ [⟨level, area, message⟩] }

/-- Sends a call and waits for what comes of it. -/
def send (w : World μ) (server : Server) (call : Call) : Except Failure Envelope × World μ :=
  let reply := server w.calls call
  (reply.result,
    { w with
      calls := w.calls ++ [call]
      log := w.log ++ reply.log
      clock := w.clock + reply.elapsed })

/-- Requires the success of a call, and reports which way it went. -/
def expectOk (w : World μ) (e : Envelope) (app action : String) :
    Except Failure (Option Json) × World μ :=
  (e.requireOk app action,
    if e.ok then w.note .debug .expectations (app ++ " " ++ action ++ " ok")
    else
      let code := String.ofList (Decimal.digits e.code.toNat)
      w.note .warn .expectations (app ++ " " ++ action ++ " failed (" ++ code ++ "): " ++ e.said))

/-- Sends a call that has to succeed and yields the data of its answer. -/
def require (w : World μ) (server : Server) (call : Call) :
    Except Failure (Option Json) × World μ :=
  match w.send server call with
  | (.error f, w) => (.error f, w)
  | (.ok e, w) => w.expectOk e call.app call.action

section Note

variable (w : World μ) (level : Log.Level) (area : Log.Area) (message : String)

@[simp]
theorem registry_note : (w.note level area message).registry = w.registry := by
  funext b
  cases b <;> rfl

@[simp]
theorem calls_note : (w.note level area message).calls = w.calls := rfl

end Note

section ExpectOk

variable (w : World μ) (e : Envelope) (app action : String)

@[simp]
theorem registry_expectOk : (w.expectOk e app action).2.registry = w.registry := by
  unfold expectOk
  cases e.ok <;> exact registry_note ..

@[simp]
theorem calls_expectOk : (w.expectOk e app action).2.calls = w.calls := by
  unfold expectOk
  cases e.ok <;> rfl

end ExpectOk

section Send

variable (w : World μ) (server : Server) (call : Call)

@[simp]
theorem result_send : (w.send server call).1 = (server w.calls call).result := rfl

@[simp]
theorem registry_send : (w.send server call).2.registry = w.registry := by
  funext b
  cases b <;> rfl

@[simp]
theorem calls_send : (w.send server call).2.calls = w.calls ++ [call] := rfl

theorem require_eq :
    w.require server call =
      match (server w.calls call).result with
      | .error f => (.error f, (w.send server call).2)
      | .ok e => (w.send server call).2.expectOk e call.app call.action := by
  have hsend : w.send server call = ((server w.calls call).result, (w.send server call).2) := rfl
  rw [require, hsend]
  cases (server w.calls call).result <;> rfl

theorem result_require :
    (w.require server call).1 =
      match (server w.calls call).result with
      | .error f => .error f
      | .ok e => e.requireOk call.app call.action := by
  rw [require_eq]
  cases (server w.calls call).result <;> rfl

@[simp]
theorem registry_require : (w.require server call).2.registry = w.registry := by
  rw [require_eq]
  cases (server w.calls call).result with
  | error f => exact registry_send w server call
  | ok e => exact (registry_expectOk _ _ _ _).trans (registry_send w server call)

@[simp]
theorem calls_require : (w.require server call).2.calls = w.calls ++ [call] := by
  rw [require_eq]
  cases (server w.calls call).result with
  | error f => rfl
  | ok e => exact calls_expectOk _ _ _ _

end Send

@[simp]
theorem calls_setRegistry (w : World μ) (b : Base) (r : Registry) :
    (w.setRegistry b r).calls = w.calls := by
  cases b <;> rfl

theorem registry_setRegistry (w : World μ) (b b' : Base) (r : Registry) :
    (w.setRegistry b r).registry b' = if b = b' then r else w.registry b' := by
  cases b <;> cases b' <;> rfl

theorem registry_own (w : World μ) : w.registry .own = w.own := rfl

end World

end Shakedown
