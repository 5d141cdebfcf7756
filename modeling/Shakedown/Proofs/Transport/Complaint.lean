import Shakedown.Proofs.Case.Answer
import Shakedown.Proofs.Run.Outcome
import Shakedown.Report.Json
import Shakedown.Transport.Endpoint
import Shakedown.Transport.Shell

/-!
# What the transports make of the same body

A body that is an envelope comes to the same through a program and through an endpoint. One that is
none leads to a complaint, and the endpoint names the status of the answer in it. This difference is
carried upwards here: from what comes of a call to what a hook makes of it, and from the hooks to
the outcome of their case.
-/

namespace Shakedown

/-- What comes of the same thing through either transport. Only a complaint about an answer that is
no envelope differs, and all other failures are less than critical. -/
inductive SameBut {α : Type} (status? : Option Nat) :
    Except Failure α → Except Failure α → Prop
  | same {result : Except Failure α}
      (hmild : ∀ f, result = .error f → f.severity ≠ .critical) : SameBut status? result result
  | complaint {status : Nat} (hstatus : status? = some status) (fault : Json.Fault)
      (cs : List Char) :
      SameBut status? (.error (.transport (Envelope.unreadable fault cs)))
        (.error (.transport ("HTTP " ++ statusText status ++ ": " ++ Envelope.unreadable fault cs)))

theorem sameBut_resultOf (shell : Shell) (url : Url) (body errors : List UInt8)
    (exit status : Nat) :
    SameBut (some status) (shell.resultOf (.finished body errors exit))
      (Endpoint.resultOf url (.answered status body)) := by
  unfold Shell.resultOf Endpoint.resultOf Envelope.ofOutput
  dsimp only
  cases Envelope.ofChars? (Text.trimChars (Text.decodeLossy body)) with
  | error fault => exact .complaint rfl fault _
  | ok e => exact .same nofun

namespace SameBut

variable {status? : Option Nat} {a a' : Answered}

theorem verdict (hcall : a'.call = a.call) (hsame : SameBut status? a.result a'.result) :
    SameBut status? a.verdict a'.verdict := by
  obtain ⟨call, result⟩ := a
  obtain ⟨call', result'⟩ := a'
  obtain rfl : call' = call := hcall
  dsimp only at hsame
  cases hsame with
  | same hmild =>
    refine .same fun f herror => ?_
    rcases Answered.verdict_eq_error herror with hresult | ⟨-, hcategory⟩
    · exact hmild f hresult
    · rw [Failure.severity, hcategory]
      decide
  | complaint hstatus fault cs => exact .complaint hstatus fault cs

theorem success?_eq (hsame : SameBut status? a.result a'.result) :
    a'.success? = a.success? := by
  unfold Answered.success?
  generalize a.result = result at hsame
  generalize a'.result = result' at hsame
  cases hsame <;> rfl

end SameBut

/-- The outcomes of a case through either transport, when the calls of its hooks are answered with
certain statuses. -/
inductive Outcome.SameBut (statusIn : Phase → Option Nat) : Outcome → Outcome → Prop
  | same {o : Outcome} (hmild : o.severity? ≠ some .critical) : Outcome.SameBut statusIn o o
  | installFailed {status : Nat} (hstatus : statusIn .install = some status) (fault : Json.Fault)
      (cs : List Char) :
      Outcome.SameBut statusIn
        (.installFailed ("Interface error: " ++ Envelope.unreadable fault cs) .critical)
        (.installFailed ("Interface error: " ++
          ("HTTP " ++ statusText status ++ ": " ++ Envelope.unreadable fault cs)) .critical)
  | failed {status : Nat} (hstatus : statusIn .tests = some status) (fault : Json.Fault)
      (cs : List Char) :
      Outcome.SameBut statusIn
        (.failed ("Interface error: " ++ Envelope.unreadable fault cs) .critical)
        (.failed ("Interface error: " ++
          ("HTTP " ++ statusText status ++ ": " ++ Envelope.unreadable fault cs)) .critical)

namespace Outcome

variable {statusIn : Phase → Option Nat}

theorem sameBut_ofTests {result result' : Except Failure Unit}
    (hsame : Shakedown.SameBut (statusIn .tests) result result') :
    SameBut statusIn (ofTests result) (ofTests result') := by
  cases hsame with
  | same hmild =>
    refine .same ?_
    cases result with
    | ok u => exact nofun
    | error f =>
      intro hcritical
      exact hmild f rfl (Option.some.inj hcritical)
  | complaint hstatus fault cs => exact .failed hstatus fault cs

theorem sameBut_ofResults {install install' tests tests' : Option (Except Failure Unit)}
    (hinstall : Option.Rel (Shakedown.SameBut (statusIn .install)) install install')
    (htests : Option.Rel (Shakedown.SameBut (statusIn .tests)) tests tests') :
    SameBut statusIn (ofResults install tests) (ofResults install' tests') := by
  cases hinstall with
  | none => exact .same nofun
  | @some result _ hinstall =>
    cases hinstall with
    | complaint hstatus fault cs => exact .installFailed hstatus fault cs
    | same hmild =>
      cases result with
      | error f =>
        refine .same ?_
        intro hcritical
        exact hmild f rfl (Option.some.inj hcritical)
      | ok u =>
        cases htests with
        | none => exact .same nofun
        | some htests => exact sameBut_ofTests htests

theorem SameBut.severity?_eq {o o' : Outcome} (hsame : SameBut statusIn o o') :
    o'.severity? = o.severity? := by
  cases hsame <;> rfl

theorem SameBut.status_eq {o o' : Outcome} (hsame : SameBut statusIn o o') :
    o'.status = o.status := by
  cases hsame <;> rfl

end Outcome

end Shakedown
