import Shakedown.Session

/-!
# Failures on the way to a server

A call that goes through a transport either yields an envelope or fails in one of four ways: the
system refuses, the time runs out, the exchange breaks, or what comes back is no envelope. Each of
them is critical, whatever was called and whatever the server does.
-/

namespace Shakedown

def Failure.OnTheWay : Failure → Prop
  | network _ | system _ | transport _ | timeout _ => True
  | _ => False

theorem Failure.OnTheWay.severity_eq {f : Failure} (hway : f.OnTheWay) :
    f.severity = .critical := by
  cases f with
  | network | system | transport | timeout => rfl
  | _ => exact hway.elim

theorem Envelope.onTheWay_of_ofOutput {cs : List Char} {f : Failure}
    (herror : Envelope.ofOutput cs = .error f) : f.OnTheWay := by
  unfold Envelope.ofOutput at herror
  dsimp only at herror
  split at herror
  · cases herror
    trivial
  · exact nomatch herror

theorem Shell.onTheWay_of_resultOf {s : Shell} {ending : Ending} {f : Failure}
    (herror : s.resultOf ending = .error f) : f.OnTheWay := by
  cases ending with
  | refused fault =>
    cases herror
    trivial
  | unfinished =>
    cases herror
    trivial
  | finished output errors status => exact Envelope.onTheWay_of_ofOutput herror

namespace Endpoint

theorem onTheWay_withStatus (status : Nat) {f : Failure} (hway : f.OnTheWay) :
    (withStatus status f).OnTheWay := by
  cases f with
  | transport => trivial
  | _ => exact hway

theorem onTheWay_of_resultOf {url : Url} {exchange : Exchange} {f : Failure}
    (herror : resultOf url exchange = .error f) : f.OnTheWay := by
  cases exchange with
  | unreachable =>
    cases herror
    trivial
  | broken status =>
    cases herror
    trivial
  | answered status body =>
    rw [resultOf] at herror
    cases hbody : Envelope.ofOutput (Text.decodeLossy body) with
    | error g =>
      rw [hbody] at herror
      cases herror
      exact onTheWay_withStatus status (Envelope.onTheWay_of_ofOutput hbody)
    | ok e =>
      rw [hbody] at herror
      exact nomatch herror

end Endpoint

/-- Whatever surrounds a session, its calls fail only on the way to the server. -/
theorem Session.onTheWay_of_serverOf {around : Surroundings} {transport : Transport}
    {before : List Call} {call : Call} {f : Failure}
    (herror : (serverOf around transport before call).result = .error f) : f.OnTheWay := by
  cases transport with
  | shell shell => exact Shell.onTheWay_of_resultOf herror
  | endpoint endpoint =>
    change (endpoint.server (around.exchange endpoint) before call).result = _ at herror
    unfold Endpoint.server at herror
    cases hrequest : endpoint.request call with
    | error fault =>
      rw [hrequest] at herror
      cases herror
      trivial
    | ok request =>
      rw [hrequest] at herror
      exact Endpoint.onTheWay_of_resultOf herror

end Shakedown
