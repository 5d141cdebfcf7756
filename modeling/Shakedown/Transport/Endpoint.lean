import Shakedown.Envelope.Reader
import Shakedown.Text.Base64
import Shakedown.Text.Utf8
import Shakedown.Transport.Status
import Shakedown.Url.Reader
import Shakedown.World

/-!
Calls through the HTTP endpoint of a server.

App and action are appended to the query of the URL, and the parameters are the body of a form.
A user and password in the URL are sent as a header instead.
-/

namespace Shakedown

structure Endpoint where
  url : String
  timeoutMs : Nat
  deriving DecidableEq, Inhabited

structure Request where
  method : String
  url : Url
  body : List Char
  contentType : String
  authorization : Option (List Char)
  deriving DecidableEq

/-- What the first line of a request asks for. -/
def Request.target (r : Request) : List Char :=
  r.url.target

inductive Exchange where
  /-- There was no whole answer in time, or none at all. -/
  | unreachable
  /-- An answer began and its body broke off. -/
  | broken (status : Nat)
  | answered (status : Nat) (body : List UInt8)

namespace Endpoint

/-- The parameters that go into the query. -/
def queryOf (call : Call) : List (String × String) :=
  [("app", call.app), ("action", call.action)]

/-- Whether requests can be sent to a URL: there are only two schemes for it, and in a host these
few characters cannot be sent. -/
def canSend (url : Url) : Bool :=
  (url.scheme = "http".toList || url.scheme = "https".toList) &&
    !(url.hostChars.any fun c => "\"`\x7b\x7d".toList.contains c)

/-- The URL of an endpoint, if it names a host. -/
def base (e : Endpoint) : Except NetworkFault Url :=
  match Url.ofText? e.url with
  | .error _ => .error (.unbuildable none)
  | .ok url => if url.hasHost then .ok url else .error (.unbuildable (some url.text))

def urlFor (e : Endpoint) (call : Call) : Except NetworkFault Url := do
  let url := (← e.base).withoutUser.withQuery (queryOf call)
  if canSend url then .ok url else .error (.unbuildable (some url.text))

/-- The header that tells who calls. -/
def basicAuthorization (user : Url.User) : List Char :=
  "Basic ".toList ++ Text.base64 (Text.utf8 (user.name ++ ':' :: user.password.getD []))

def requestFor (base url : Url) (call : Call) : Request where
  method := "POST"
  url := url
  body := Url.formEncode call.params.toList
  contentType := "application/x-www-form-urlencoded"
  authorization := base.user?.map basicAuthorization

def request (e : Endpoint) (call : Call) : Except NetworkFault Request := do
  return requestFor (← e.base) (← e.urlFor call) call

/-- A complaint about an answer that is no envelope names the status of the answer. -/
def withStatus (status : Nat) : Failure → Failure
  | .transport message => .transport ("HTTP " ++ statusText status ++ ": " ++ message)
  | f => f

/-- What a call comes to when its exchange ends in some way. -/
def resultOf (url : Url) : Exchange → Except Failure Envelope
  | .unreachable => .error (.network (.unreachable url.text))
  | .broken _ => .error (.network .brokenBody)
  | .answered status body =>
    match Envelope.ofOutput (Text.decodeLossy body) with
    | .error f => .error (withStatus status f)
    | .ok envelope => .ok envelope

/-- An answer is reported with its status, whatever its body is. -/
def statusReport : Exchange → List Log.Event
  | .unreachable => []
  | .broken status | .answered status _ =>
    [⟨.debug, .endpoint, "HTTP response status: " ++ statusText status⟩]

/-- What was requested for some calls. -/
def requested (e : Endpoint) (calls : List Call) : List Request :=
  calls.filterMap fun call => (e.request call).toOption

/-- How the exchange for a request ends, and after how many nanoseconds: that depends on the requests
before and on its own. -/
abbrev Remote := List Request → Request → Exchange × Nat

def server (e : Endpoint) (remote : Remote) : Server :=
  fun before call =>
    let start : Log.Event :=
      ⟨.debug, .endpoint, "POST " ++ e.url ++ " app=" ++ call.app ++ " action=" ++ call.action⟩
    match e.request call with
    | .error fault => { result := .error (.network fault), log := [start] }
    | .ok request =>
      let (outcome, elapsed) := remote (e.requested before) request
      { result := resultOf request.url outcome
        log := start :: statusReport outcome
        elapsed := elapsed }

end Endpoint

end Shakedown
