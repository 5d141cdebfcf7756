import Shakedown.Url.Address
import Shakedown.Url.Form

/-!
URLs, taken apart and written out.

All parts are kept in the form in which they are written, that is, already percent-encoded.
-/

namespace Shakedown

namespace Url

inductive Host where
  /-- A domain name or, for schemes without domains, any name; it may be empty. -/
  | name (cs : List Char)
  | ipv4 (n : Nat)
  | ipv6 (pieces : List Nat)
  deriving DecidableEq

def Host.chars : Host → List Char
  | name cs => cs
  | ipv4 n => ipv4Chars n
  | ipv6 pieces => '[' :: ipv6Chars pieces ++ [']']

inductive Path where
  /-- Each segment stands behind a slash. -/
  | rooted (segments : List (List Char))
  /-- A path that names no place in a hierarchy. -/
  | bare (cs : List Char)
  deriving DecidableEq

def Path.chars : Path → List Char
  | rooted segments => segments.flatMap fun s => '/' :: s
  | bare cs => cs

/-- Schemes whose URLs always have a host and a path, with their usual ports. -/
def usualPort? : List Char → Option (Option Nat)
  | ['h', 't', 't', 'p'] | ['w', 's'] => some (some 80)
  | ['h', 't', 't', 'p', 's'] | ['w', 's', 's'] => some (some 443)
  | ['f', 't', 'p'] => some (some 21)
  | ['f', 'i', 'l', 'e'] => some none
  | _ => none

def isSpecial (scheme : List Char) : Bool :=
  (usualPort? scheme).isSome

end Url

structure Url where
  scheme : List Char
  username : List Char := []
  password : List Char := []
  host : Option Url.Host := none
  port : Option Nat := none
  path : Url.Path
  query : Option (List Char) := none
  fragment : Option (List Char) := none
  deriving DecidableEq

namespace Url

/-- Whether there is a host that a connection can be made to. -/
def hasHost (u : Url) : Bool :=
  match u.host with
  | some (.name []) | none => false
  | some _ => true

def hostChars (u : Url) : List Char :=
  match u.host with
  | some host => host.chars
  | none => []

def credentialsChars (u : Url) : List Char :=
  if u.username = [] ∧ u.password = [] then []
  else if u.password = [] then u.username ++ ['@']
  else u.username ++ ':' :: u.password ++ ['@']

def portChars (u : Url) : List Char :=
  match u.port with
  | some n => ':' :: Decimal.digits n
  | none => []

/-- What follows the scheme up to the path. Without a host, a path that starts with an empty
segment is kept apart by a dot. -/
def authorityChars (u : Url) : List Char :=
  match u.host with
  | some host => '/' :: '/' :: (u.credentialsChars ++ host.chars ++ u.portChars)
  | none =>
    match u.path with
    | .rooted ([] :: _ :: _) => ['/', '.']
    | _ => []

def queryChars (u : Url) : List Char :=
  match u.query with
  | some q => '?' :: q
  | none => []

def fragmentChars (u : Url) : List Char :=
  match u.fragment with
  | some f => '#' :: f
  | none => []

/-- Path and query, as a request names what it wants. -/
def target (u : Url) : List Char :=
  u.path.chars ++ u.queryChars

def chars (u : Url) : List Char :=
  u.scheme ++ ':' :: u.authorityChars ++ u.path.chars ++ u.queryChars ++ u.fragmentChars

def text (u : Url) : String :=
  String.ofList u.chars

def withQuery (u : Url) (pairs : List (String × String)) : Url :=
  { u with query := some (formAppend (u.query.getD []) pairs) }

structure User where
  name : List Char
  password : Option (List Char)
  deriving DecidableEq

/-- The user that a URL names, if the name can be decoded. A password that cannot is none. -/
def user? (u : Url) : Option User :=
  match Text.decode? (percentDecode u.username) with
  | none => none
  | some name =>
    let password := if u.password = [] then none else Text.decode? (percentDecode u.password)
    if name = [] ∧ password = none then none else some ⟨name, password⟩

/-- Takes the user out of a URL, unless there is none to be read. -/
def withoutUser (u : Url) : Url :=
  if u.user?.isSome then { u with username := [], password := [] } else u

end Url

end Shakedown
