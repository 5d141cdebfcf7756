import Shakedown.Url.Basic
import Shakedown.Url.Domain
import Shakedown.Url.Fault

/-!
Reading URLs.

Spaces and control characters around a URL and line breaks within it are passed over. A special
scheme takes a backslash for a slash and any number of slashes before its host. Dot segments are
resolved while the path is read.
-/

namespace Shakedown.Url

/-- What a percent-encoded part encodes beyond control characters and characters outside ASCII. -/
def fragmentSet : List Char := " \"<>`".toList

def pathSet : List Char := fragmentSet ++ "#?\x7b\x7d".toList

def userSet : List Char := pathSet ++ "/:;=@[\\]^|".toList

def querySet (special : Bool) : List Char := " \"#<>".toList ++ (if special then ['\''] else [])

def isC0OrSpace (c : Char) : Bool :=
  c.toNat ≤ 0x20

def tidy (cs : List Char) : List Char :=
  let cs := ((cs.dropWhile isC0OrSpace).reverse.dropWhile isC0OrSpace).reverse
  cs.filter fun c => c ≠ '\t' && c ≠ '\n' && c ≠ '\r'

/-- The scheme before the first colon, in small letters, and what follows. -/
def splitScheme? (cs : List Char) : Option (List Char × List Char) :=
  let isSchemeChar (c : Char) : Bool := c.isAlphanum || c = '+' || c = '-' || c = '.'
  match cs, cs.dropWhile isSchemeChar with
  | c :: _, ':' :: rest =>
    if c.isAlpha then some ((cs.takeWhile isSchemeChar).map Char.toLower, rest) else none
  | _, _ => none

/-- Whether a character ends the part with user, host and port. -/
def endsAuthority (special : Bool) (c : Char) : Bool :=
  c = '/' || c = '?' || c = '#' || (special && c = '\\')

/-- The text before the last `@` of the authority, if there is one, and the text behind it. -/
def splitUser (special : Bool) (cs : List Char) : Option (List Char) × List Char :=
  let authority := cs.takeWhile fun c => !endsAuthority special c
  match authority.reverse.dropWhile (· ≠ '@') with
  | [] => (none, cs)
  | _ :: before => (some before.reverse, cs.drop (before.length + 1))

/-- Where the host ends: at a colon outside of brackets, or at the end of the authority. -/
def hostLength (special inBrackets : Bool) : List Char → Nat
  | [] => 0
  | c :: rest =>
    if (c = ':' && !inBrackets) || endsAuthority special c then 0
    else
      let inBrackets := if c = '[' then true else if c = ']' then false else inBrackets
      1 + hostLength special inBrackets rest

/-- An address in brackets, if a host begins as one. -/
def bracketed? (cs : List Char) : Option (Except Fault Host) :=
  match cs with
  | '[' :: inner =>
    if cs.getLast? = some ']' then
      match ipv6? inner.dropLast with
      | some pieces => some (.ok (.ipv6 pieces))
      | none => some (.error .badIpv6)
    else some (.error .badIpv6)
  | _ => none

def domainHost (cs : List Char) : Except Fault Host :=
  match bracketed? cs with
  | some host => host
  | none =>
    match domain? (percentDecode cs) with
    | none => .error .badInternationalName
    | some [] => .error .emptyHost
    | some name =>
      if endsInNumber name then
        match ipv4? name with
        | some n => .ok (.ipv4 n)
        | none => .error .badIpv4
      else .ok (.name name)

def plainHost (cs : List Char) : Except Fault Host :=
  match bracketed? cs with
  | some host => host
  | none =>
    if cs.any fun c => c = '\x00' || " #/:<>?@[\\]^|".toList.contains c then
      .error .badDomainCharacter
    else .ok (.name (percentEncode [] cs))

/-- Reads a port behind its colon. The usual port counts as none. -/
def readPort (scheme cs : List Char) : Except Fault (Option Nat × List Char) :=
  let ds := cs.takeWhile Char.isDigit
  let rest := cs.dropWhile Char.isDigit
  let ended := match rest with
    | [] => true
    | c :: _ => endsAuthority true c
  if !ended || 65535 < Decimal.value ds then .error .badPort
  else if ds.isEmpty ∨ usualPort? scheme = some (some (Decimal.value ds)) then .ok (none, rest)
  else .ok (some (Decimal.value ds), rest)

def isSingleDot (segment : List Char) : Bool :=
  [".", "%2e"].contains (String.ofList (segment.map Char.toLower))

def isDoubleDot (segment : List Char) : Bool :=
  ["..", ".%2e", "%2e.", "%2e%2e"].contains (String.ofList (segment.map Char.toLower))

def pathPieces (special : Bool) (cs : List Char) : List (List Char) :=
  Text.split '/' (if special then cs.map fun c => if c = '\\' then '/' else c else cs)

/-- Resolves dot segments: a double dot takes back the segment before it, and a path that ends in
a dot segment ends in a slash. -/
def resolve (done : List (List Char)) : List (List Char) → List (List Char)
  | [] => done
  | piece :: rest =>
    if isDoubleDot piece then
      resolve (if rest.isEmpty then done.dropLast ++ [[]] else done.dropLast) rest
    else if isSingleDot piece then resolve (if rest.isEmpty then done ++ [[]] else done) rest
    else resolve (done ++ [percentEncode pathSet piece]) rest

def splitBefore (stop : Char → Bool) (cs : List Char) : List Char × List Char :=
  (cs.takeWhile fun c => !stop c, cs.dropWhile fun c => !stop c)

def readTail (special : Bool) (u : Url) (cs : List Char) : Url :=
  let (query, cs) := match cs with
    | '?' :: rest =>
      let (q, rest) := splitBefore (· = '#') rest
      (some (percentEncode (querySet special) q), rest)
    | _ => (none, cs)
  let fragment := match cs with
    | '#' :: rest => some (percentEncode fragmentSet rest)
    | _ => none
  { u with query := query, fragment := fragment }

def readPath (special : Bool) (u : Url) (cs : List Char) : Url :=
  let (path, rest) := splitBefore (fun c => c = '?' || c = '#') cs
  let segments :=
    match path with
    | [] => if special then [[]] else []
    | c :: tail =>
      resolve [] (pathPieces special (if c = '/' || (special && c = '\\') then tail else path))
  readTail special { u with path := .rooted segments } rest

/-- Reads user, host and port, and the rest of the URL. -/
def readAuthority (scheme cs : List Char) : Except Fault Url := do
  let special := isSpecial scheme
  let (user, cs) := splitUser special cs
  if user = some [] ∧ (cs.head?.any (endsAuthority special)) then throw .emptyHost
  let (name, password) := splitBefore (· = ':') (user.getD [])
  let n := hostLength special false cs
  if special ∧ n = 0 then throw .emptyHost
  let host ← if special then domainHost (cs.take n) else plainHost (cs.take n)
  let cs := cs.drop n
  let u : Url :=
    { scheme := scheme
      username := percentEncode userSet name
      password := percentEncode userSet (password.drop 1)
      host := some host
      path := .rooted [] }
  if host = .name [] ∧ (cs.head? = some ':' ∨ u.credentialsChars ≠ []) then throw .emptyHost
  let (port, cs) ← match cs with
    | ':' :: rest => readPort scheme rest
    | _ => pure (none, cs)
  return readPath special { u with port := port } cs

/-- Reads the URL of a file. A host is optional, and `localhost` is none. -/
def readFile (cs : List Char) : Except Fault Url := do
  let isSlash (c : Char) : Bool := c = '/' || c = '\\'
  let u : Url := { scheme := "file".toList, host := some (.name []), path := .rooted [] }
  match cs with
  | a :: b :: rest =>
    if isSlash a && isSlash b then
      let (name, rest) := splitBefore (endsAuthority true) rest
      let host ← if name.isEmpty then pure (.name []) else domainHost name
      let host := if host = .name "localhost".toList then .name [] else host
      let (path, tail) := splitBefore (fun c => c = '?' || c = '#') rest
      return readPath true { u with host := some host } (path.dropWhile isSlash ++ tail)
    else return readPath true u cs
  | _ => return readPath true u cs

def ofChars? (cs : List Char) : Except Fault Url :=
  match splitScheme? (tidy cs) with
  | none => .error .relativeWithoutBase
  | some (scheme, rest) =>
    if scheme = "file".toList then readFile rest
    else if isSpecial scheme then
      readAuthority scheme (rest.dropWhile fun c => c = '/' || c = '\\')
    else
      match rest with
      | '/' :: '/' :: rest => readAuthority scheme rest
      | '/' :: rest => .ok (readPath false { scheme := scheme, path := .rooted [] } ('/' :: rest))
      | _ =>
        let (path, rest) := splitBefore (fun c => c = '?' || c = '#') rest
        .ok (readTail false { scheme := scheme, path := .bare (percentEncode [] path) } rest)

def ofText? (s : String) : Except Fault Url :=
  ofChars? s.toList

end Shakedown.Url
