import Shakedown.World

/-!
Test cases, and the three that come with the apps.

A case installs its app and later tests it. The case of `accounts` creates the administrator that
the case of `files` looks for, so it records that account in the registry it is built on.
-/

namespace Shakedown

/-- The account that `accounts` is asked to create. -/
structure Credentials where
  username : String
  password : String
  deriving DecidableEq, Inhabited

structure Case (μ : Type) where
  name : String
  app : App
  install : Hook μ
  tests : Hook μ

variable {μ : Type}

namespace Hook

/-- Runs hooks in order until one fails. -/
def sequence : List (Hook μ) → Hook μ
  | [], w => (.ok (), w)
  | hook :: rest, w =>
    match hook w with
    | (.error f, w) => (.error f, w)
    | (.ok _, w) => sequence rest w

def fail (f : Failure) : Hook μ :=
  fun w => (.error f, w)

def require (server : Server) (call : Call) : Hook μ :=
  fun w =>
    let (result, w) := w.require server call
    (result.map fun _ => (), w)

/-- Fails unless a registry holds an administrator of the app. -/
def requireAdmin (base : Base) (app : App) : Hook μ :=
  fun w => (((w.registry base).admin app).map fun _ => (), w)

def setAdmin (base : Base) (app : App) (admin : Admin) : Hook μ :=
  fun w =>
    match (w.registry base).setAdmin app admin with
    | .error f => (.error f, w)
    | .ok r => (.ok (), w.setRegistry base r)

def resetRegistry (base : Base) : Hook μ :=
  fun w => (.ok (), w.setRegistry base Registry.empty)

end Hook

namespace Case

/-- An app name that no server knows. -/
def unknownName : String := "notanapp"

/-- The refusal of an app name that a server does not know. -/
def unknownRefusal : String := "UNKNOWN_APP"

/-- Installs `core`, then checks that an unknown app is refused. -/
def core (server : Server) : Case μ where
  name := "CORE"
  app := .core
  install := Hook.require server (Call.forApp .core "install")
  tests w :=
    let call : Call := { app := unknownName, action := "install" }
    match w.send server call with
    | (.error f, w) => (.error f, w)
    | (.ok e, w) => (e.requireRefusal call.app call.action unknownRefusal, w)

def accountsCall (credentials : Credentials) : Call :=
  ((Call.forApp .accounts "install").withParam "username" credentials.username).withParam
    "password" credentials.password

/-- The administrator that an answer confirms; its id counts only when it is a text. -/
def confirmed (credentials : Credentials) (appdata : Option Json) : Admin :=
  ⟨(appdata.bind (Json.member? "id")).bind Json.text?, credentials.username⟩

/-- What the tests of `accounts` object to when another name is on record. -/
def otherAdmin (expected held : String) : Failure :=
  .unexpected App.accounts.name "install" 200
    ("expected admin " ++ expected ++ " but registry holds " ++ held)

/-- Installs `accounts` and records its administrator, then checks that it is still recorded. -/
def accounts (server : Server) (base : Base) (credentials : Credentials) : Case μ where
  name := "ACCOUNTS"
  app := .accounts
  install w :=
    match w.require server (accountsCall credentials) with
    | (.error f, w) => (.error f, w)
    | (.ok appdata, w) =>
      let admin := confirmed credentials appdata
      let w := w.note .debug .accountsCase ("Registered admin " ++ admin.debug)
      (.ok (), w.setRegistry base ((w.registry base).registerAdmin .accounts admin))
  tests w :=
    match (w.registry base).admin .accounts with
    | .error f => (.error f, w)
    | .ok admin =>
      if admin.username = credentials.username then (.ok (), w)
      else (.error (otherAdmin credentials.username admin.username), w)

/-- Installs `files`, then reads its settings, for which there has to be an administrator. -/
def files (server : Server) (base : Base) : Case μ where
  name := "FILES"
  app := .files
  install := Hook.require server (Call.forApp .files "install")
  tests w :=
    match (w.registry base).admin .accounts with
    | .error f => (.error f, w)
    | .ok admin =>
      let w := w.note .debug .filesCase ("FILES found accounts admin " ++ admin.username)
      Hook.require server (Call.forApp .files "getconfig") w

def standard (server : Server) (base : Base) (credentials : Credentials) : App → Case μ
  | .core => core server
  | .accounts => accounts server base credentials
  | .files => files server base

/-- One case for each of the given apps, in install order. -/
def forApps (server : Server) (base : Base) (apps : List App) (credentials : Credentials) :
    List (Case μ) :=
  (App.inInstallOrder apps).map (standard server base credentials)

end Case

end Shakedown
