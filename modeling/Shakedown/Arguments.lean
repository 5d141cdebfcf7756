import Shakedown.Log.Event
import Shakedown.Settings.Basic
import Shakedown.Text.Split

/-!
The command line.

A parameter takes a value, behind an equals sign or as the next argument; a flag takes none. A
value that is the next argument counts when the argument behind it is looked at, so a mistake in
an argument that is not known at all comes first.
-/

namespace Shakedown

/-- Reads the name of an app as a person gives it. A text that names none is quoted as it stands. -/
def App.ofText (s : String) : Except Failure App :=
  match ofText? s with
  | some app => .ok app
  | none => .error (.unknownApp s)

structure Arguments where
  config : String := "harness.toml"
  interface : Option Kind := none
  apps : List App := []
  verbose : Bool := false
  jsonLogs : Bool := false
  json : Bool := false
  dryRun : Bool := false
  deriving DecidableEq, Inhabited

inductive UsageError where
  | unknownArgument
  /-- A value is missing, or not one of the few that there are. -/
  | invalidValue
  /-- A value that cannot be read. -/
  | unreadableValue
  /-- A flag or parameter that may be there once is there again. -/
  | conflict
  /-- A flag has a value. -/
  | tooManyValues
  /-- Help was asked for. -/
  | help
  deriving DecidableEq

namespace Arguments

inductive Parameter where
  | config
  | interface
  | apps
  deriving DecidableEq

inductive Flag where
  | verbose
  | jsonLogs
  | json
  | dryRun
  | help
  deriving DecidableEq

def long? : String → Option (Parameter ⊕ Flag)
  | "config" => some (.inl .config)
  | "interface" => some (.inl .interface)
  | "apps" => some (.inl .apps)
  | "verbose" => some (.inr .verbose)
  | "json-logs" => some (.inr .jsonLogs)
  | "json" => some (.inr .json)
  | "dry-run" => some (.inr .dryRun)
  | "help" => some (.inr .help)
  | _ => none

def short? : Char → Option (Parameter ⊕ Flag)
  | 'c' => some (.inl .config)
  | 'v' => some (.inr .verbose)
  | 'h' => some (.inr .help)
  | _ => none

structure Draft where
  config : Option String := none
  interface : Option Kind := none
  apps : List App := []
  flags : List Flag := []
  /-- The last parameter, whose value was to be the next argument, until it counts. -/
  pending : Option (Parameter × Option String) := none
  /-- Behind two hyphens nothing is an option. -/
  closed : Bool := false

namespace Draft

def readPiece (piece : List Char) : Except UsageError App :=
  match App.ofText (String.ofList piece) with
  | .ok app => .ok app
  | .error _ => .error .unreadableValue

def appsOf (value : String) : Except UsageError (List App) :=
  (Text.split ',' value.toList).mapM readPiece

/-- Gives a parameter its value. Lists of apps add up. -/
def assign (d : Draft) (p : Parameter) (value : String) : Except UsageError Draft :=
  match p with
  | .config => if d.config.isSome then .error .conflict else .ok { d with config := some value }
  | .interface =>
    if d.interface.isSome then .error .conflict
    else
      match Kind.ofName? value with
      | some kind => .ok { d with interface := some kind }
      | none => .error .invalidValue
  | .apps => (appsOf value).map fun apps => { d with apps := d.apps ++ apps }

def settle (d : Draft) : Except UsageError Draft :=
  match d.pending with
  | none => .ok d
  | some (_, none) => .error .invalidValue
  | some (p, some value) => { d with pending := none }.assign p value

def raise (d : Draft) (flag : Flag) : Except UsageError Draft := do
  let d ← d.settle
  if flag = .help then throw .help
  if d.flags.contains flag then throw .conflict
  return { d with flags := flag :: d.flags }

def attach (d : Draft) (p : Parameter) (value : String) : Except UsageError Draft := do
  (← d.settle).assign p value

def await (d : Draft) (p : Parameter) : Except UsageError Draft := do
  return { (← d.settle) with pending := some (p, none) }

/-- Takes an option by its long name, with the value behind its equals sign. -/
def addLong (d : Draft) (name : String) (value : Option String) : Except UsageError Draft :=
  match long? name, value with
  | none, _ => .error .unknownArgument
  | some (.inl p), some value => d.attach p value
  | some (.inl p), none => d.await p
  | some (.inr _), some _ => .error .tooManyValues
  | some (.inr flag), none => d.raise flag

/-- Takes letters that stand for options. What follows the letter of a parameter is its value. -/
def addLetters (d : Draft) : List Char → Except UsageError Draft
  | [] => .ok d
  | c :: rest =>
    match short? c, rest with
    | none, _ => .error .unknownArgument
    | some (.inr flag), rest => do
      let d ← d.raise flag
      d.addLetters rest
    | some (.inl p), [] => d.await p
    | some (.inl p), '=' :: value => d.attach p (String.ofList value)
    | some (.inl p), value => d.attach p (String.ofList value)

def add (d : Draft) (argument : String) : Except UsageError Draft :=
  if d.closed then .error .unknownArgument
  else
    match argument.toList with
    | ['-', '-'] => .ok { d with closed := true }
    | '-' :: '-' :: cs =>
      let value := match cs.dropWhile (· ≠ '=') with
        | _ :: value => some (String.ofList value)
        | [] => none
      d.addLong (String.ofList (cs.takeWhile (· ≠ '='))) value
    | '-' :: c :: cs => d.addLetters (c :: cs)
    | _ =>
      match d.pending with
      | some (p, none) => .ok { d with pending := some (p, some argument) }
      | _ => .error .unknownArgument

def finish (d : Draft) : Except UsageError Arguments :=
  d.settle.map fun d =>
    { config := d.config.getD "harness.toml"
      interface := d.interface
      apps := d.apps
      verbose := d.flags.contains .verbose
      jsonLogs := d.flags.contains .jsonLogs
      json := d.flags.contains .json
      dryRun := d.flags.contains .dryRun }

def addAll (d : Draft) : List String → Except UsageError Draft
  | [] => .ok d
  | argument :: rest => (d.add argument).bind fun d => d.addAll rest

end Draft

/-- Reads a command line, without the name of the program. -/
def parse (arguments : List String) : Except UsageError Arguments :=
  (({} : Draft).addAll arguments).bind Draft.finish

def override (a : Arguments) (s : Settings) : Settings :=
  { s with
    interface := { s.interface with kind := a.interface.getD s.interface.kind }
    apps := if a.apps.isEmpty then s.apps else a.apps }

def overrideLog (a : Arguments) : List Log.Event :=
  (match a.interface with
    | some kind => [⟨.info, .overrides, "🔧 Interface overridden to: " ++ kind.title⟩]
    | none => []) ++
  (if a.apps.isEmpty then []
    else [⟨.info, .overrides,
      "🔧 Apps overridden to: [" ++ ", ".intercalate (a.apps.map App.title) ++ "]"⟩])

end Arguments

end Shakedown
