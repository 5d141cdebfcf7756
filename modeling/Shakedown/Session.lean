import Shakedown.Arguments
import Shakedown.Log.Filter
import Shakedown.Report.Json
import Shakedown.Report.Text
import Shakedown.Settings.Decode
import Shakedown.Settings.Validate
import Shakedown.Suite

/-!
A whole session: from the command line to the exit code.

Settings are read, overridden and checked before anything else happens, so a session with settings
that cannot be used sends no call.
-/

namespace Shakedown

/-- What a session finds around it. -/
structure Surroundings where
  environment : Environment
  /-- The bytes of each file that can be read. -/
  file : String → Except SystemFault (List UInt8)
  launch : Shell → Shell.Program
  exchange : Endpoint → Endpoint.Remote
  /-- The time at the start, in nanoseconds since the start of 1970. -/
  clock : Nat

inductive Message where
  | event (e : Log.Event)
  /-- A line for the person at the terminal. -/
  | notice (line : String)

structure Transcript where
  exitCode : Nat
  /-- The text on the standard output. -/
  output : String
  messages : List Message
  calls : List Call
  /-- The transport that the calls went through, once there is one. -/
  transport : Option Transport

namespace Session

def info (message : String) : Message :=
  .event ⟨.info, .program, message⟩

def serverOf (s : Surroundings) : Transport → Server
  | .shell shell => shell.server (s.launch shell)
  | .endpoint endpoint => endpoint.server (s.exchange endpoint)

/-- Ends a session for a failure outside of the cases. -/
def fail (told : List Message) (f : Failure) : Transcript where
  exitCode := f.severity.exitCode
  output := ""
  messages := told ++
    [.event ⟨.error, .program,
      "❌ " ++ f.message ++ " (Category: " ++ f.category.title ++ ", Severity: " ++
        f.severity.title ++ ")"⟩,
      .notice ("❌ " ++ f.friendly), .notice ("💡 " ++ f.advice)]
  calls := []
  transport := none

def plan (s : Settings) : List String :=
  ("interface: " ++ s.interface.kind.title) ::
    s.apps.map fun app => "would install and test: " ++ app.name

/-- Every line ends with a line break. -/
def unlines (lines : List String) : String :=
  String.join (lines.map fun line => line ++ "\n")

/-- Ends a session that only shows what it would do. -/
def dryRun (told : List Message) (s : Settings) : Transcript where
  exitCode := 0
  output := unlines (plan s)
  messages := told ++ [info "🔍 DRY RUN MODE - no commands will be sent"]
  calls := []
  transport := none

/-- Runs the standard cases of the apps on a registry of their own. -/
def runApps (server : Server) (apps : List App) (credentials : Credentials) (clock : Nat) :
    Report × World Unit :=
  let world : World Unit := { World.start (Registry.ofApps apps) () with clock := clock }
  (Suite.forApps server apps credentials).run world

def reportText (a : Arguments) (r : Report) : String :=
  if a.json then r.toJson.pretty ++ "\n" else r.text

def realRun (told : List Message) (s : Surroundings) (a : Arguments) (settings : Settings)
    (transport : Transport) : Transcript :=
  let (report, world) :=
    runApps (serverOf s transport) settings.apps settings.accounts s.clock
  { exitCode := report.exitCode
    output := reportText a report
    messages := told ++ world.log.map .event ++
      (if report.exitCode = 0 then [info "✅ All test cases passed"] else [])
    calls := world.calls
    transport := some transport }

def settingsFor (s : Surroundings) (a : Arguments) : Except Failure Settings :=
  Settings.ofFile s.environment a.config (s.file a.config)

def run (s : Surroundings) (a : Arguments) : Transcript :=
  let told :=
    [info "🚀 Starting andromeda-harness", info ("📁 Loading configuration from: " ++ a.config)]
  match settingsFor s a with
  | .error f => fail told f
  | .ok settings =>
    let settings := a.override settings
    let told := told ++ a.overrideLog.map .event
    match settings.validate s.environment with
    | .error f => fail told f
    | .ok () =>
      if a.dryRun then dryRun told settings
      else
        match settings.transport with
        | .error f => fail told f
        | .ok transport => realRun told s a settings transport

/-- The filter that a session shows its events by: the one that the environment asks for, if it
can be read. -/
def filterFor (s : Surroundings) (a : Arguments) : Log.Filter :=
  ((s.environment "RUST_LOG").bind Log.Filter.ofText?).getD (Log.Filter.standard a.verbose)

end Session

end Shakedown
