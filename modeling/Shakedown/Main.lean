import Shakedown.Log.Line
import Shakedown.Session
import Std.Time.DateTime.Timestamp

/-!
The command line of the program.

It reads the arguments, the environment and the file with the settings, runs a session and writes
what the session says. No program is started and no connection is opened from here: whatever a
session wants to call, the system is taken not to offer it. A dry run needs neither.
-/

namespace Shakedown.Main

/-- The number of a system error; some operations yield it with its sign changed. -/
def errorNumber (e : IO.Error) : Nat :=
  match e with
  | .alreadyExists _ n _ | .interrupted _ n _ | .noFileOrDirectory _ n _ | .invalidArgument _ n _
  | .permissionDenied _ n _ | .resourceExhausted _ n _ | .inappropriateType _ n _
  | .noSuchThing _ n _ => magnitude n
  | .otherError n _ | .resourceBusy n _ | .resourceVanished n _ | .unsupportedOperation n _
  | .hardwareFault n _ | .unsatisfiedConstraints n _ | .illegalOperation n _
  | .protocolError n _ | .timeExpired n _ => magnitude n
  | .unexpectedEof | .userError _ => 5
where
  magnitude (n : UInt32) : Nat := n.toInt32.toInt.natAbs

/-- The system does not offer what is asked for. -/
def notOffered : SystemFault := .number 38

def readFile (path : String) : IO (Except SystemFault (List UInt8)) := do
  try
    return .ok (← IO.FS.readBinFile path).toList
  catch e => return .error (.number (errorNumber e))

/-- An entry of the environment, unless it is no text. -/
def entry? (bytes : List UInt8) : Option (String × String) :=
  (Text.decode? bytes).map fun cs =>
    (String.ofList (cs.takeWhile (· ≠ '=')), String.ofList ((cs.dropWhile (· ≠ '=')).drop 1))

/-- The environment of this process: entries that each end in a byte of zero. -/
def readEnvironment : IO Environment := do
  match ← readFile "/proc/self/environ" with
  | .ok bytes => return .ofList ((bytes.splitOn 0).filterMap entry?)
  | .error _ => return .ofList []

def readClock : IO Nat := do
  return (← Std.Time.Timestamp.now).toNanosecondsSinceUnixEpoch.val.toNat

def tell (shows : Log.Event → Bool) (asJson : Bool) : Message → IO Unit
  | .notice line => IO.eprintln line
  | .event e => do
    if shows e then
      let now := Instant.ofNanos (← readClock)
      IO.eprintln (if asJson then e.jsonLine now else e.plainLine now)

def runSession (a : Arguments) : IO UInt32 := do
  let environment ← readEnvironment
  let content ← readFile a.config
  let around : Surroundings :=
    { environment := environment
      file := fun _ => content
      launch := fun _ _ _ => (.refused notOffered, 0)
      exchange := fun _ _ _ => (.unreachable, 0)
      clock := ← readClock }
  let transcript := Session.run around a
  let shows := (Session.filterFor around a).shows
  transcript.messages.forM (tell shows a.jsonLogs)
  IO.print transcript.output
  return UInt32.ofNat transcript.exitCode

def usage : String :=
  "usage: shakedown [--config FILE] [--interface cli|http] [--apps APP,...] [--verbose] " ++
    "[--json-logs] [--json] [--dry-run]"

def run (arguments : List String) : IO UInt32 := do
  match Arguments.parse arguments with
  | .ok a => runSession a
  | .error .help =>
    IO.println usage
    return 0
  | .error _ =>
    IO.eprintln usage
    return 2

end Shakedown.Main

def main (arguments : List String) : IO UInt32 :=
  Shakedown.Main.run arguments
