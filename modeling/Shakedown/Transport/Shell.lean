import Shakedown.Envelope.Reader
import Shakedown.Text.Utf8
import Shakedown.World

/-!
Calls through a program that runs the script of a server.

The program gets the call as arguments and prints an envelope. Its exit status does not matter,
since refused calls end with an envelope too.
-/

namespace Shakedown

structure Shell where
  program : String
  /-- The directory that holds the script. -/
  root : String
  timeoutMs : Nat
  deriving DecidableEq, Inhabited

inductive Ending where
  | refused (fault : SystemFault)
  /-- It had not ended when the time was over. -/
  | unfinished
  | finished (output errors : List UInt8) (status : Nat)

namespace Shell

/-- The path of the script; there is one slash between the root and the name. -/
def scriptPath (root : String) : String :=
  if root = "" ∨ root.toList.getLast? = some '/' then root ++ "index.php"
  else root ++ "/index.php"

/-- The arguments of a call: the script, a request for JSON, app and action, and then each
parameter with its key as an option. -/
def arguments (s : Shell) (call : Call) : List String :=
  scriptPath s.root :: "--json" :: call.app :: call.action ::
    call.params.toList.flatMap fun p => ["--" ++ p.1, p.2]

/-- A program cannot be started with the character NUL in its name or arguments. -/
def canStart (s : Shell) (call : Call) : Bool :=
  (s.program :: s.arguments call).all fun text => !text.toList.contains '\x00'

/-- What a call comes to when the program ends in some way. -/
def resultOf (s : Shell) : Ending → Except Failure Envelope
  | .refused fault => .error (.system fault)
  | .unfinished => .error (.timeout (s.timeoutMs / 1000))
  | .finished output _ _ => Envelope.ofOutput (Text.decodeLossy output)

/-- A program that did not print an envelope is reported with its status and what it printed
as errors. -/
def complaint (s : Shell) (ending : Ending) : List Log.Event :=
  match ending, s.resultOf ending with
  | .finished _ errors status, .error _ =>
    [⟨.warn, .shell,
      s.program ++ " exited with exit status: " ++ String.ofList (Decimal.digits status) ++ ": " ++
        String.ofList (Text.trimChars (Text.decodeLossy errors))⟩]
  | _, _ => []

def reply (s : Shell) (call : Call) (ending : Ending) (elapsed : Nat) : Reply where
  result := s.resultOf ending
  log :=
    ⟨.debug, .shell, "Running " ++ call.app ++ " " ++ call.action ++ " via " ++ s.program⟩ ::
      s.complaint ending
  elapsed := elapsed

/-- What the program was started with for some calls. -/
def started (s : Shell) (calls : List Call) : List (List String) :=
  (calls.filter s.canStart).map s.arguments

/-- How a program ends, and after how many nanoseconds: that depends on the arguments of its earlier
starts and on its own. -/
abbrev Program := List (List String) → List String → Ending × Nat

def server (s : Shell) (program : Program) : Server :=
  fun before call =>
    let (ending, elapsed) :=
      if s.canStart call then program (s.started before) (s.arguments call)
      else (.refused .nulInArgument, 0)
    s.reply call ending elapsed

end Shell

end Shakedown
