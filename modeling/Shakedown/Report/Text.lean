import Shakedown.Report.Basic

/-!
The report as lines for a reader: one for each case, and a summary.

A message stands in its line as debug text, so it can neither end the line nor look like the end
of the outcome.
-/

namespace Shakedown

def failureChars (status message : String) (severity : Severity) : List Char :=
  status.toList ++ " \x7b message: ".toList ++ Text.quoteChars message.toList ++
    ", severity: ".toList ++ severity.title.toList ++ " \x7d".toList

def Outcome.chars : Outcome → List Char
  | passed => "Passed".toList
  | installFailed message severity => failureChars "InstallFailed" message severity
  | failed message severity => failureChars "Failed" message severity
  | notRun => "NotRun".toList
  | skipped => "Skipped".toList

def Outcome.debug (o : Outcome) : String :=
  String.ofList o.chars

/-- Fills up to `width` characters with spaces on the right. -/
def padRight (width : Nat) (cs : List Char) : List Char :=
  cs ++ List.replicate (width - cs.length) ' '

def CaseReport.line (c : CaseReport) : List Char :=
  padRight 10 c.name.toList ++ [' '] ++ c.outcome.chars ++ " (".toList ++
    Decimal.digits c.durationMs ++ "ms)".toList

def Report.summary (r : Report) : List Char :=
  Decimal.digits r.passed ++ " passed, ".toList ++ Decimal.digits r.failed ++
    " failed, ".toList ++ Decimal.digits r.cases.length ++ " total".toList

def Report.lines (r : Report) : List (List Char) :=
  r.cases.map CaseReport.line ++ [r.summary]

/-- Every line ends with a line break. -/
def Report.text (r : Report) : String :=
  String.ofList (r.lines.flatMap fun line => line ++ ['\n'])

end Shakedown
