import Shakedown.Json.Printer
import Shakedown.Report.Basic

/-!
The report as JSON, for other programs.
-/

namespace Shakedown

/-- The name of the state that an outcome stands for. -/
def Outcome.status : Outcome → String
  | passed => "passed"
  | installFailed .. => "install_failed"
  | failed .. => "failed"
  | notRun => "not_run"
  | skipped => "skipped"

/-- The two kinds of failure carry a message and a severity. -/
def Outcome.toJson (o : Outcome) : Json :=
  .obj (("status", .str o.status) ::
    match o with
    | installFailed message severity | failed message severity =>
      [("message", .str message), ("severity", .str severity.name)]
    | passed | notRun | skipped => [])

def CaseReport.toJson (c : CaseReport) : Json :=
  .obj [("name", .str c.name), ("app", .str c.app.name), ("outcome", c.outcome.toJson),
    ("duration_ms", .int c.durationMs)]

def Report.toJson (r : Report) : Json :=
  .obj [("started_at", .str r.started.text), ("finished_at", .str r.finished.text),
    ("cases", .arr (r.cases.map CaseReport.toJson))]

end Shakedown
