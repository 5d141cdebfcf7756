import Shakedown.Main
import Shakedown.Proofs.Run.Basic
import Shakedown.Proofs.Run.Invocation
import Shakedown.Proofs.Run.Outcome
import Shakedown.Proofs.Case.Answer
import Shakedown.Proofs.Case.Standard
import Shakedown.Proofs.Run.Standard
import Shakedown.Proofs.Run.Selection
import Shakedown.Proofs.Settings.Acceptance
import Shakedown.Proofs.Transport.Failure
import Shakedown.Proofs.Session.ExitCode
import Shakedown.Proofs.Registry.Fields
import Shakedown.Proofs.Run.Placed
import Shakedown.Proofs.Run.Effect
import Shakedown.Proofs.Run.Repeated
import Shakedown.Proofs.Suite.Apps
import Shakedown.Proofs.Transport.Agreement
import Shakedown.Proofs.Placeholder.Decomposition
import Shakedown.Proofs.Settings.Order
import Shakedown.Proofs.Session.Plan
import Shakedown.Proofs.Toml.Lines
import Shakedown.Proofs.Toml.Reading
import Shakedown.Proofs.Toml.Statements
import Shakedown.Proofs.Toml.Difference
import Shakedown.Proofs.Toml.Section
import Shakedown.Proofs.Toml.Text
import Shakedown.Proofs.Toml.Line
import Shakedown.Proofs.Settings.Reading
import Shakedown.Proofs.Settings.Password
import Shakedown.Proofs.Session.Ending
import Shakedown.Proofs.Run.Secrecy
import Shakedown.Proofs.Settings.Leftover
import Shakedown.Proofs.Registry.History
import Shakedown.Proofs.Entries.Reading
import Shakedown.Proofs.Transport.Arguments
import Shakedown.Proofs.Text.Utf8
import Shakedown.Proofs.Url.Form
import Shakedown.Proofs.Result
import Shakedown.Proofs.Url.Target
import Shakedown.Proofs.Transport.Requests
import Shakedown.Proofs.Decimal.Digits
import Shakedown.Proofs.Json.Token
import Shakedown.Proofs.Json.Written
import Shakedown.Proofs.Json.Reading
import Shakedown.Proofs.Json.Skipping
import Shakedown.Proofs.Report.Json
import Shakedown.Proofs.Envelope.Fields
import Shakedown.Proofs.Envelope.Reading
import Shakedown.Proofs.Envelope.Acceptance
import Shakedown.Proofs.Placeholder.Substitution
import Shakedown.Proofs.Settings.Apps
import Shakedown.Proofs.Suite.Sorting
import Shakedown.Proofs.Run.Admins
import Shakedown.Proofs.Case.Hooks
import Shakedown.Proofs.Report.Totals
import Shakedown.Proofs.Report.Text
import Shakedown.Proofs.Toml.Layout
import Shakedown.Proofs.Toml.Plain
import Shakedown.Proofs.Toml.Sections
import Shakedown.Proofs.Settings.Sections
import Shakedown.Proofs.App.Naming
import Shakedown.Proofs.Envelope.Preview
import Shakedown.Proofs.Arguments.Options
import Shakedown.Proofs.Settings.Transport
