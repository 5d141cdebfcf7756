import Mathlib.Data.List.Forall2
import Shakedown.Proofs.Json.Reading
import Shakedown.Report.Json
import Shakedown.Session

/-!
# The report as JSON

What a session prints for other programs can be read back: one object for each case, in the order of
the cases, with everything that the report says about it. So the text determines the cases.
-/

namespace Shakedown

theorem Severity.name_injective {s t : Severity} (h : s.name = t.name) : s = t := by
  revert h
  cases s <;> cases t <;> decide

namespace Outcome

variable {o o' : Outcome} {j : Json}

def message? : Outcome → Option String
  | installFailed message _ | failed message _ => some message
  | passed | notRun | skipped => none

/-- An object that shows an outcome: its status, and message and severity of a failure. -/
structure ShownBy (o : Outcome) (j : Json) : Prop where
  status : j.member? "status" = some (.str o.status)
  message : j.member? "message" = o.message?.map .str
  severity : j.member? "severity" = o.severity?.map fun s => .str s.name

theorem shownBy_sorted (o : Outcome) : o.ShownBy o.toJson.sorted := by
  cases o <;> constructor <;> exact Json.member?_sorted ..

theorem ShownBy.unique (h : o.ShownBy j) (h' : o'.ShownBy j) : o = o' := by
  have hstatus := h.status.symm.trans h'.status
  have hmessage := h.message.symm.trans h'.message
  have hseverity := h.severity.symm.trans h'.severity
  -- outcomes of two kinds differ in their status
  cases o <;> cases o' <;>
    simp [Outcome.status, message?, severity?] at hstatus hmessage hseverity ⊢
  · exact ⟨hmessage, Severity.name_injective hseverity⟩
  · exact ⟨hmessage, Severity.name_injective hseverity⟩

end Outcome

namespace CaseReport

variable {c c' : CaseReport} {j : Json}

/-- An object that shows a case. -/
structure ShownBy (c : CaseReport) (j : Json) : Prop where
  name : j.member? "name" = some (.str c.name)
  app : j.member? "app" = some (.str c.app.name)
  duration : j.member? "duration_ms" = some (.int c.durationMs)
  outcome : ∃ shown, j.member? "outcome" = some shown ∧ c.outcome.ShownBy shown

theorem shownBy_sorted (c : CaseReport) : c.ShownBy c.toJson.sorted := by
  constructor
  case outcome => exact ⟨c.outcome.toJson.sorted, Json.member?_sorted .., c.outcome.shownBy_sorted⟩
  all_goals exact Json.member?_sorted ..

theorem ShownBy.unique (h : c.ShownBy j) (h' : c'.ShownBy j) : c = c' := by
  obtain ⟨shown, hshown, houtcome⟩ := h.outcome
  obtain ⟨shown', hshown', houtcome'⟩ := h'.outcome
  obtain rfl : shown = shown' := Option.some.inj (hshown.symm.trans hshown')
  have hname : Json.str c.name = .str c'.name := Option.some.inj (h.name.symm.trans h'.name)
  have happ : Json.str c.app.name = .str c'.app.name := Option.some.inj (h.app.symm.trans h'.app)
  have hduration : Json.int c.durationMs = .int c'.durationMs :=
    Option.some.inj (h.duration.symm.trans h'.duration)
  have hsame := houtcome.unique houtcome'
  obtain ⟨name, app, outcome, durationMs⟩ := c
  obtain ⟨name', app', outcome', durationMs'⟩ := c'
  obtain rfl : name = name' := Json.str.inj hname
  obtain rfl : app = app' := App.name_injective (Json.str.inj happ)
  obtain rfl : durationMs = durationMs' := Int.ofNat.inj (Json.int.inj hduration)
  obtain rfl : outcome = outcome' := hsame
  rfl

theorem fits_toJson (h : c.durationMs < 2 ^ 64) : Json.Fits 2 c.toJson := by
  have hduration : Json.Fits 1 (.int c.durationMs) := .int (by omega) (by omega)
  have houtcome : Json.Fits 1 c.outcome.toJson := by
    cases c.outcome <;> simp [Outcome.toJson, Json.fits_obj, Json.Fits.str]
  simp [CaseReport.toJson, Json.fits_obj, Json.Fits.str, hduration, houtcome]

end CaseReport

namespace Report

theorem fits_toJson {r : Report} (h : ∀ c ∈ r.cases, c.durationMs < 2 ^ 64) :
    Json.Fits Json.roomForLevels r.toJson := by
  have hcases : Json.Fits 3 (.arr (r.cases.map CaseReport.toJson)) := by
    refine .arr fun j hj => ?_
    obtain ⟨c, hc, rfl⟩ := List.mem_map.mp hj
    exact CaseReport.fits_toJson (h c hc)
  have hreport : Json.Fits 4 r.toJson := by
    simp [Report.toJson, Json.fits_obj, Json.Fits.str, hcases]
  exact hreport.mono (by decide)

theorem member?_cases (r : Report) :
    r.toJson.sorted.member? "cases" = some (.arr (r.cases.map fun c => c.toJson.sorted)) := by
  rw [toJson, Json.member?_sorted]
  change some (Json.sorted (.arr (r.cases.map CaseReport.toJson))) = _
  rw [Json.sorted, Json.sortedItems_eq_map, List.map_map]
  rfl

/-- The cases are shown in their order. -/
theorem shown_cases (cases : List CaseReport) :
    List.Forall₂ CaseReport.ShownBy cases (cases.map fun c => c.toJson.sorted) := by
  rw [List.forall₂_map_right_iff, List.forall₂_same]
  exact fun c _ => c.shownBy_sorted

/-- An object that shows a report: when it was started and finished, and its cases one by one. -/
structure ShownByJson (r : Report) (j : Json) : Prop where
  started : j.member? "started_at" = some (.str r.started.text)
  finished : j.member? "finished_at" = some (.str r.finished.text)
  cases : ∃ items, j.member? "cases" = some (.arr items) ∧
    List.Forall₂ CaseReport.ShownBy r.cases items

theorem shownByJson_sorted (r : Report) : r.ShownByJson r.toJson.sorted where
  started := Json.member?_sorted ..
  finished := Json.member?_sorted ..
  cases := ⟨_, r.member?_cases, shown_cases r.cases⟩

theorem ofChars?_pretty {r : Report} (h : ∀ c ∈ r.cases, c.durationMs < 2 ^ 64) :
    Json.ofChars? Json.roomForLevels (r.toJson.pretty ++ "\n").toList = .ok r.toJson.sorted := by
  have hfits := fits_toJson h
  have hnewline : Json.Blanks ['\n'] := Json.blanks_singleton rfl
  have hread := (Json.written_prettyChars hfits 0).ofChars? hfits Json.blanks_nil hnewline
  have htext : "\n".toList = ['\n'] := rfl
  rw [String.toList_append, Json.pretty, String.toList_ofList, htext]
  exact hread

/-- The JSON report can be read back to the cases, one by one, so it determines them. -/
theorem cases_of_reportText {a : Arguments} (ha : a.json = true) {r : Report}
    (hr : ∀ c ∈ r.cases, c.durationMs < 2 ^ 64) :
    (∃ text, (Session.reportText a r).toList = text ++ ['\n'] ∧ Json.Written r.toJson text) ∧
      (∃ j items, Json.ofChars? Json.roomForLevels (Session.reportText a r).toList = .ok j ∧
        j.member? "cases" = some (.arr items) ∧ List.Forall₂ CaseReport.ShownBy r.cases items) ∧
      ∀ other : Report, (∀ c ∈ other.cases, c.durationMs < 2 ^ 64) →
        Session.reportText a other = Session.reportText a r → other.cases = r.cases := by
  have htext (r : Report) : Session.reportText a r = r.toJson.pretty ++ "\n" := if_pos ha
  refine ⟨⟨Json.prettyChars 0 r.toJson, ?_, Json.written_prettyChars (fits_toJson hr) 0⟩,
    ⟨r.toJson.sorted, _, ?_, r.member?_cases, shown_cases r.cases⟩, fun other hother hsame => ?_⟩
  · rw [htext, String.toList_append, Json.pretty, String.toList_ofList]
    rfl
  · rw [htext, ofChars?_pretty hr]
  · have hread := ofChars?_pretty hr
    rw [← htext, ← hsame, htext, ofChars?_pretty hother, Except.ok.injEq] at hread
    have hcases := other.member?_cases
    rw [hread, r.member?_cases, Option.some.injEq, Json.arr.injEq] at hcases
    have hshown := shown_cases other.cases
    rw [← hcases] at hshown
    exact List.left_unique_forall₂' (fun _ _ _ h h' => h.unique h') hshown (shown_cases r.cases)

/-- A name with quotes and a backslash and a message with a line break and a control character
stay what they are. -/
theorem cases_of_reportText_escaped :
    let report : Report := ⟨⟨0, 0⟩, ⟨1, 0⟩, [⟨"say \"\\\"", .files, .failed "no\n\x01" .high, 12⟩,
      ⟨"☃", .core, .passed, 0⟩]⟩
    let printed := (Session.reportText { json := true } report).toList
    (∀ c ∈ report.cases, c.durationMs < 2 ^ 64) ∧
      ∃ j items, Json.ofChars? Json.roomForLevels printed = .ok j ∧
        j.member? "cases" = some (.arr items) ∧
        List.Forall₂ CaseReport.ShownBy report.cases items := by
  intro report printed
  have hduration : ∀ c ∈ report.cases, c.durationMs < 2 ^ 64 := by decide
  exact ⟨hduration, (cases_of_reportText (a := { json := true }) rfl hduration).2.1⟩

end Report

end Shakedown
