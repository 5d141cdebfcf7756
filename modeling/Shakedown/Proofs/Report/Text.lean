import Mathlib.Data.List.Forall2
import Shakedown.Proofs.Decimal.Digits
import Shakedown.Proofs.Text.Quoted
import Shakedown.Proofs.Text.Split
import Shakedown.Report.Text

/-!
# The report as lines

The report for a reader has one line for each case and one that sums up. Whatever the messages say,
they can neither add a line nor pass for another outcome: a message stands in its line as debug
text, so the line tells where the message ends.
-/

namespace Shakedown

open Text (isHidden quoteChars)

theorem Decimal.digits_injective {m n : Nat} (h : digits m = digits n) : m = n := by
  rw [← valueFrom_digits m, h, valueFrom_digits]

theorem Decimal.not_mem_digits {c : Char} (hc : c.isDigit = false) (n : Nat) : c ∉ digits n := by
  intro hmem
  rw [isDigit_of_mem_digits hmem] at hc
  exact nomatch hc

/-! ### Outcomes -/

theorem Severity.title_append_inj {s s' : Severity} {x y : List Char}
    (h : s.title.toList ++ x = s'.title.toList ++ y) : s = s' ∧ x = y := by
  cases s <;> cases s' <;> simp [title] at h ⊢ <;> exact h

/-- Behind the message of a failure everything is of known length or told by its first letter. -/
theorem failureChars_append_inj {status message message' : String} {s s' : Severity}
    {x y : List Char}
    (h : failureChars status message s ++ x = failureChars status message' s' ++ y) :
    message = message' ∧ s = s' ∧ x = y := by
  simp only [failureChars, List.append_assoc, List.append_cancel_left_eq] at h
  obtain ⟨hmessage, hrest⟩ := Text.quoteChars_append_inj h
  obtain ⟨hseverity, htail⟩ := Severity.title_append_inj (List.append_cancel_left hrest)
  exact ⟨String.toList_injective hmessage, hseverity, List.append_cancel_left htail⟩

theorem isHidden_of_all {cs : List Char} (h : (cs.all fun c => !isHidden c) = true) :
    ∀ c ∈ cs, isHidden c = false := by
  simpa using h

theorem isHidden_of_mem_quoteChars (cs : List Char) : ∀ c ∈ quoteChars cs, isHidden c = false := by
  refine List.forall_mem_cons.mpr ⟨rfl, List.forall_mem_append.mpr ⟨fun c hc => ?_, ?_⟩⟩
  · obtain ⟨d, -, hd⟩ := List.mem_flatMap.mp hc
    exact Text.isHidden_of_mem_escapeChar hd
  · exact List.forall_mem_singleton.mpr rfl

theorem isHidden_of_mem_failureChars {status : String}
    (hstatus : ∀ c ∈ status.toList, isHidden c = false) (message : String) (s : Severity) :
    ∀ c ∈ failureChars status message s, isHidden c = false := by
  have htitle : ∀ c ∈ s.title.toList, isHidden c = false := by
    cases s <;> exact isHidden_of_all rfl
  have hmessage : ∀ c ∈ " \x7b message: ".toList, isHidden c = false := isHidden_of_all rfl
  have hseverity : ∀ c ∈ ", severity: ".toList, isHidden c = false := isHidden_of_all rfl
  have hclose : ∀ c ∈ " \x7d".toList, isHidden c = false := isHidden_of_all rfl
  simp only [failureChars, List.forall_mem_append]
  exact ⟨⟨⟨⟨⟨hstatus, hmessage⟩, isHidden_of_mem_quoteChars _⟩, hseverity⟩, htitle⟩, hclose⟩

namespace Outcome

/-- The letter that the text of an outcome starts with. -/
def initial : Outcome → Char
  | passed => 'P'
  | installFailed .. => 'I'
  | failed .. => 'F'
  | notRun => 'N'
  | skipped => 'S'

theorem head?_chars_append (o : Outcome) (x : List Char) :
    (o.chars ++ x).head? = some o.initial := by
  cases o <;> rfl

/-- The text of an outcome tells where it ends, and which outcome it is. -/
theorem chars_append_inj {o o' : Outcome} {x y : List Char} (h : o.chars ++ x = o'.chars ++ y) :
    o = o' ∧ x = y := by
  have hinitial : o.initial = o'.initial := by
    have hhead := congrArg List.head? h
    rwa [head?_chars_append, head?_chars_append, Option.some.injEq] at hhead
  -- the initial leaves only the outcomes of one kind
  cases o <;> cases o' <;> simp only [initial, Char.reduceEq] at hinitial
  case passed.passed | notRun.notRun | skipped.skipped =>
    exact ⟨rfl, List.append_cancel_left h⟩
  case installFailed.installFailed | failed.failed =>
    obtain ⟨rfl, rfl, htail⟩ := failureChars_append_inj h
    exact ⟨rfl, htail⟩

theorem chars_injective {o o' : Outcome} (h : o.chars = o'.chars) : o = o' :=
  (chars_append_inj (congrArg (· ++ []) h)).1

/-- The only quotes in the text of a failure are those around its message and those in it. -/
theorem chars_of_failure {o : Outcome} {message : String} {s : Severity}
    (ho : o = .installFailed message s ∨ o = .failed message s) :
    ∃ before after, '"' ∉ before ∧ '"' ∉ after ∧
      o.chars = before ++ '"' :: (message.toList.flatMap Text.escapeChar ++ '"' :: after) := by
  have htitle : '"' ∉ s.title.toList := by cases s <;> decide
  have hafter : '"' ∉ ", severity: ".toList ++ s.title.toList ++ " \x7d".toList := by
    simp [htitle]
  have hchars {status : String} (hstatus : '"' ∉ status.toList) :
      ∃ before after, '"' ∉ before ∧ '"' ∉ after ∧ failureChars status message s =
        before ++ '"' :: (message.toList.flatMap Text.escapeChar ++ '"' :: after) := by
    refine ⟨status.toList ++ " \x7b message: ".toList, _, by simp [hstatus], hafter, ?_⟩
    simp [failureChars, quoteChars]
  rcases ho with rfl | rfl
  · exact hchars (by decide)
  · exact hchars (by decide)

theorem isHidden_of_mem_chars (o : Outcome) : ∀ c ∈ o.chars, isHidden c = false := by
  cases o with
  | installFailed message s => exact isHidden_of_mem_failureChars (isHidden_of_all rfl) message s
  | failed message s => exact isHidden_of_mem_failureChars (isHidden_of_all rfl) message s
  | passed | notRun | skipped => exact isHidden_of_all rfl

end Outcome

/-! ### Lines -/

namespace CaseReport

variable {c c' : CaseReport}

theorem not_mem_line (hname : '\n' ∉ c.name.toList) : '\n' ∉ c.line := by
  have hspaces (n : Nat) : '\n' ∉ List.replicate n ' ' :=
    fun hmem => absurd (List.eq_of_mem_replicate hmem) (by decide)
  have houtcome : '\n' ∉ c.outcome.chars :=
    fun hmem => absurd (c.outcome.isHidden_of_mem_chars _ hmem) (by decide)
  simp [line, padRight, hname, hspaces, houtcome, Decimal.not_mem_digits]

/-- Cases of one name are told apart by their lines. -/
theorem line_inj (hname : c.name = c'.name) (h : c.line = c'.line) :
    c.outcome = c'.outcome ∧ c.durationMs = c'.durationMs := by
  simp only [line, hname, List.append_assoc, List.append_cancel_left_eq] at h
  obtain ⟨houtcome, hrest⟩ := Outcome.chars_append_inj h
  have hdigits := List.append_cancel_right (List.append_cancel_left hrest)
  exact ⟨houtcome, Decimal.digits_injective hdigits⟩

/-- A line that tells the name of a case, its outcome and its duration. -/
def ShownByLine (c : CaseReport) (line : List Char) : Prop :=
  ∃ spaces, line = c.name.toList ++ List.replicate spaces ' ' ++ c.outcome.chars ++
    (" (" ++ toString c.durationMs ++ "ms)").toList

theorem shownByLine (c : CaseReport) : c.ShownByLine c.line := by
  refine ⟨10 - c.name.toList.length + 1, ?_⟩
  simp [line, padRight, Decimal.digits, List.replicate_succ']

end CaseReport

namespace Report

/-- A text has one line for each case, in order, then the totals and nothing else, and it tells the
outcomes and durations of the cases. -/
structure ShownByLines (r : Report) (text : String) : Prop where
  lines : ∃ lines, List.Forall₂ CaseReport.ShownByLine r.cases lines ∧
    Text.split '\n' text.toList =
      lines ++ [(toString r.passed ++ " passed, " ++ toString r.failed ++ " failed, " ++
        toString r.cases.length ++ " total").toList, []]
  tells : ∀ other : Report, other.cases.map CaseReport.name = r.cases.map CaseReport.name →
    other.text = text →
      other.cases.map CaseReport.outcome = r.cases.map CaseReport.outcome ∧
        other.cases.map CaseReport.durationMs = r.cases.map CaseReport.durationMs

variable (r : Report)

theorem not_mem_summary : '\n' ∉ r.summary := by
  simp [summary, Decimal.not_mem_digits]

theorem summary_eq :
    r.summary = (toString r.passed ++ " passed, " ++ toString r.failed ++ " failed, " ++
      toString r.cases.length ++ " total").toList := by
  simp [summary, Decimal.digits]

theorem split_text {r : Report} (hnames : ∀ c ∈ r.cases, '\n' ∉ c.name.toList) :
    Text.split '\n' r.text.toList = r.cases.map CaseReport.line ++ [r.summary, []] := by
  have hlines : ∀ l ∈ r.lines, '\n' ∉ l := by
    refine List.forall_mem_append.mpr ⟨List.forall_mem_map.mpr fun c hc => ?_, ?_⟩
    · exact CaseReport.not_mem_line (hnames c hc)
    · exact List.forall_mem_singleton.mpr r.not_mem_summary
  rw [text, String.toList_ofList, Text.split_flatMap hlines, lines, List.append_assoc]
  rfl

/-- Reports on cases of the same names are told apart by their text. -/
theorem text_inj {r other : Report} (hnames : ∀ c ∈ r.cases, '\n' ∉ c.name.toList)
    (hsame : other.cases.map CaseReport.name = r.cases.map CaseReport.name)
    (htext : other.text = r.text) :
    other.cases.map CaseReport.outcome = r.cases.map CaseReport.outcome ∧
      other.cases.map CaseReport.durationMs = r.cases.map CaseReport.durationMs := by
  have hother : ∀ c ∈ other.cases, '\n' ∉ c.name.toList := by
    intro c hc
    have hmem : c.name ∈ r.cases.map CaseReport.name := hsame ▸ List.mem_map_of_mem hc
    obtain ⟨d, hd, hname⟩ := List.mem_map.mp hmem
    exact hname ▸ hnames d hd
  have hlines : other.cases.map CaseReport.line = r.cases.map CaseReport.line := by
    have hsplit := split_text hother
    rw [htext, split_text hnames] at hsplit
    exact (List.append_inj_left' hsplit rfl).symm
  generalize other.cases = cs at hsame hlines
  generalize r.cases = ds at hsame hlines
  clear hnames hother htext
  induction cs generalizing ds with
  | nil =>
    obtain rfl : ds = [] := List.map_eq_nil_iff.mp hsame.symm
    exact ⟨rfl, rfl⟩
  | cons c rest ih =>
    cases ds with
    | nil => exact absurd hsame (List.cons_ne_nil _ _)
    | cons d more =>
      obtain ⟨hname, hnames⟩ := List.cons.inj hsame
      obtain ⟨hline, hlines⟩ := List.cons.inj hlines
      obtain ⟨houtcome, hduration⟩ := CaseReport.line_inj hname hline
      obtain ⟨houtcomes, hdurations⟩ := ih more hnames hlines
      exact ⟨congrArg₂ List.cons houtcome houtcomes, congrArg₂ List.cons hduration hdurations⟩

theorem shownByLines {r : Report} (hnames : ∀ c ∈ r.cases, '\n' ∉ c.name.toList) :
    r.ShownByLines r.text where
  lines := by
    refine ⟨r.cases.map CaseReport.line, ?_, ?_⟩
    · rw [List.forall₂_map_right_iff, List.forall₂_same]
      exact fun c _ => c.shownByLine
    · rw [split_text hnames, summary_eq]
  tells _ := text_inj hnames

/-- The text has one line for each case and the totals, and no message can pass for anything else. -/
theorem lines_of_text {r : Report} (hnames : ∀ c ∈ r.cases, '\n' ∉ c.name.toList) :
    Text.split '\n' r.text.toList = r.cases.map CaseReport.line ++ [r.summary, []] ∧
      r.summary = (toString r.passed ++ " passed, " ++ toString r.failed ++ " failed, " ++
        toString r.cases.length ++ " total").toList ∧
      (∀ (o : Outcome) (message : String) (s : Severity),
        o = .installFailed message s ∨ o = .failed message s →
          ∃ before after, '"' ∉ before ∧ '"' ∉ after ∧
            o.chars = before ++ '"' :: (message.toList.flatMap Text.escapeChar ++ '"' :: after)) ∧
      (∀ c, (Text.escapeChar c = [c] ∧ c ≠ '"' ∧ c ≠ '\\') ∨
        ∃ d more, Text.escapeChar c = '\\' :: d :: more ∧ '"' ∉ more ∧ '\\' ∉ more) ∧
      (∀ (o : Outcome), ∀ c ∈ o.chars, 0x20 ≤ c.toNat ∧ ¬(0x7F ≤ c.toNat ∧ c.toNat ≤ 0x9F) ∧
        c.toNat ≠ 0x2028 ∧ c.toNat ≠ 0x2029) ∧
      (∀ o o' : Outcome, o.chars = o'.chars → o = o') ∧
      ∀ other : Report, other.cases.map CaseReport.name = r.cases.map CaseReport.name →
        other.text = r.text →
          other.cases.map CaseReport.outcome = r.cases.map CaseReport.outcome ∧
            other.cases.map CaseReport.durationMs = r.cases.map CaseReport.durationMs := by
  refine ⟨split_text hnames, r.summary_eq, fun o message s => Outcome.chars_of_failure,
    fun c => ?_, fun o c hc => Text.not_control_of_shown (o.isHidden_of_mem_chars c hc),
    fun o o' => Outcome.chars_injective, fun other => text_inj hnames⟩
  rcases Text.escapeChar_spec c with ⟨hshown, hquote, hslash, -⟩ | hescaped
  · exact Or.inl ⟨hshown, hquote, hslash⟩
  · exact Or.inr hescaped

/-- A message that spells the end of its outcome and the line of a case that passed. -/
theorem lines_of_text_forged :
    let forging := "x\", severity: Medium \x7d (1ms)\nFILES      Passed (1ms)\n"
    let report : Report := ⟨⟨0, 0⟩, ⟨1, 0⟩, [⟨"CORE", .core, .passed, 3⟩,
      ⟨"FILES", .files, .failed forging .high, 12⟩]⟩
    (∀ c ∈ report.cases, '\n' ∉ c.name.toList) ∧
      Text.split '\n' report.text.toList =
        ["CORE       Passed (3ms)".toList,
          ("FILES      Failed \x7b message: \"x\\\", severity: Medium \x7d (1ms)\\n" ++
            "FILES      Passed (1ms)\\n\", severity: High \x7d (12ms)").toList,
          "1 passed, 1 failed, 2 total".toList, []] := by
  intro forging report
  have hnames : ∀ c ∈ report.cases, '\n' ∉ c.name.toList := by decide
  refine ⟨hnames, (lines_of_text hnames).1.trans ?_⟩
  decide

end Report

end Shakedown
