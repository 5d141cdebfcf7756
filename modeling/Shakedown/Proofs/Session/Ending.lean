import Shakedown.Proofs.Report.Json
import Shakedown.Proofs.Report.Text
import Shakedown.Proofs.Run.Failures
import Shakedown.Proofs.Session.ExitCode
import Shakedown.Proofs.Settings.Order

/-!
# How a session ends

A session reads a file, decodes it, overrides the settings in it and checks them. Where one of these
stages fails, the session ends there: it has sent no call and shown nothing, and its exit code
blames the settings. Behind the last stage a dry run is a success whatever the server is like, and
any other session shows one report and exits with the code of this report.
-/

namespace Shakedown

namespace Settings

/-- Every broken rule is a matter of the settings. -/
theorem Breaks.severity_eq {env : Environment} {s : Settings} {r : Rule} {f : Failure}
    (hbreaks : Breaks env s r f) : f.severity = .medium := by
  cases hbreaks <;> rfl

theorem severity_of_ofDocument {cs : List Char} {f : Failure} (hfails : ofDocument cs = .error f) :
    f.severity = .medium := by
  rw [ofDocument] at hfails
  split at hfails
  · exact nomatch hfails
  · obtain rfl := Except.error.inj hfails
    rfl

end Settings

namespace Session

/-- The bytes of the settings file are text, and settings are read from it. -/
def Loads (around : Surroundings) (a : Arguments) (s : Settings) : Prop :=
  ∃ bytes cs, around.file a.config = .ok bytes ∧ Text.decode? bytes = some cs ∧
    Settings.ofDocument (Placeholder.substitute around.environment cs) = .ok s

/-- A stage before the run fails, and this is its failure. -/
inductive Refuses (around : Surroundings) (a : Arguments) : Failure → Prop
  | unreadable {fault : SystemFault} : around.file a.config = .error fault →
      Refuses around a (.settings ("cannot read " ++ a.config ++ ": " ++ fault.text))
  | notText {bytes : List UInt8} : around.file a.config = .ok bytes →
      Text.decode? bytes = none →
      Refuses around a
        (.settings ("cannot read " ++ a.config ++ ": " ++ SystemFault.invalidUtf8.text))
  | undecodable {bytes : List UInt8} {cs : List Char} {f : Failure} :
      around.file a.config = .ok bytes → Text.decode? bytes = some cs →
      Settings.ofDocument (Placeholder.substitute around.environment cs) = .error f →
      Refuses around a f
  | invalid {s : Settings} {r : Settings.Rule} {f : Failure} : Loads around a s →
      Settings.FirstBroken around.environment (a.override s) r f → Refuses around a f

/-- Every stage before the run succeeds, and these are the settings that the session goes by. -/
def Accepts (around : Surroundings) (a : Arguments) (s : Settings) : Prop :=
  ∃ loaded, Loads around a loaded ∧ s = a.override loaded ∧
    Settings.Acceptable around.environment s

variable {around : Surroundings} {a : Arguments} {s : Settings} {f : Failure}

theorem settingsFor_eq_ok_iff : settingsFor around a = .ok s ↔ Loads around a s := by
  unfold settingsFor Settings.ofFile Loads
  cases around.file a.config with
  | error fault => simp [Except.bind]
  | ok bytes => cases htext : Text.decode? bytes <;> simp [Except.bind, htext]

theorem refuses_of_settingsFor (hfails : settingsFor around a = .error f) :
    Refuses around a f := by
  unfold settingsFor Settings.ofFile at hfails
  cases hfile : around.file a.config with
  | error fault =>
    rw [hfile] at hfails
    obtain rfl := Except.error.inj hfails
    exact .unreadable hfile
  | ok bytes =>
    cases htext : Text.decode? bytes with
    | none =>
      simp only [hfile, Except.bind, htext] at hfails
      obtain rfl := Except.error.inj hfails
      exact .notText hfile htext
    | some cs =>
      simp only [hfile, Except.bind, htext] at hfails
      exact .undecodable hfile htext hfails

theorem Refuses.severity_eq (hrefuses : Refuses around a f) : f.severity = .medium := by
  cases hrefuses with
  | unreadable | notText => rfl
  | undecodable hfile htext hfails => exact Settings.severity_of_ofDocument hfails
  | invalid hloads hbroken => exact hbroken.1.severity_eq

/-! ### Each way to end -/

/-- The last stage decides between the two ways to end. -/
theorem refuses_or_accepts (around : Surroundings) (a : Arguments) :
    (∃ f, Refuses around a f) ∨ ∃ s, Accepts around a s := by
  cases hloaded : settingsFor around a with
  | error f => exact Or.inl ⟨f, refuses_of_settingsFor hloaded⟩
  | ok loaded =>
    have hloads := settingsFor_eq_ok_iff.mp hloaded
    cases hvalid : (a.override loaded).validate around.environment with
    | error f =>
      obtain ⟨r, hbroken⟩ := Settings.validate_eq_error_iff.mp hvalid
      exact Or.inl ⟨f, .invalid hloads hbroken⟩
    | ok u =>
      exact Or.inr ⟨_, loaded, hloads, rfl, Settings.validate_eq_ok_iff_acceptable.mp hvalid⟩

theorem run_of_refuses (hrefuses : Refuses around a f) : ∃ told, run around a = fail told f := by
  have hstops : settingsFor around a = .error f ∨ ∃ s, settingsFor around a = .ok s ∧
      (a.override s).validate around.environment = .error f := by
    cases hrefuses with
    | unreadable hfile => simp [settingsFor, Settings.ofFile, hfile, Except.bind]
    | notText hfile htext => simp [settingsFor, Settings.ofFile, hfile, htext, Except.bind]
    | undecodable hfile htext hfails =>
      simp [settingsFor, Settings.ofFile, hfile, htext, hfails, Except.bind]
    | invalid hloads hbroken =>
      exact Or.inr ⟨_, settingsFor_eq_ok_iff.mpr hloads,
        Settings.validate_eq_error_iff.mpr ⟨_, hbroken⟩⟩
  unfold run
  rcases hstops with hfails | ⟨s, hloaded, hfails⟩
  · rw [hfails]
    exact ⟨_, rfl⟩
  · rw [hloaded]
    dsimp only
    rw [hfails]
    exact ⟨_, rfl⟩

theorem exitCode_of_refuses (hrefuses : Refuses around a f) :
    (run around a).exitCode = 2 ∧ (run around a).output = "" ∧ (run around a).calls = [] := by
  obtain ⟨told, hrun⟩ := run_of_refuses hrefuses
  rw [hrun, fail, hrefuses.severity_eq]
  exact ⟨rfl, rfl, rfl⟩

theorem run_of_accepts (haccepts : Accepts around a s) :
    ∃ told transport, s.transport = .ok transport ∧
      run around a = if a.dryRun then dryRun told s else realRun told around a s transport := by
  obtain ⟨loaded, hloads, rfl, hacceptable⟩ := haccepts
  have hvalid := Settings.validate_eq_ok_iff_acceptable.mpr hacceptable
  obtain ⟨transport, htransport⟩ :=
    Settings.exists_transport (Settings.validate_eq_ok_iff.mp hvalid).1
  unfold run
  rw [settingsFor_eq_ok_iff.mpr hloads]
  dsimp only
  rw [hvalid]
  dsimp only
  rw [htransport]
  exact ⟨_, transport, rfl, rfl⟩

theorem exitCode_ne_two_of_accepts (haccepts : Accepts around a s) :
    (run around a).exitCode ≠ 2 := by
  obtain ⟨told, transport, -, hrun⟩ := run_of_accepts haccepts
  obtain ⟨-, -, -, hacceptable⟩ := haccepts
  rw [hrun]
  split
  · simp [dryRun]
  · exact exitCode_runApps_ne_two hacceptable.needs

theorem exitCode_eq_two_iff : (run around a).exitCode = 2 ↔ ∃ f, Refuses around a f := by
  constructor
  · intro htwo
    apply (refuses_or_accepts around a).resolve_right
    rintro ⟨s, haccepts⟩
    exact exitCode_ne_two_of_accepts haccepts htwo
  · rintro ⟨f, hrefuses⟩
    exact (exitCode_of_refuses hrefuses).1

theorem refuses_iff_not_accepts : (∃ f, Refuses around a f) ↔ ¬∃ s, Accepts around a s := by
  constructor
  · rintro hrefuses ⟨s, haccepts⟩
    exact exitCode_ne_two_of_accepts haccepts (exitCode_eq_two_iff.mpr hrefuses)
  · exact (refuses_or_accepts around a).resolve_right

theorem newline_notMem_name (server : Server) (apps : List App) (credentials : Credentials)
    (clock : Nat) :
    ∀ c ∈ (runApps server apps credentials clock).1.cases, '\n' ∉ c.name.toList := by
  intro c hc
  have hname := List.mem_map_of_mem (f := CaseReport.name) hc
  rw [runApps, Suite.map_name_cases, Suite.cases_forApps, List.map_map] at hname
  obtain ⟨app, -, hname⟩ := List.mem_map.mp hname
  rw [← hname]
  cases app with
  | core => exact (by decide : '\n' ∉ "CORE".toList)
  | accounts => exact (by decide : '\n' ∉ "ACCOUNTS".toList)
  | files => exact (by decide : '\n' ∉ "FILES".toList)

theorem shownByLines_reportText {a : Arguments} {r : Report} (ha : a.json = false)
    (hnames : ∀ c ∈ r.cases, '\n' ∉ c.name.toList) : r.ShownByLines (reportText a r) := by
  rw [reportText, if_neg (by simp [ha])]
  exact Report.shownByLines hnames

theorem shownByJson_reportText {a : Arguments} {r : Report} (ha : a.json = true)
    (hdurations : ∀ c ∈ r.cases, c.durationMs < 2 ^ 64) :
    ∃ j, Json.ofChars? Json.roomForLevels (reportText a r).toList = .ok j ∧ r.ShownByJson j := by
  rw [reportText, if_pos ha]
  exact ⟨_, Report.ofChars?_pretty hdurations, r.shownByJson_sorted⟩

/-- A session is refused with 2, ends after a dry run with 0, or shows one report and exits with
its code. -/
theorem ending_of_run (around : Surroundings) (a : Arguments) :
    ((∃ f, Refuses around a f) ↔ ¬∃ s, Accepts around a s) ∧
      ((run around a).exitCode = 2 ↔ ∃ f, Refuses around a f) ∧
      ((∃ f, Refuses around a f) → (run around a).output = "" ∧ (run around a).calls = []) ∧
      ∀ s, Accepts around a s →
        (a.dryRun = true → (run around a).exitCode = 0 ∧ (run around a).calls = []) ∧
          (a.dryRun = false → ∃ transport report world, s.transport = .ok transport ∧
            runApps (serverOf around transport) s.apps s.accounts around.clock =
              (report, world) ∧
            (run around a).output =
              (if a.json then report.toJson.pretty ++ "\n" else report.text) ∧
            (a.json = false → report.ShownByLines (run around a).output) ∧
            (a.json = true → (∀ c ∈ report.cases, c.durationMs < 2 ^ 64) →
              ∃ j, Json.ofChars? Json.roomForLevels (run around a).output.toList = .ok j ∧
                report.ShownByJson j) ∧
            (run around a).calls = world.calls ∧
            (run around a).exitCode = report.exitCode ∧
            (report.exitCode = 0 ↔ ∀ c ∈ report.cases, c.outcome = .passed)) := by
  refine ⟨refuses_iff_not_accepts, exitCode_eq_two_iff, ?_, ?_⟩
  · rintro ⟨f, hrefuses⟩
    exact (exitCode_of_refuses hrefuses).2
  · intro s haccepts
    obtain ⟨told, transport, htransport, hrun⟩ := run_of_accepts haccepts
    rw [hrun]
    constructor
    · intro hdry
      rw [if_pos hdry]
      exact ⟨rfl, rfl⟩
    · intro hreal
      rw [if_neg (by simp [hreal])]
      let ran := runApps (serverOf around transport) s.apps s.accounts around.clock
      have hnames := newline_notMem_name (serverOf around transport) s.apps s.accounts around.clock
      exact ⟨transport, ran.1, ran.2, htransport, rfl, rfl,
        fun htext => shownByLines_reportText htext hnames, shownByJson_reportText, rfl, rfl,
        Report.exitCode_eq_zero_iff _⟩

/-- A session that is accepted, with a program that cannot be started. -/
theorem ending_of_run_refused :
    let text := "[interface]\nkind = \"cli\"\nserver_root = \"/srv\"\n" ++
      "[accounts]\nadmin_username = \"admin\"\nadmin_password = \"secret\"\n"
    let around : Surroundings :=
      { environment := fun _ => none
        file := fun _ => .ok text.toUTF8.toList
        launch := fun _ _ _ => (.refused .notFound, 0)
        exchange := fun _ _ _ => (.unreachable, 0)
        clock := 0 }
    let a : Arguments := { apps := [.core, .accounts] }
    ∃ (s : Settings) (report : Report), Accepts around a s ∧
      report.ShownByLines (run around a).output ∧
      report.cases.map CaseReport.name = ["CORE", "ACCOUNTS"] ∧
      report.cases.map (fun c => c.outcome.status) = ["install_failed", "skipped"] ∧
      (run around a).exitCode = 3 := by
  intro text around a
  let loaded : Settings := ⟨⟨.cli, none, some "/srv", none, none⟩, ⟨"admin", "secret"⟩, App.all⟩
  have hloaded : settingsFor around a = .ok loaded := eq_ok_of_toOption (by decide +kernel)
  have hvalid : (a.override loaded).validate around.environment = .ok () :=
    eq_ok_of_toOption (by decide +kernel)
  have haccepts : Accepts around a (a.override loaded) :=
    ⟨loaded, settingsFor_eq_ok_iff.mp hloaded, rfl,
      Settings.validate_eq_ok_iff_acceptable.mp hvalid⟩
  obtain ⟨-, -, -, hends⟩ := ending_of_run around a
  obtain ⟨transport, report, world, htransport, hrun, -, hlines, -, -, hcode, -⟩ :=
    (hends _ haccepts).2 rfl
  let s := a.override loaded
  let shell : Shell := ⟨s.phpBinary, "/srv", s.timeoutSeconds * 1000⟩
  obtain rfl : .shell shell = transport := Except.ok.inj htransport
  rw [runApps, Suite.forApps_eq] at hrun
  obtain ⟨rfl, -⟩ := Prod.mk.inj hrun
  exact ⟨_, _, haccepts, hlines rfl, by decide +kernel, by decide +kernel,
    hcode.trans (by decide +kernel)⟩

/-- An override can make settings acceptable, or keep them from being so. -/
example :
    let env : Environment := fun _ => none
    let s : Settings := ⟨⟨.cli, none, some "/srv", none, none⟩, ⟨"admin", "secret"⟩, [.files]⟩
    (s.validate env).toOption = none ∧
      ((Arguments.override { apps := [.core] } s).validate env).toOption = some () ∧
      ((Arguments.override { apps := [.core], interface := some .http } s).validate env).toOption =
        none := by
  decide +kernel

end Session

end Shakedown
