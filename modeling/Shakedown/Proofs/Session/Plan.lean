import Shakedown.Proofs.Session.ExitCode
import Shakedown.Proofs.Suite.Apps
import Shakedown.Proofs.Run.Outcome

/-!
# What a dry run shows

A dry run shows the selected apps as they are listed. A run has one case for each of them, in
install order. The two are the same just when the list names each app once and in install order, and
they always name the same apps.
-/

namespace Shakedown

/-! ### Lines of text -/

theorem line_inj {l l' rest rest' : List Char} (hl : '\n' ∉ l) (hl' : '\n' ∉ l')
    (h : l ++ '\n' :: rest = l' ++ '\n' :: rest') : l = l' ∧ rest = rest' := by
  induction l generalizing l' with
  | nil =>
    cases l' with
    | nil => exact ⟨rfl, (List.cons.inj h).2⟩
    | cons c' more' =>
      obtain ⟨rfl, -⟩ := List.cons.inj h
      exact absurd List.mem_cons_self hl'
  | cons c more ih =>
    cases l' with
    | nil =>
      obtain ⟨rfl, -⟩ := List.cons.inj h
      exact absurd List.mem_cons_self hl
    | cons c' more' =>
      obtain ⟨rfl, hmore⟩ := List.cons.inj h
      obtain ⟨rfl, hrest⟩ := ih (fun hm => hl (List.mem_cons_of_mem c hm))
        (fun hm => hl' (List.mem_cons_of_mem c hm)) hmore
      exact ⟨rfl, hrest⟩

namespace Session

theorem toList_unlines (lines : List String) :
    (unlines lines).toList = lines.flatMap fun line => line.toList ++ ['\n'] := by
  rw [unlines, String.toList_join, List.flatMap_map]
  simp only [String.toList_append]
  rfl

/-- Text tells its lines. -/
theorem unlines_injective {lines lines' : List String} (hlines : ∀ l ∈ lines, '\n' ∉ l.toList)
    (hlines' : ∀ l ∈ lines', '\n' ∉ l.toList) (h : unlines lines = unlines lines') :
    lines = lines' := by
  have hchars := congrArg String.toList h
  rw [toList_unlines, toList_unlines] at hchars
  clear h
  induction lines generalizing lines' with
  | nil =>
    cases lines' with
    | nil => rfl
    | cons l' more' => simp at hchars
  | cons l more ih =>
    cases lines' with
    | nil => simp at hchars
    | cons l' more' =>
      rw [List.flatMap_cons, List.flatMap_cons, List.append_assoc, List.append_assoc] at hchars
      obtain ⟨hl, hmore⟩ := line_inj (hlines l List.mem_cons_self) (hlines' l' List.mem_cons_self)
        hchars
      rw [String.toList_inj.mp hl, ih (fun m hm => hlines m (List.mem_cons_of_mem l hm))
        (fun m hm => hlines' m (List.mem_cons_of_mem l' hm)) hmore]

end Session

/-! ### The apps of a run -/

theorem App.selected_eq_iff {apps : List App} :
    selected apps = apps ↔ apps.Pairwise fun a b => a.rank < b.rank := by
  have hselected := pairwise_selected apps
  constructor
  · intro h
    rwa [h] at hselected
  · intro hsorted
    exact eq_of_pairwise hselected hsorted fun _ => mem_selected

namespace Session

theorem map_app_runApps (server : Server) (apps : List App) (credentials : Credentials)
    (clock : Nat) :
    (runApps server apps credentials clock).1.cases.map CaseReport.app = App.selected apps := by
  have hcases : (runApps server apps credentials clock).1.cases.map CaseReport.app =
      (Suite.forApps server apps credentials : Suite Unit).cases.map Case.app :=
    Suite.map_app_cases _ _
  rw [hcases, Suite.cases_forApps, Case.map_app_standard]

/-! ### The plan and the run -/

/-- What a dry run would show if it told of `apps`. -/
def planOf (kind : Kind) (apps : List App) : List String :=
  ("interface: " ++ kind.title) :: apps.map fun app => "would install and test: " ++ app.name

theorem plan_eq (settings : Settings) :
    plan settings = planOf settings.interface.kind settings.apps := rfl

theorem planOf_injective {kind : Kind} {apps apps' : List App}
    (h : planOf kind apps = planOf kind apps') : apps = apps' := by
  refine (List.map_inj_right ?_).mp (List.cons.inj h).2
  intro a b hab
  exact App.name_injective ((String.append_right_inj "would install and test: ").mp hab)

theorem newline_notMem_planOf (kind : Kind) (apps : List App) :
    ∀ l ∈ planOf kind apps, '\n' ∉ l.toList := by
  intro l hl
  rcases List.mem_cons.mp hl with rfl | hmore
  · cases kind <;> decide
  · obtain ⟨app, -, rfl⟩ := List.mem_map.mp hmore
    cases app <;> decide

theorem output_of_dryRun {around : Surroundings} {a : Arguments} {loaded : Settings}
    (hdry : a.dryRun = true) (hloaded : settingsFor around a = .ok loaded)
    (hvalid : (a.override loaded).validate around.environment = .ok ()) :
    (run around a).output =
      unlines (planOf (a.override loaded).interface.kind (a.override loaded).apps) := by
  rw [run, hloaded]
  dsimp only
  rw [hvalid]
  dsimp only
  rw [if_pos hdry, ← plan_eq]
  rfl

theorem exists_realRun {around : Surroundings} {a : Arguments} {loaded : Settings}
    (hdry : a.dryRun = false) (hloaded : settingsFor around a = .ok loaded)
    (hvalid : (a.override loaded).validate around.environment = .ok ()) :
    ∃ told transport, run around a = realRun told around a (a.override loaded) transport := by
  obtain ⟨hinterface, -, -, -, -⟩ := Settings.validate_eq_ok_iff.mp hvalid
  obtain ⟨transport, htransport⟩ := Settings.exists_transport hinterface
  have hreal : ¬a.dryRun = true := by rw [hdry]; exact Bool.false_ne_true
  rw [run, hloaded]
  dsimp only
  rw [hvalid]
  dsimp only
  rw [if_neg hreal, htransport]
  exact ⟨_, transport, rfl⟩

/-- A dry run shows the apps of the run just when the list names each once and in install order. -/
theorem plan_of_run (around : Surroundings) (a : Arguments) (loaded : Settings)
    (hloaded : settingsFor around a = .ok loaded)
    (hvalid : (a.override loaded).validate around.environment = .ok ()) :
    let settings := a.override loaded
    let shown := (run around { a with dryRun := true }).output
    ∃ told transport,
      run around { a with dryRun := false } =
        realRun told around { a with dryRun := false } settings transport ∧
      let report := (runApps (serverOf around transport) settings.apps settings.accounts
        around.clock).1
      let apps := report.cases.map CaseReport.app
      shown = unlines (planOf settings.interface.kind settings.apps) ∧
        (apps.Pairwise fun a b => a.rank < b.rank) ∧
        (∀ app, app ∈ apps ↔ app ∈ settings.apps) ∧
        (shown = unlines (planOf settings.interface.kind apps) ↔
          settings.apps.Pairwise fun a b => a.rank < b.rank) := by
  intro settings shown
  have hshown : shown = unlines (planOf settings.interface.kind settings.apps) :=
    @output_of_dryRun around { a with dryRun := true } loaded rfl hloaded hvalid
  obtain ⟨told, transport, hrun⟩ :=
    @exists_realRun around { a with dryRun := false } loaded rfl hloaded hvalid
  refine ⟨told, transport, hrun, ?_⟩
  intro report apps
  have happs : apps = App.selected settings.apps := map_app_runApps ..
  have hsame : shown = unlines (planOf settings.interface.kind apps) ↔ apps = settings.apps := by
    rw [hshown]
    constructor
    · intro h
      exact (planOf_injective (unlines_injective (newline_notMem_planOf _ _)
        (newline_notMem_planOf _ _) h)).symm
    · intro h
      rw [h]
  rw [hsame, happs]
  exact ⟨hshown, App.pairwise_selected _, fun _ => App.mem_selected, App.selected_eq_iff⟩

theorem plan_of_run_in_order :
    let text := "[interface]\nkind = \"cli\"\nserver_root = \"/srv\"\n" ++
      "[accounts]\nadmin_username = \"admin\"\nadmin_password = \"secret\"\n"
    let around : Surroundings :=
      { environment := fun _ => none
        file := fun _ => .ok text.toUTF8.toList
        launch := fun _ _ _ => (.refused .nulInArgument, 0)
        exchange := fun _ _ _ => (.unreachable, 0)
        clock := 0 }
    let a : Arguments := { apps := [.core, .accounts] }
    let loaded : Settings :=
      ⟨⟨.cli, none, some "/srv", none, none⟩, ⟨"admin", "secret"⟩, App.all⟩
    settingsFor around a = .ok loaded ∧
      (a.override loaded).validate around.environment = .ok () ∧
      ∃ told transport,
        run around { a with dryRun := false } =
          realRun told around { a with dryRun := false } (a.override loaded) transport ∧
        (run around { a with dryRun := true }).output =
          unlines (planOf .cli ((runApps (serverOf around transport) [.core, .accounts]
            ⟨"admin", "secret"⟩ 0).1.cases.map CaseReport.app)) := by
  intro text around a loaded
  have hloaded : settingsFor around a = .ok loaded := eq_ok_of_toOption (by decide +kernel)
  have hvalid : (a.override loaded).validate around.environment = .ok () :=
    eq_ok_of_toOption (by decide +kernel)
  obtain ⟨told, transport, hrun, -, -, -, hshown⟩ := plan_of_run around a loaded hloaded hvalid
  exact ⟨hloaded, hvalid, told, transport, hrun, hshown.mpr (by decide)⟩

/-- Accounts before core is accepted and shown in this order, but core is installed first. -/
theorem plan_of_run_out_of_order :
    let text := "[interface]\nkind = \"cli\"\nserver_root = \"/srv\"\n" ++
      "[accounts]\nadmin_username = \"admin\"\nadmin_password = \"secret\"\n"
    let around : Surroundings :=
      { environment := fun _ => none
        file := fun _ => .ok text.toUTF8.toList
        launch := fun _ _ _ => (.refused .nulInArgument, 0)
        exchange := fun _ _ _ => (.unreachable, 0)
        clock := 0 }
    let a : Arguments := { apps := [.accounts, .core] }
    let loaded : Settings :=
      ⟨⟨.cli, none, some "/srv", none, none⟩, ⟨"admin", "secret"⟩, App.all⟩
    settingsFor around a = .ok loaded ∧
      (a.override loaded).validate around.environment = .ok () ∧
      (run around { a with dryRun := true }).output =
        "interface: Cli\nwould install and test: accounts\nwould install and test: core\n" ∧
      ∃ told transport,
        run around { a with dryRun := false } =
          realRun told around { a with dryRun := false } (a.override loaded) transport ∧
        (runApps (serverOf around transport) [.accounts, .core] ⟨"admin", "secret"⟩
          0).1.cases.map CaseReport.app = [.core, .accounts] := by
  intro text around a loaded
  have hloaded : settingsFor around a = .ok loaded := eq_ok_of_toOption (by decide +kernel)
  have hvalid : (a.override loaded).validate around.environment = .ok () :=
    eq_ok_of_toOption (by decide +kernel)
  have hshown := @output_of_dryRun around { a with dryRun := true } loaded rfl hloaded hvalid
  obtain ⟨told, transport, hrun⟩ :=
    @exists_realRun around { a with dryRun := false } loaded rfl hloaded hvalid
  refine ⟨hloaded, hvalid, hshown.trans (by decide +kernel), told, transport, hrun, ?_⟩
  rw [map_app_runApps]
  decide

end Session

end Shakedown
