import Shakedown.Proofs.Settings.Order
import Shakedown.Proofs.Suite.Order
import Shakedown.Session

/-!
# Placeholders that are left over

Substitution leaves the placeholder of a variable that is not set where it is, in any text of the
settings. The rules look for such a placeholder in the password and nowhere else. So the password of
accepted settings has none left; the name of the administrator, the root and the program can be
exchanged for anything that is not blank, and a placeholder is not.
-/

namespace Shakedown

open Placeholder (Piece)

/-- Every placeholder that is left in a text is of a variable that is set. -/
def Resolved (env : Environment) (text : String) : Prop :=
  ∀ d, Placeholder.Scan text.toList d → ∀ name ∈ d.names, env (String.ofList name) ≠ none

/-- The placeholder of a variable, as a text of its own. -/
def placeholderOf (name : List Char) : String :=
  String.ofList (Piece.variable_ name).chars

section PlaceholderOf

variable {env : Environment} {name : List Char}

theorem not_resolved_placeholderOf (hne : name ≠ []) (hbrace : '}' ∉ name)
    (hunset : env (String.ofList name) = none) : ¬Resolved env (placeholderOf name) := by
  intro hresolved
  have hscan := Placeholder.scan_variable hne hbrace
  rw [← @String.toList_ofList (Piece.variable_ name).chars] at hscan
  exact hresolved _ hscan name List.mem_cons_self hunset

theorem trimChars_placeholderOf (name : List Char) :
    Text.trimChars (placeholderOf name).toList ≠ [] := by
  rw [Ne, Text.trimChars_eq_nil_iff, placeholderOf, String.toList_ofList, Piece.chars]
  intro hblank
  have hdollar := List.all_eq_true.mp hblank '$' List.mem_cons_self
  exact absurd hdollar (by decide)

theorem nul_notMem_placeholderOf (hnul : '\x00' ∉ name) : '\x00' ∉ (placeholderOf name).toList := by
  rw [placeholderOf, String.toList_ofList, Piece.chars]
  simp [hnul]

end PlaceholderOf

namespace Settings

/-- The texts that a run uses, next to the URL. -/
def texts (s : Settings) : List String :=
  s.accounts.username :: s.accounts.password ::
    match s.interface.kind with
    | .cli => s.interface.serverRoot.toList ++ [s.phpBinary]
    | .http => []

/-- The settings with another name of the administrator, another root and another program. -/
def replacing (s : Settings) (username root program : String) : Settings :=
  { s with
    interface := { s.interface with serverRoot := some root, phpBinary := some program }
    accounts := { s.accounts with username := username } }

variable {env : Environment} {s : Settings}

/-- In the place of these three texts anything is accepted that is not blank. -/
theorem Acceptable.replacing (hacceptable : Acceptable env s) {username root program : String}
    (husername : Text.trimChars username.toList ≠ []) (hroot : root ≠ "")
    (hnul : '\x00' ∉ root.toList) (hprogram : Text.trimChars program.toList ≠ []) :
    Acceptable env (s.replacing username root program) where
  reachable := by
    have hreachable := hacceptable.reachable
    unfold Reachable Settings.replacing at *
    dsimp only
    cases hkind : s.interface.kind with
    | cli => exact ⟨root, rfl, hroot, hnul, hprogram⟩
    | http =>
      rw [hkind] at hreachable
      exact hreachable
  timeout := hacceptable.timeout
  username := husername
  password := hacceptable.password
  someApp := hacceptable.someApp
  needs := hacceptable.needs

theorem forall_mem_texts_iff (hpassword : Resolved env s.accounts.password) :
    (∀ text ∈ s.texts, Resolved env text) ↔
      Resolved env s.accounts.username ∧
        (s.interface.kind = .cli →
          (∀ root, s.interface.serverRoot = some root → Resolved env root) ∧
            Resolved env s.phpBinary) := by
  unfold texts
  cases s.interface.kind with
  | cli => simp [hpassword, or_imp, forall_and]
  | http => simp [hpassword]

/-- In accepted settings the password is resolved, and nothing is said of the other texts. -/
theorem resolved_of_validate (env : Environment) (s : Settings)
    (hvalid : s.validate env = .ok ()) :
    Resolved env s.accounts.password ∧
      ((∀ text ∈ s.texts, Resolved env text) ↔
        Resolved env s.accounts.username ∧
          (s.interface.kind = .cli →
            (∀ root, s.interface.serverRoot = some root → Resolved env root) ∧
              Resolved env s.phpBinary)) ∧
      (∀ username root program, Text.trimChars username.toList ≠ [] → root ≠ "" →
        '\x00' ∉ root.toList → Text.trimChars program.toList ≠ [] →
          (s.replacing username root program).validate env = .ok ()) ∧
      ∀ name, name ≠ [] → '}' ∉ name → '\x00' ∉ name → env (String.ofList name) = none →
        (s.replacing (placeholderOf name) (placeholderOf name) (placeholderOf name)).validate env =
            .ok () ∧
          ¬Resolved env (placeholderOf name) := by
  have hacceptable := validate_eq_ok_iff_acceptable.mp hvalid
  have haccepts (username root program : String) (husername : Text.trimChars username.toList ≠ [])
      (hroot : root ≠ "") (hnul : '\x00' ∉ root.toList)
      (hprogram : Text.trimChars program.toList ≠ []) :
      (s.replacing username root program).validate env = .ok () :=
    validate_eq_ok_iff_acceptable.mpr (hacceptable.replacing husername hroot hnul hprogram)
  refine ⟨hacceptable.password, forall_mem_texts_iff hacceptable.password, haccepts, ?_⟩
  intro name hne hbrace hnul hunset
  have hvisible := trimChars_placeholderOf name
  have hnonempty : placeholderOf name ≠ "" := by
    intro hempty
    exact hvisible (by rw [hempty]; rfl)
  exact ⟨haccepts _ _ _ hvisible hnonempty (nul_notMem_placeholderOf hnul) hvisible,
    not_resolved_placeholderOf hne hbrace hunset⟩

theorem resolved_of_validate_replaced :
    let env : Environment := .ofList [("A", "x")]
    let s : Settings :=
      ⟨{ kind := .cli, serverRoot := some "/srv" }, ⟨"admin", "secret$\x7bA\x7d"⟩, App.all⟩
    s.validate env = .ok () ∧ Resolved env "secret$\x7bA\x7d" ∧
      (s.replacing "$\x7bB\x7d" "$\x7bB\x7d" "$\x7bB\x7d").validate env = .ok () ∧
      ¬Resolved env "$\x7bB\x7d" := by
  intro env s
  have hvalid : s.validate env = .ok () := eq_ok_of_toOption (by decide +kernel)
  obtain ⟨hpassword, -, -, hleft⟩ := resolved_of_validate env s hvalid
  exact ⟨hvalid, hpassword,
    hleft ['B'] (List.cons_ne_nil _ _) (by decide) (by decide) (by decide +kernel)⟩

/-- Settings are accepted whose name, root and program are placeholders of variables that are not
set. -/
theorem resolved_of_validate_leftover :
    let text := "[interface]\nkind = \"cli\"\nserver_root = \"$\x7bROOT\x7d\"\n" ++
      "php_binary = \"$\x7bPHP\x7d\"\n" ++
      "[accounts]\nadmin_username = \"$\x7bUSER\x7d\"\nadmin_password = \"secret\"\n"
    let env : Environment := .ofList []
    let s : Settings :=
      ⟨{ kind := .cli, phpBinary := some "$\x7bPHP\x7d", serverRoot := some "$\x7bROOT\x7d" },
        ⟨"$\x7bUSER\x7d", "secret"⟩, App.all⟩
    let server : Server := fun _ _ => { result := .ok (.success .null) }
    ofText env text = .ok s ∧ s.validate env = .ok () ∧
      ¬Resolved env s.accounts.username ∧
      ¬Resolved env "$\x7bROOT\x7d" ∧ ¬Resolved env s.phpBinary ∧
      s.transport = .ok (.shell ⟨"$\x7bPHP\x7d", "$\x7bROOT\x7d", 30000⟩) ∧
      Case.accountsCall ⟨"$\x7bUSER\x7d", "secret"⟩ ∈
        (Session.runApps server s.apps s.accounts 0).2.calls := by
  intro text env s server
  have hleft (name : List Char) (hne : name ≠ []) (hbrace : '}' ∉ name)
      (hunset : env (String.ofList name) = none) : ¬Resolved env (placeholderOf name) :=
    not_resolved_placeholderOf hne hbrace hunset
  refine ⟨eq_ok_of_toOption (by decide +kernel), eq_ok_of_toOption (by decide +kernel), ?_, ?_, ?_,
    eq_ok_of_toOption (by decide +kernel), ?_⟩
  · exact hleft "USER".toList (by decide) (by decide) (by decide +kernel)
  · exact hleft "ROOT".toList (by decide) (by decide) (by decide +kernel)
  · exact hleft "PHP".toList (by decide) (by decide) (by decide +kernel)
  · rw [Session.runApps, Suite.forApps_eq]
    decide +kernel

end Settings

end Shakedown
