import Shakedown.Proofs.Case.Answer
import Shakedown.Proofs.Run.Basic

/-!
# What the hooks of the standard cases do

An install sends one call, and its result is the verdict on the answer. So it is with tests, but
those of `accounts` send no call, and those of `accounts` and `files` look for an administrator
first: they go on as described when the registry holds the one that the install of `accounts`
recorded.
-/

namespace Shakedown

variable {μ : Type}

def Credentials.params (c : Credentials) : Entries String where
  toList := [("password", c.password), ("username", c.username)]
  sorted := List.pairwise_pair.mpr (by decide : "password" < "username")

namespace Call

def install (credentials : Credentials) (a : App) : Call where
  app := a.name
  action := "install"
  params := if a = .accounts then credentials.params else Entries.empty

def toUnknownApp : Call := ⟨"notanapp", "install", Entries.empty⟩

def readSettings : Call := ⟨"files", "getconfig", Entries.empty⟩

theorem app_install_ne (credentials : Credentials) (a : App) :
    (install credentials a).app ≠ "notanapp" := by
  change a.name ≠ "notanapp"
  cases a <;> decide

end Call

theorem Answered.asExpected_iff_of_install {credentials : Credentials} {apps : List App}
    {x : Answered} (hcall : x.call ∈ apps.map (Call.install credentials)) :
    x.AsExpected ↔ x.Succeeded := by
  obtain ⟨a, -, hinstall⟩ := List.mem_map.mp hcall
  apply asExpected_iff_succeeded
  rw [← hinstall]
  exact Call.app_install_ne credentials a

/-- The call that the tests of an app send, if they send one. -/
def App.testCall? : App → Option Call
  | core => some Call.toUnknownApp
  | accounts => none
  | files => some Call.readSettings

/-- An administrator of `accounts` with a certain name is on record. -/
def Registry.HasAdmin (r : Registry) (username : String) : Prop :=
  ∃ admin, r.admin .accounts = .ok admin ∧ admin.username = username

theorem Registry.HasAdmin.markInstalled {r s : Registry} {a : App} {username : String}
    (hadmin : r.HasAdmin username) (hmark : r.markInstalled a = .ok s) : s.HasAdmin username := by
  obtain ⟨admin, hlookup, hname⟩ := hadmin
  exact ⟨admin, (admin_of_markInstalled hmark .accounts).trans hlookup, hname⟩

theorem Registry.severity_of_admin {r : Registry} {a : App} {f : Failure}
    (herror : r.admin a = .error f) : f.severity = .high := by
  unfold admin get at herror
  cases hrecord : r.record? a with
  | none =>
    rw [hrecord] at herror
    cases herror
    rfl
  | some e =>
    rw [hrecord] at herror
    dsimp only at herror
    cases hadmin : e.admin with
    | none =>
      rw [hadmin] at herror
      cases herror
      rfl
    | some admin =>
      rw [hadmin] at herror
      exact nomatch herror

namespace Case

variable (server : Server) (base : Base) (credentials : Credentials) (a : App) (w : World μ)

theorem result_require {call : Call} (hknown : call.app ≠ "notanapp") :
    (Hook.require server call w).1 = (server.answer w.calls call).verdict := by
  change (w.require server call).1.map (fun _ => ()) = _
  rw [World.result_require, Answered.verdict]
  unfold Server.answer
  cases (server w.calls call).result with
  | error f => rfl
  | ok e => exact (if_neg hknown).symm

theorem require_of_success {call : Call} {e : Envelope}
    (hsuccess : (server.answer w.calls call).success? = some e) :
    (w.require server call).1 = .ok e.appdata := by
  obtain ⟨hresult, hok⟩ := Answered.success?_eq_some_iff.mp hsuccess
  change (server w.calls call).result = .ok e at hresult
  rw [World.result_require, hresult]
  exact Envelope.requireOk_of_ok hok

theorem require_of_no_success {call : Call}
    (hnone : (server.answer w.calls call).success? = none) :
    ∃ f, (w.require server call).1 = .error f := by
  rw [World.result_require]
  unfold Server.answer Answered.success? at hnone
  dsimp only at hnone
  cases hresult : (server w.calls call).result with
  | error f => exact ⟨f, rfl⟩
  | ok e =>
    rw [hresult] at hnone
    by_cases hok : e.ok = true
    · simp [hok] at hnone
    · exact ⟨_, if_neg hok⟩

/-! ### Installs -/

theorem install_accounts_eq :
    (accounts server base credentials).install w =
      match (w.require server (Call.install credentials .accounts)) with
      | (.error f, after) => (.error f, after)
      | (.ok appdata, after) =>
        (.ok (), (after.note .debug .accountsCase
          ("Registered admin " ++ (confirmed credentials appdata).debug)).setRegistry base
            ((after.registry base).registerAdmin .accounts (confirmed credentials appdata))) := by
  cases base <;> rfl

theorem install_standard :
    ((standard server base credentials a).install w).1 =
        (server.answer w.calls (Call.install credentials a)).verdict ∧
      ((standard server base credentials a).install w).2.calls =
        w.calls ++ [Call.install credentials a] := by
  have hknown := Call.app_install_ne credentials a
  cases a with
  | core => exact ⟨result_require server w hknown, World.calls_require w server _⟩
  | files => exact ⟨result_require server w hknown, World.calls_require w server _⟩
  | accounts =>
    have hresult := result_require server w hknown
    have hcalls := World.calls_require w server (Call.install credentials .accounts)
    change (w.require server _).1.map (fun _ => ()) = _ at hresult
    change ((accounts server base credentials).install w).1 = _ ∧
      ((accounts server base credentials).install w).2.calls = _
    rw [install_accounts_eq, ← hresult, ← hcalls]
    obtain ⟨result, after⟩ := w.require server (Call.install credentials .accounts)
    cases result with
    | error f => exact ⟨rfl, rfl⟩
    | ok appdata => exact ⟨rfl, by simp⟩

/-- The registry after an install whose call is answered with success: that of `accounts` records
the administrator where the case is built. -/
def afterInstall (e : Envelope) (b : Base) (r : Registry) : Registry :=
  if a = .accounts ∧ base = b then
    r.registerAdmin .accounts (confirmed credentials e.appdata)
  else r

theorem registry_install_accounts_of_none
    (hnone : (server.answer w.calls (Call.install credentials .accounts)).success? = none) :
    ((accounts server base credentials).install w).2.registry = w.registry := by
  have hkept := World.registry_require w server (Call.install credentials .accounts)
  obtain ⟨f, hresult⟩ := require_of_no_success server w hnone
  rw [install_accounts_eq]
  generalize w.require server (Call.install credentials .accounts) = outcome at hkept hresult
  obtain ⟨result, after⟩ := outcome
  obtain rfl : result = .error f := hresult
  exact hkept

theorem registry_install_accounts_of_success {e : Envelope}
    (hsuccess : (server.answer w.calls (Call.install credentials .accounts)).success? = some e)
    (b : Base) :
    ((accounts server base credentials).install w).2.registry b =
      afterInstall base credentials .accounts e b (w.registry b) := by
  have hkept := World.registry_require w server (Call.install credentials .accounts)
  have hresult := require_of_success server w hsuccess
  rw [install_accounts_eq]
  generalize w.require server (Call.install credentials .accounts) = outcome at hkept hresult
  obtain ⟨result, after⟩ := outcome
  obtain rfl : result = .ok e.appdata := hresult
  dsimp only at hkept ⊢
  rw [World.registry_setRegistry, World.registry_note, hkept, afterInstall]
  by_cases hbase : base = b <;> simp [hbase]

theorem afterInstall_of_ne (hne : a ≠ .accounts) (e : Envelope) (b : Base) (r : Registry) :
    afterInstall base credentials a e b r = r :=
  if_neg fun h => hne h.1

theorem registry_install_standard (b : Base) :
    ((standard server base credentials a).install w).2.registry b =
      match (server.answer w.calls (Call.install credentials a)).success? with
      | some e => afterInstall base credentials a e b (w.registry b)
      | none => w.registry b := by
  cases hsuccess : (server.answer w.calls (Call.install credentials a)).success? with
  | none =>
    cases a with
    | core | files => exact congrFun (World.registry_require w server _) b
    | accounts =>
      have hkept := registry_install_accounts_of_none server base credentials w hsuccess
      exact congrFun hkept b
  | some e =>
    cases a with
    | core | files =>
      exact (congrFun (World.registry_require w server _) b).trans
        (afterInstall_of_ne base credentials _ (by decide) e b _).symm
    | accounts => exact registry_install_accounts_of_success server base credentials w hsuccess b

/-- After an install that succeeded the administrator is on record, if it was so before or if the
app is `accounts`. -/
theorem hasAdmin_install
    (hok : ((standard server .own credentials a).install w).1 = .ok ())
    (hadmin : a = .accounts ∨ w.own.HasAdmin credentials.username) :
    ((standard server .own credentials a).install w).2.own.HasAdmin credentials.username := by
  rw [(install_standard server .own credentials a w).1, Answered.verdict_eq_ok_iff,
    Answered.asExpected_iff_succeeded (Call.app_install_ne credentials a),
    ← Answered.isSome_success?_iff] at hok
  obtain ⟨e, hsuccess⟩ := Option.isSome_iff_exists.mp hok
  have hown := registry_install_standard server .own credentials a w .own
  rw [hsuccess] at hown
  change ((standard server .own credentials a).install w).2.own =
    afterInstall .own credentials a e .own w.own at hown
  rw [hown]
  by_cases ha : a = .accounts
  · rw [afterInstall, if_pos ⟨ha, rfl⟩]
    exact ⟨confirmed credentials e.appdata, Registry.admin_registerAdmin .., rfl⟩
  · rw [afterInstall_of_ne .own credentials a ha]
    exact hadmin.resolve_left ha

theorem hasAdmin_settleInstall (c : Case μ) (result : Except Failure Unit) {w : World μ}
    {username : String} (hadmin : w.own.HasAdmin username) :
    (c.settleInstall result w).own.HasAdmin username := by
  unfold settleInstall
  cases result with
  | error f => exact hadmin
  | ok _ =>
    cases hmark : w.own.markInstalled c.app with
    | error f => exact hadmin
    | ok r => exact hadmin.markInstalled hmark

/-! ### Tests -/

/-- What the tests of a case find in their registry: a reason to fail, or the call that they go on
to send, if they send one. -/
def lookup (r : Registry) : App → Except Failure (Option Call)
  | .core => .ok (some Call.toUnknownApp)
  | .accounts =>
    match r.admin .accounts with
    | .error f => .error f
    | .ok admin =>
      if admin.username = credentials.username then .ok none
      else .error (otherAdmin credentials.username admin.username)
  | .files => (r.admin .accounts).map fun _ => some Call.readSettings

section Lookup

variable {credentials : Credentials} {r : Registry}

theorem lookup_accounts_of_admin {admin : Admin} (hadmin : r.admin .accounts = .ok admin) :
    lookup credentials r .accounts =
      if admin.username = credentials.username then .ok none
      else .error (otherAdmin credentials.username admin.username) := by
  rw [lookup, hadmin]

theorem lookup_files_of_admin {admin : Admin} (hadmin : r.admin .accounts = .ok admin) :
    lookup credentials r .files = .ok (some Call.readSettings) := by
  rw [lookup, hadmin]
  rfl

/-- Without an administrator all fail that look for one. -/
theorem lookup_of_error {a : App} (hne : a ≠ .core) {f : Failure}
    (herror : r.admin .accounts = .error f) : lookup credentials r a = .error f := by
  cases a with
  | core => exact absurd rfl hne
  | accounts => rw [lookup, herror]
  | files =>
    rw [lookup, herror]
    rfl

end Lookup

def testResult (before : List Call) : Except Failure (Option Call) → Except Failure Unit
  | .error f => .error f
  | .ok none => .ok ()
  | .ok (some call) => (server.answer before call).verdict

def callOf : Except Failure (Option Call) → Option Call
  | .error _ => none
  | .ok call? => call?

theorem tests_core_eq :
    (core server).tests w =
      ((server.answer w.calls Call.toUnknownApp).verdict,
        (w.send server Call.toUnknownApp).2) := by
  have hsend : w.send server Call.toUnknownApp =
    ((server w.calls Call.toUnknownApp).result, (w.send server Call.toUnknownApp).2) := rfl
  have hcall : ({ app := unknownName, action := "install" } : Call) = Call.toUnknownApp := rfl
  unfold core
  dsimp only
  rw [hcall, hsend, Answered.verdict]
  unfold Server.answer
  cases (server w.calls Call.toUnknownApp).result <;> rfl

theorem tests_accounts_eq :
    (accounts server base credentials).tests w =
      (testResult server w.calls (lookup credentials (w.registry base) .accounts), w) := by
  unfold accounts lookup
  dsimp only
  cases (w.registry base).admin .accounts with
  | error f => rfl
  | ok admin =>
    dsimp only
    by_cases hname : admin.username = credentials.username
    · rw [if_pos hname, if_pos hname]
      rfl
    · rw [if_neg hname, if_neg hname]
      rfl

theorem tests_files_eq {admin : Admin} (hlookup : (w.registry base).admin .accounts = .ok admin) :
    (files server base).tests w =
      Hook.require server Call.readSettings
        (w.note .debug .filesCase ("FILES found accounts admin " ++ admin.username)) := by
  unfold files
  simp only [hlookup]
  rfl

theorem tests_files_of_error {f : Failure} (herror : (w.registry base).admin .accounts = .error f) :
    (files server base).tests w = (.error f, w) := by
  unfold files
  simp only [herror]

/-- A lookup goes on to the call that the tests of the app send, or it fails with high severity. -/
theorem lookup_cases (r : Registry) :
    lookup credentials r a = .ok a.testCall? ∨
      ∃ f, lookup credentials r a = .error f ∧ f.severity = .high := by
  cases a with
  | core => exact Or.inl rfl
  | accounts =>
    cases hadmin : r.admin .accounts with
    | error f =>
      exact Or.inr ⟨f, lookup_of_error (by decide) hadmin, Registry.severity_of_admin hadmin⟩
    | ok admin =>
      rw [lookup_accounts_of_admin hadmin]
      by_cases hname : admin.username = credentials.username
      · exact Or.inl (if_pos hname)
      · exact Or.inr ⟨_, if_neg hname, rfl⟩
  | files =>
    cases hadmin : r.admin .accounts with
    | error f =>
      exact Or.inr ⟨f, lookup_of_error (by decide) hadmin, Registry.severity_of_admin hadmin⟩
    | ok admin => exact Or.inl (lookup_files_of_admin hadmin)

/-- The tests of a case return what follows from their lookup, and all they do is to send a call. -/
theorem tests_of_lookup :
    ((standard server base credentials a).tests w).1 =
        testResult server w.calls (lookup credentials (w.registry base) a) ∧
      ((standard server base credentials a).tests w).2.calls =
        w.calls ++ (callOf (lookup credentials (w.registry base) a)).toList ∧
      ((standard server base credentials a).tests w).2.registry = w.registry := by
  cases a with
  | core =>
    change ((core server).tests w).1 = _ ∧ ((core server).tests w).2.calls = _ ∧
      ((core server).tests w).2.registry = _
    rw [tests_core_eq]
    exact ⟨rfl, rfl, World.registry_send w server _⟩
  | accounts =>
    change ((accounts server base credentials).tests w).1 = _ ∧
      ((accounts server base credentials).tests w).2.calls = _ ∧
      ((accounts server base credentials).tests w).2.registry = _
    rw [tests_accounts_eq]
    refine ⟨rfl, ?_, rfl⟩
    have hsilent : callOf (lookup credentials (w.registry base) .accounts) = none := by
      rcases lookup_cases credentials .accounts (w.registry base) with hok | ⟨f, herror, -⟩
      · rw [hok]
        rfl
      · rw [herror]
        rfl
    rw [hsilent, Option.toList_none, List.append_nil]
  | files =>
    change ((files server base).tests w).1 = _ ∧ ((files server base).tests w).2.calls = _ ∧
      ((files server base).tests w).2.registry = _
    cases hadmin : (w.registry base).admin .accounts with
    | error f =>
      rw [tests_files_of_error server base w hadmin, lookup_of_error (by decide) hadmin]
      exact ⟨rfl, (List.append_nil w.calls).symm, rfl⟩
    | ok admin =>
      rw [tests_files_eq server base w hadmin, lookup_files_of_admin hadmin]
      refine ⟨result_require server _ (by decide), World.calls_require _ server _, ?_⟩
      exact (World.registry_require _ server _).trans (World.registry_note ..)

/-- What the tests of a case return when the administrator is on record. -/
def testVerdict (before : List Call) (a : App) : Except Failure Unit :=
  match a.testCall? with
  | none => .ok ()
  | some call => (server.answer before call).verdict

theorem lookup_of_hasAdmin {r : Registry} (hadmin : a ≠ .core → r.HasAdmin credentials.username) :
    lookup credentials r a = .ok a.testCall? := by
  cases a with
  | core => rfl
  | accounts =>
    obtain ⟨admin, hlookup, hname⟩ := hadmin (by decide)
    exact (lookup_accounts_of_admin hlookup).trans (if_pos hname)
  | files =>
    obtain ⟨admin, hlookup, -⟩ := hadmin (by decide)
    exact lookup_files_of_admin hlookup

/-- Tests for which the administrator is on record send their call, if they have one, and return the
verdict on its answer. -/
theorem tests_standard (hadmin : a ≠ .core → w.own.HasAdmin credentials.username) :
    ((standard server .own credentials a).tests w).1 = testVerdict server w.calls a ∧
      ((standard server .own credentials a).tests w).2.calls =
        w.calls ++ a.testCall?.toList := by
  obtain ⟨hresult, hcalls, -⟩ := tests_of_lookup server .own credentials a w
  rw [World.registry_own, lookup_of_hasAdmin credentials a hadmin] at hresult hcalls
  refine ⟨hresult.trans ?_, hcalls⟩
  unfold testVerdict
  cases a.testCall? <;> rfl

theorem own_tests_standard : ((standard server .own credentials a).tests w).2.own = w.own :=
  congrFun (tests_of_lookup server .own credentials a w).2.2 .own

end Case

end Shakedown
