import Shakedown.Arguments
import Shakedown.Proofs.Result
import Shakedown.Proofs.Settings.Order

/-!
# Accepted settings and the way to the server

What is checked and what is made of the settings are told apart by their kind, each on its own. They
agree: no way to the server is made exactly if the first of the rules is broken, so accepted settings
always have one, and what is checked of the settings holds of it.
-/

namespace Shakedown

/-- The setting that tells where the server is. -/
def Kind.addressField : Kind → String
  | cli => "interface.server_root"
  | http => "interface.url"

/-- The timeout of the settings, in milliseconds. It lies between a second and an hour. -/
def Settings.Times (s : Settings) (timeoutMs : Nat) : Prop :=
  timeoutMs = s.timeoutSeconds * 1000 ∧ 1 ≤ s.timeoutSeconds ∧ s.timeoutSeconds ≤ 3600

/-- The program and the script are those of the settings, and both are there. -/
structure Shell.Fits (s : Settings) (shell : Shell) : Prop where
  root : s.interface.serverRoot = some shell.root
  rootFilled : shell.root ≠ ""
  program : shell.program = s.phpBinary
  programVisible : Text.trimChars shell.program.toList ≠ []
  timeout : s.Times shell.timeoutMs

/-- The URL is that of the settings, and one for requests. -/
structure Endpoint.Fits (s : Settings) (endpoint : Endpoint) : Prop where
  url : s.interface.url = some endpoint.url
  scheme : ∃ parsed, Url.ofText? endpoint.url = .ok parsed ∧
    (parsed.scheme = "http".toList ∨ parsed.scheme = "https".toList)
  timeout : s.Times endpoint.timeoutMs

/-- A way to the server of some kind that accepted settings lead to. -/
inductive Transport.Fits (s : Settings) : Kind → Transport → Prop
  | shell {shell : Shell} : shell.Fits s → Fits s .cli (.shell shell)
  | endpoint {endpoint : Endpoint} : endpoint.Fits s → Fits s .http (.endpoint endpoint)

namespace Settings

variable {env : Environment} {s : Settings} {f : Failure}

/-! ### No way to the server -/

theorem required_eq_error_iff {α : Type} {field : String} {value : Option α} :
    required field value = .error f ↔ value = none ∧ f = .missingSetting field := by
  cases value with
  | none => simp [required, eq_comm]
  | some a => simp [required]

theorem transport_eq_error_iff :
    s.transport = .error f ↔
      s.address? = none ∧ f = .missingSetting s.interface.kind.addressField := by
  rw [transport, address?]
  cases s.interface.kind <;> exact map_eq_error_iff.trans required_eq_error_iff

/-- Of the rules, the first is the one on which the way to the server depends. -/
theorem breaks_given_iff : Breaks env s .given f ↔ s.transport = .error f := by
  rw [transport_eq_error_iff]
  constructor
  · intro hbreaks
    refine ⟨hbreaks.address?_eq_none, ?_⟩
    cases hbreaks with
    | noRoot hkind => rw [hkind, Kind.addressField]
    | noUrl hkind => rw [hkind, Kind.addressField]
  · rintro ⟨hnone, rfl⟩
    unfold address? at hnone
    cases hkind : s.interface.kind with
    | cli =>
      rw [hkind] at hnone
      exact Breaks.noRoot hkind hnone
    | http =>
      rw [hkind] at hnone
      exact Breaks.noUrl hkind hnone

theorem validate_of_transport_error (h : s.transport = .error f) : s.validate env = .error f :=
  validate_eq_error_iff.mpr ⟨.given, FirstBroken.given (breaks_given_iff.mpr h)⟩

/-- Nothing but the way to the server is reported as missing. -/
theorem transport_of_validate_error {field : String}
    (h : s.validate env = .error (.missingSetting field)) :
    s.transport = .error (.missingSetting field) := by
  obtain ⟨r, hbreaks, -⟩ := validate_eq_error_iff.mp h
  have hgiven : r = .given := by
    cases hbreaks with
    | noRoot | noUrl => rfl
  rw [hgiven] at hbreaks
  exact breaks_given_iff.mp hbreaks

/-! ### The way of accepted settings -/

theorem Acceptable.times (h : Acceptable env s) : s.Times (s.timeoutSeconds * 1000) := by
  refine ⟨rfl, ?_⟩
  cases hn : s.interface.timeoutSeconds with
  | none =>
    have hdefault : s.timeoutSeconds = 30 := by rw [timeoutSeconds, hn, Option.getD_none]
    omega
  | some n =>
    have hset : s.timeoutSeconds = n := by rw [timeoutSeconds, hn, Option.getD_some]
    have hrange := h.timeout n hn
    omega

theorem Acceptable.transport (h : Acceptable env s) :
    ∃ t, s.transport = .ok t ∧ t.Fits s s.interface.kind := by
  have hreachable := h.reachable
  unfold Reachable at hreachable
  unfold Settings.transport
  cases hkind : s.interface.kind with
  | cli =>
    rw [hkind] at hreachable
    obtain ⟨root, hroot, hfilled, -, hvisible⟩ := hreachable
    rw [hroot]
    exact ⟨_, rfl, .shell ⟨hroot, hfilled, rfl, hvisible, h.times⟩⟩
  | http =>
    rw [hkind] at hreachable
    obtain ⟨url, parsed, hurl, -, hparsed, hscheme⟩ := hreachable
    rw [hurl]
    exact ⟨_, rfl, .endpoint ⟨hurl, ⟨parsed, hparsed, hscheme⟩, h.times⟩⟩

/-- What is overridden tells no way to the server but which one is selected. -/
theorem fits_of_override {a : Arguments} {kind : Kind} {t : Transport}
    (h : t.Fits (a.override s) kind) : t.Fits s kind := by
  cases h with
  | shell hshell =>
    exact .shell ⟨hshell.root, hshell.rootFilled, hshell.program, hshell.programVisible,
      hshell.timeout⟩
  | endpoint hendpoint => exact .endpoint ⟨hendpoint.url, hendpoint.scheme, hendpoint.timeout⟩

/-- There is no transport just when its setting is missing, and accepted settings lead to theirs. -/
theorem transport_agrees (env : Environment) (s : Settings) :
    (∀ f, s.transport = .error f ↔
        s.address? = none ∧ f = .missingSetting s.interface.kind.addressField) ∧
      (∀ f, s.transport = .error f → s.validate env = .error f) ∧
      (∀ field, s.validate env = .error (.missingSetting field) →
        s.transport = .error (.missingSetting field)) ∧
      (s.validate env = .ok () → ∃ t, s.transport = .ok t ∧ t.Fits s s.interface.kind) ∧
      ∀ a : Arguments, (a.override s).validate env = .ok () →
        ∃ t, (a.override s).transport = .ok t ∧
          t.Fits s (a.interface.getD s.interface.kind) := by
  refine ⟨fun f => transport_eq_error_iff, fun f => validate_of_transport_error,
    fun field => transport_of_validate_error, ?_, ?_⟩
  · exact fun hvalid => (validate_eq_ok_iff_acceptable.mp hvalid).transport
  · intro a hvalid
    obtain ⟨t, ht, hfits⟩ := (validate_eq_ok_iff_acceptable.mp hvalid).transport
    exact ⟨t, ht, fits_of_override hfits⟩

/-- Settings with a URL and no root are refused for the one kind, and lead to the server for the
other. -/
theorem transport_agrees_overridden :
    let env : Environment := fun _ => none
    let s : Settings := ⟨{ kind := .cli, url := some "http://localhost/", timeoutSeconds := some 5 },
      ⟨"admin", "secret"⟩, [.core]⟩
    let a : Arguments := { interface := some .http }
    s.transport = .error (.missingSetting "interface.server_root") ∧
      s.validate env = .error (.missingSetting "interface.server_root") ∧
      (a.override s).validate env = .ok () ∧
      ∃ t, (a.override s).transport = .ok t ∧ t.Fits s .http := by
  intro env s a
  obtain ⟨hfails, hsame, -, -, hover⟩ := transport_agrees env s
  have herror := (hfails (.missingSetting "interface.server_root")).mpr ⟨rfl, rfl⟩
  have hvalid : (a.override s).validate env = .ok () := toOption_eq_some_iff.mp (by decide)
  exact ⟨herror, hsame _ herror, hvalid, hover a hvalid⟩

end Settings

end Shakedown
