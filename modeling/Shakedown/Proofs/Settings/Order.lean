import Shakedown.Proofs.Placeholder.Decomposition
import Shakedown.Proofs.Settings.Acceptance
import Shakedown.Proofs.Text.Blank

/-!
# Which broken rule is reported

Settings have to keep nine rules, which are looked at in a fixed order: four on the way to the
server, one on the timeout, two on the administrator and two on the apps. Settings that keep them
all are accepted. Of others the failure tells the first rule that they break, and for a rule about
several things the first thing that breaks it.
-/

namespace Shakedown

namespace Settings

/-- The rules, in the order in which they are looked at. -/
inductive Rule where
  /-- The root or the URL of the server is there. -/
  | given
  | filled
  /-- The root holds no NUL, or the URL can be read. -/
  | wellFormed
  /-- The program is not blank, or the scheme is one for requests. -/
  | supported
  | timeout
  | username
  | password
  | someApp
  | needs
  deriving DecidableEq

def Rule.place : Rule → Nat
  | given => 0
  | filled => 1
  | wellFormed => 2
  | supported => 3
  | timeout => 4
  | username => 5
  | password => 6
  | someApp => 7
  | needs => 8

/-- Settings break a rule, and this is how the failure tells it. -/
inductive Breaks (env : Environment) (s : Settings) : Rule → Failure → Prop
  | noRoot : s.interface.kind = .cli → s.interface.serverRoot = none →
      Breaks env s .given (.missingSetting "interface.server_root")
  | emptyRoot : s.interface.kind = .cli → s.interface.serverRoot = some "" →
      Breaks env s .filled (.invalidSetting "interface.server_root" "" .emptyPath)
  | nulInRoot {root : String} : s.interface.kind = .cli → s.interface.serverRoot = some root →
      '\x00' ∈ root.toList →
      Breaks env s .wellFormed (.invalidSetting "interface.server_root" root .nulInPath)
  | blankProgram : s.interface.kind = .cli → Text.trimChars s.phpBinary.toList = [] →
      Breaks env s .supported (.invalidSetting "interface.php_binary" s.phpBinary .blank)
  | noUrl : s.interface.kind = .http → s.interface.url = none →
      Breaks env s .given (.missingSetting "interface.url")
  | emptyUrl : s.interface.kind = .http → s.interface.url = some "" →
      Breaks env s .filled (.invalidSetting "interface.url" "" .emptyUrl)
  | malformedUrl {url : String} {fault : Url.Fault} : s.interface.kind = .http →
      s.interface.url = some url → Url.ofText? url = .error fault →
      Breaks env s .wellFormed (.invalidSetting "interface.url" url (.malformedUrl fault))
  | otherScheme {url : String} {parsed : Url} : s.interface.kind = .http →
      s.interface.url = some url → Url.ofText? url = .ok parsed →
      parsed.scheme ≠ "http".toList → parsed.scheme ≠ "https".toList →
      Breaks env s .supported (.invalidSetting "interface.url" url
        (.unsupportedScheme (String.ofList parsed.scheme)))
  | timeout {n : Nat} : s.interface.timeoutSeconds = some n → ¬(1 ≤ n ∧ n ≤ 3600) →
      Breaks env s .timeout (.invalidSetting "interface.timeout_seconds"
        (String.ofList (Decimal.integer n)) (.outside 1 3600))
  | username : Text.trimChars s.accounts.username.toList = [] →
      Breaks env s .username
        (.invalidSetting "accounts.admin_username" s.accounts.username .blank)
  | password {d : Placeholder.Decomposition} {before after : List (List Char)} {name : List Char} :
      Placeholder.Scan s.accounts.password.toList d → d.names = before ++ name :: after →
      (∀ other ∈ before, env (String.ofList other) ≠ none) → env (String.ofList name) = none →
      Breaks env s .password (.invalidSetting "accounts.admin_password"
        (String.ofList ('$' :: '{' :: (name ++ ['}']))) .unsetVariable)
  | noApps : s.apps = [] → Breaks env s .someApp (.invalidSetting "run.apps" "[]" .noApps)
  | lacks {before after : List App} {app need : App} {met more : List App} :
      s.apps = before ++ app :: after → (∀ a ∈ before, ∀ b ∈ a.needs, b ∈ s.apps) →
      app.needs = met ++ need :: more → (∀ b ∈ met, b ∈ s.apps) → need ∉ s.apps →
      Breaks env s .needs (.invalidSetting "run.apps" app.name (.lacks app need))

/-- The server can be reached in the selected way. -/
def Reachable (s : Settings) : Prop :=
  match s.interface.kind with
  | .cli => ∃ root, s.interface.serverRoot = some root ∧ root ≠ "" ∧ '\x00' ∉ root.toList ∧
      Text.trimChars s.phpBinary.toList ≠ []
  | .http => ∃ url parsed, s.interface.url = some url ∧ url ≠ "" ∧ Url.ofText? url = .ok parsed ∧
      (parsed.scheme = "http".toList ∨ parsed.scheme = "https".toList)

/-- Settings that keep every rule. -/
structure Acceptable (env : Environment) (s : Settings) : Prop where
  reachable : s.Reachable
  timeout : ∀ n, s.interface.timeoutSeconds = some n → 1 ≤ n ∧ n ≤ 3600
  username : Text.trimChars s.accounts.username.toList ≠ []
  password : ∀ d, Placeholder.Scan s.accounts.password.toList d →
    ∀ name ∈ d.names, env (String.ofList name) ≠ none
  someApp : s.apps ≠ []
  needs : ∀ a ∈ s.apps, ∀ b ∈ a.needs, b ∈ s.apps

variable {env : Environment} {s : Settings} {f : Failure}

/-! ### Each rule by itself -/

theorem checkNotBlank_eq_ok_iff {field value : String} :
    checkNotBlank field value = .ok () ↔ Text.trimChars value.toList ≠ [] := by
  rw [Ne, Text.trimChars_eq_nil_iff, checkNotBlank]
  split
  · rename_i hblank
    exact ⟨nofun, fun h => absurd hblank h⟩
  · rename_i hother
    exact ⟨fun _ => hother, fun _ => rfl⟩

theorem checkNotBlank_eq_error_iff {field value : String} :
    checkNotBlank field value = .error f ↔
      Text.trimChars value.toList = [] ∧ f = .invalidSetting field value .blank := by
  rw [Text.trimChars_eq_nil_iff, checkNotBlank]
  split
  · rename_i hblank
    simp only [objectTo, Except.error.injEq, hblank, true_and]
    exact eq_comm
  · rename_i hother
    exact ⟨nofun, fun h => absurd h.1 hother⟩

theorem validateTimeout_eq_error_iff :
    s.validateTimeout = .error f ↔ Breaks env s .timeout f := by
  rw [validateTimeout]
  constructor
  · intro herror
    cases htimeout : s.interface.timeoutSeconds with
    | none =>
      rw [htimeout] at herror
      exact nomatch herror
    | some n =>
      rw [htimeout] at herror
      simp only [checkRange, objectTo] at herror
      split at herror
      · exact nomatch herror
      · rename_i houtside
        obtain rfl := Except.error.inj herror
        exact Breaks.timeout htimeout (by omega)
  · intro hbreaks
    cases hbreaks with
    | @timeout n htimeout houtside =>
      rw [htimeout]
      simp only [checkRange]
      rw [if_neg (by omega)]
      rfl

theorem validatePassword_eq_error_iff :
    s.validatePassword env = .error f ↔ Breaks env s .password f := by
  obtain ⟨d, hscan⟩ := Placeholder.exists_scan s.accounts.password.toList
  rw [validatePassword, Placeholder.firstUnset?, hscan.names_eq]
  constructor
  · intro herror
    split at herror
    · rename_i name hfirst
      obtain ⟨hunset, before, after, hnames, hset⟩ := List.find?_eq_some_iff_append.mp hfirst
      obtain rfl := Except.error.inj herror
      refine Breaks.password hscan hnames ?_ (Option.isNone_iff_eq_none.mp hunset)
      intro other hother hnone
      have hsome := hset other hother
      rw [hnone] at hsome
      exact nomatch hsome
    · exact nomatch herror
  · intro hbreaks
    cases hbreaks with
    | password hscan' hnames hset hunset =>
      obtain rfl := hscan.unique hscan'
      have hfirst := List.find?_eq_some_iff_append (p := fun name =>
        (env (String.ofList name)).isNone) |>.mpr ⟨Option.isNone_iff_eq_none.mpr hunset, _, _, hnames,
          fun other hother => by simpa [Option.isSome_iff_ne_none] using hset other hother⟩
      rw [hfirst]
      rfl

theorem lacking?_eq_some_iff {apps : List App} {app : App} {lack : App × App} :
    lacking? apps app = some lack ↔ ∃ need met more, lack = (app, need) ∧
      app.needs = met ++ need :: more ∧ (∀ b ∈ met, b ∈ apps) ∧ need ∉ apps := by
  rw [lacking?, Option.map_eq_some_iff]
  constructor
  · rintro ⟨need, hfirst, rfl⟩
    obtain ⟨hlacks, met, more, hneeds, hmet⟩ := List.find?_eq_some_iff_append.mp hfirst
    exact ⟨need, met, more, rfl, hneeds, by simpa using hmet, by simpa using hlacks⟩
  · rintro ⟨need, met, more, rfl, hneeds, hmet, hlacks⟩
    refine ⟨need, List.find?_eq_some_iff_append.mpr ⟨by simpa using hlacks, met, more, hneeds, ?_⟩, rfl⟩
    simpa using hmet

theorem validateApps_eq_error_iff :
    s.validateApps = .error f ↔ Breaks env s .someApp f ∨ Breaks env s .needs f := by
  rw [validateApps]
  by_cases hempty : s.apps = []
  · rw [if_pos (List.isEmpty_iff.mpr hempty)]
    constructor
    · intro herror
      obtain rfl := Except.error.inj herror
      exact Or.inl (Breaks.noApps hempty)
    · rintro (hbreaks | hbreaks)
      · cases hbreaks
        rfl
      · cases hbreaks with
        | lacks happs =>
          rw [happs] at hempty
          exact absurd hempty (by simp)
  · rw [if_neg fun h => hempty (List.isEmpty_iff.mp h)]
    constructor
    · intro herror
      split at herror
      · rename_i app need hlack
        obtain ⟨before, app', after, happs, hhere, hbefore⟩ := List.findSome?_eq_some_iff.mp hlack
        obtain ⟨need', met, more, hpair, hneeds, hmet, hlacks⟩ := lacking?_eq_some_iff.mp hhere
        obtain ⟨rfl, rfl⟩ := Prod.mk.inj hpair
        obtain rfl := Except.error.inj herror
        exact Or.inr (Breaks.lacks happs
          (fun a ha => lacking?_eq_none_iff.mp (hbefore a ha)) hneeds hmet hlacks)
      · cases herror
    · rintro (hbreaks | hbreaks)
      · cases hbreaks with
        | noApps hnone => exact absurd hnone hempty
      · cases hbreaks with
        | @lacks before after app need met more happs hbefore hneeds hmet hlacks =>
          have hfirst : s.apps.findSome? (lacking? s.apps) = some (app, need) :=
            List.findSome?_eq_some_iff.mpr ⟨before, app, after, happs,
              lacking?_eq_some_iff.mpr ⟨need, met, more, rfl, hneeds, hmet, hlacks⟩,
              fun a ha => lacking?_eq_none_iff.mpr (hbefore a ha)⟩
          rw [hfirst]
          rfl

/-! ### The way to the server -/

/-- Settings break a rule and no rule before it. -/
def FirstBroken (env : Environment) (s : Settings) (r : Rule) (f : Failure) : Prop :=
  Breaks env s r f ∧ ∀ r' g, r'.place < r.place → ¬Breaks env s r' g

/-- The root or the URL, whichever the selected way needs. -/
def address? (s : Settings) : Option String :=
  match s.interface.kind with
  | .cli => s.interface.serverRoot
  | .http => s.interface.url

theorem Breaks.address?_eq_none (hbreaks : Breaks env s .given f) : s.address? = none := by
  cases hbreaks with
  | noRoot hkind hroot => simpa only [address?, hkind] using hroot
  | noUrl hkind hurl => simpa only [address?, hkind] using hurl

theorem Breaks.address?_eq_empty (hbreaks : Breaks env s .filled f) : s.address? = some "" := by
  cases hbreaks with
  | emptyRoot hkind hroot => simpa only [address?, hkind] using hroot
  | emptyUrl hkind hurl => simpa only [address?, hkind] using hurl

theorem FirstBroken.given (hbreaks : Breaks env s .given f) : FirstBroken env s .given f :=
  ⟨hbreaks, fun _ _ hlt => absurd hlt (Nat.not_lt_zero _)⟩

theorem FirstBroken.filled (hbreaks : Breaks env s .filled f) : FirstBroken env s .filled f := by
  refine ⟨hbreaks, fun r g hlt hearlier => ?_⟩
  cases r <;> simp only [Rule.place] at hlt
  · have hnone := hearlier.address?_eq_none
    rw [hbreaks.address?_eq_empty] at hnone
    exact nomatch hnone
  all_goals omega

theorem not_breaks_of_address? {value : String} (hvalue : s.address? = some value)
    (hne : value ≠ "") {r : Rule} {g : Failure} (hlt : r.place < Rule.wellFormed.place) :
    ¬Breaks env s r g := by
  intro hbreaks
  cases r <;> simp only [Rule.place] at hlt
  · rw [hbreaks.address?_eq_none] at hvalue
    exact nomatch hvalue
  · rw [hbreaks.address?_eq_empty] at hvalue
    exact hne (Option.some.inj hvalue).symm
  all_goals omega

theorem FirstBroken.wellFormed {value : String} (hvalue : s.address? = some value)
    (hne : value ≠ "") (hbreaks : Breaks env s .wellFormed f) :
    FirstBroken env s .wellFormed f :=
  ⟨hbreaks, fun _ _ hlt => not_breaks_of_address? hvalue hne hlt⟩

theorem FirstBroken.supported {value : String} (hvalue : s.address? = some value)
    (hne : value ≠ "") (hwell : ∀ g, ¬Breaks env s .wellFormed g)
    (hbreaks : Breaks env s .supported f) : FirstBroken env s .supported f := by
  refine ⟨hbreaks, fun r g hlt hearlier => ?_⟩
  cases r with
  | wellFormed => exact hwell g hearlier
  | given => exact not_breaks_of_address? hvalue hne (by decide) hearlier
  | filled => exact not_breaks_of_address? hvalue hne (by decide) hearlier
  | supported | timeout | username | password | someApp | needs =>
    exact absurd hlt (by decide)

theorem checkPath_eq (field : String) {value : String} (hne : value ≠ "") :
    checkPath field value =
      if '\x00' ∈ value.toList then .error (.invalidSetting field value .nulInPath) else .ok () := by
  rw [checkPath, if_neg hne]
  simp only [List.contains_iff_mem]
  rfl

theorem checkUrl_eq (field : String) {value : String} (hne : value ≠ "") :
    checkUrl field value =
      match Url.ofText? value with
      | .error fault => .error (.invalidSetting field value (.malformedUrl fault))
      | .ok url =>
        if url.scheme = "http".toList ∨ url.scheme = "https".toList then .ok ()
        else .error (.invalidSetting field value
          (.unsupportedScheme (String.ofList url.scheme))) := by
  rw [checkUrl, if_neg hne]
  rfl

/-- The check of the way to the server follows its four rules. -/
theorem validateInterface_cases (env : Environment) (s : Settings) :
    s.validateInterface = .ok () ∧ s.Reachable ∨
      ∃ r f, s.validateInterface = .error f ∧ r.place < Rule.timeout.place ∧
        FirstBroken env s r f := by
  unfold validateInterface Reachable
  cases hkind : s.interface.kind with
  | cli =>
    cases hroot : s.interface.serverRoot with
    | none => exact Or.inr ⟨.given, _, rfl, by decide, .given (.noRoot hkind hroot)⟩
    | some root =>
      have haddress : s.address? = some root := by simpa only [address?, hkind] using hroot
      by_cases hempty : root = ""
      · subst hempty
        exact Or.inr ⟨.filled, _, rfl, by decide, .filled (.emptyRoot hkind hroot)⟩
      have hpath := checkPath_eq "interface.server_root" hempty
      change (checkPath _ root >>= fun _ => checkNotBlank _ s.phpBinary) = _ ∧ _ ∨
        ∃ r f, (checkPath _ root >>= fun _ => checkNotBlank _ s.phpBinary) = _ ∧ _
      rw [hpath]
      by_cases hnul : '\x00' ∈ root.toList
      · rw [if_pos hnul]
        exact Or.inr ⟨.wellFormed, _, rfl, by decide,
          .wellFormed haddress hempty (.nulInRoot hkind hroot hnul)⟩
      rw [if_neg hnul]
      by_cases hblank : Text.trimChars s.phpBinary.toList = []
      · have hwell : ∀ g, ¬Breaks env s .wellFormed g := by
          intro g hbreaks
          cases hbreaks with
          | nulInRoot _ hroot' hnul' =>
            obtain rfl := Option.some.inj (hroot.symm.trans hroot')
            exact hnul hnul'
          | malformedUrl hkind' => exact nomatch hkind.symm.trans hkind'
        exact Or.inr ⟨.supported, _, checkNotBlank_eq_error_iff.mpr ⟨hblank, rfl⟩, by decide,
          .supported haddress hempty hwell (.blankProgram hkind hblank)⟩
      · exact Or.inl ⟨checkNotBlank_eq_ok_iff.mpr hblank, root, rfl, hempty, hnul, hblank⟩
  | http =>
    cases hurl : s.interface.url with
    | none => exact Or.inr ⟨.given, _, rfl, by decide, .given (.noUrl hkind hurl)⟩
    | some url =>
      have haddress : s.address? = some url := by simpa only [address?, hkind] using hurl
      by_cases hempty : url = ""
      · subst hempty
        exact Or.inr ⟨.filled, _, rfl, by decide, .filled (.emptyUrl hkind hurl)⟩
      have hcheck := checkUrl_eq "interface.url" hempty
      change checkUrl _ url = _ ∧ _ ∨ ∃ r f, checkUrl _ url = _ ∧ _
      rw [hcheck]
      cases hparsed : Url.ofText? url with
      | error fault =>
        exact Or.inr ⟨.wellFormed, _, rfl, by decide,
          .wellFormed haddress hempty (.malformedUrl hkind hurl hparsed)⟩
      | ok parsed =>
        by_cases hscheme : parsed.scheme = "http".toList ∨ parsed.scheme = "https".toList
        · exact Or.inl ⟨if_pos hscheme, url, parsed, rfl, hempty, hparsed, hscheme⟩
        · have hwell : ∀ g, ¬Breaks env s .wellFormed g := by
            intro g hbreaks
            cases hbreaks with
            | nulInRoot hkind' => exact nomatch hkind.symm.trans hkind'
            | malformedUrl _ hurl' hparsed' =>
              obtain rfl := Option.some.inj (hurl.symm.trans hurl')
              exact nomatch hparsed.symm.trans hparsed'
          obtain ⟨hhttp, hhttps⟩ := not_or.mp hscheme
          exact Or.inr ⟨.supported, _, if_neg hscheme, by decide,
            .supported haddress hempty hwell (.otherScheme hkind hurl hparsed hhttp hhttps)⟩

theorem Reachable.not_breaks (hreachable : s.Reachable) {r : Rule} {g : Failure}
    (hlt : r.place < Rule.timeout.place) : ¬Breaks env s r g := by
  intro hbreaks
  unfold Reachable at hreachable
  cases hbreaks with
  | noRoot hkind hroot =>
    rw [hkind] at hreachable
    obtain ⟨root, hroot', -⟩ := hreachable
    exact nomatch hroot.symm.trans hroot'
  | emptyRoot hkind hroot =>
    rw [hkind] at hreachable
    obtain ⟨root, hroot', hempty, -⟩ := hreachable
    exact hempty (Option.some.inj (hroot.symm.trans hroot')).symm
  | nulInRoot hkind hroot hnul =>
    rw [hkind] at hreachable
    obtain ⟨root, hroot', -, hnul', -⟩ := hreachable
    obtain rfl := Option.some.inj (hroot.symm.trans hroot')
    exact hnul' hnul
  | blankProgram hkind hblank =>
    rw [hkind] at hreachable
    obtain ⟨root, -, -, -, hblank'⟩ := hreachable
    exact hblank' hblank
  | noUrl hkind hurl =>
    rw [hkind] at hreachable
    obtain ⟨url, parsed, hurl', -⟩ := hreachable
    exact nomatch hurl.symm.trans hurl'
  | emptyUrl hkind hurl =>
    rw [hkind] at hreachable
    obtain ⟨url, parsed, hurl', hempty, -⟩ := hreachable
    exact hempty (Option.some.inj (hurl.symm.trans hurl')).symm
  | malformedUrl hkind hurl hfault =>
    rw [hkind] at hreachable
    obtain ⟨url, parsed, hurl', -, hparsed, -⟩ := hreachable
    obtain rfl := Option.some.inj (hurl.symm.trans hurl')
    exact nomatch hfault.symm.trans hparsed
  | otherScheme hkind hurl hother hhttp hhttps =>
    rw [hkind] at hreachable
    obtain ⟨url, parsed, hurl', -, hparsed, hscheme⟩ := hreachable
    obtain rfl := Option.some.inj (hurl.symm.trans hurl')
    obtain rfl := Except.ok.inj (hother.symm.trans hparsed)
    exact hscheme.elim hhttp hhttps
  | timeout | username | password | noApps | lacks => exact absurd hlt (by decide)

theorem validateInterface_eq_ok_iff : s.validateInterface = .ok () ↔ s.Reachable := by
  rcases validateInterface_cases (fun _ => none) s with ⟨hok, hreachable⟩ | ⟨r, f, herror, hlt, hfirst⟩
  · exact ⟨fun _ => hreachable, fun _ => hok⟩
  · rw [herror]
    exact ⟨nofun, fun hreachable => absurd hfirst.1 (hreachable.not_breaks hlt)⟩

/-! ### All rules together -/

/-- The check that looks at a rule. -/
def Rule.check (env : Environment) (s : Settings) : Rule → Except Failure Unit
  | given | filled | wellFormed | supported => s.validateInterface
  | timeout => s.validateTimeout
  | username => checkNotBlank "accounts.admin_username" s.accounts.username
  | password => s.validatePassword env
  | someApp | needs => s.validateApps

theorem not_breaks_of_ok {r : Rule} {g : Failure} (hok : r.check env s = .ok ()) :
    ¬Breaks env s r g := by
  intro hbreaks
  cases r with
  | given | filled | wellFormed | supported =>
    exact (validateInterface_eq_ok_iff.mp hok).not_breaks (by decide) hbreaks
  | timeout => exact nomatch hok.symm.trans (validateTimeout_eq_error_iff.mpr hbreaks)
  | username =>
    cases hbreaks with
    | username hblank => exact checkNotBlank_eq_ok_iff.mp hok hblank
  | password => exact nomatch hok.symm.trans (validatePassword_eq_error_iff.mpr hbreaks)
  | someApp => exact nomatch hok.symm.trans (validateApps_eq_error_iff.mpr (Or.inl hbreaks))
  | needs => exact nomatch hok.symm.trans (validateApps_eq_error_iff.mpr (Or.inr hbreaks))

/-- Two checks, one after the other, fail as the first of them that fails. -/
theorem checks_eq_error_iff {first second : Except Failure Unit} :
    (first >>= fun _ => second) = .error f ↔
      first = .error f ∨ first = .ok () ∧ second = .error f := by
  cases first with
  | error g => exact ⟨Or.inl, fun h => h.resolve_right fun hok => nomatch hok.1⟩
  | ok u => exact ⟨fun hsecond => Or.inr ⟨rfl, hsecond⟩, fun h => h.resolve_left nofun |>.2⟩

theorem exists_firstBroken (herror : s.validate env = .error f) : ∃ r, FirstBroken env s r f := by
  rw [validate, checks_eq_error_iff] at herror
  rcases herror with hinterface | ⟨hinterface, herror⟩
  · rcases validateInterface_cases env s with ⟨hok, -⟩ | ⟨r, g, hfails, -, hfirst⟩
    · cases hok.symm.trans hinterface
    · obtain rfl := Except.error.inj (hfails.symm.trans hinterface)
      exact ⟨r, hfirst⟩
  rw [checks_eq_error_iff] at herror
  rcases herror with htimeout | ⟨htimeout, herror⟩
  · refine ⟨.timeout, validateTimeout_eq_error_iff.mp htimeout, fun r g hlt => ?_⟩
    refine not_breaks_of_ok ?_
    cases r <;> first | exact hinterface | exact absurd hlt (by decide)
  rw [checks_eq_error_iff] at herror
  rcases herror with husername | ⟨husername, herror⟩
  · obtain ⟨hblank, rfl⟩ := checkNotBlank_eq_error_iff.mp husername
    refine ⟨.username, Breaks.username hblank, fun r g hlt => ?_⟩
    refine not_breaks_of_ok ?_
    cases r <;> first | exact hinterface | exact htimeout | exact absurd hlt (by decide)
  rw [checks_eq_error_iff] at herror
  rcases herror with hpassword | ⟨hpassword, happs⟩
  · refine ⟨.password, validatePassword_eq_error_iff.mp hpassword, fun r g hlt => ?_⟩
    refine not_breaks_of_ok ?_
    cases r <;>
      first | exact hinterface | exact htimeout | exact husername | exact absurd hlt (by decide)
  have hearlier : ∀ r : Rule, r.place < Rule.someApp.place → r.check env s = .ok () := by
    intro r hlt
    cases r <;> first
      | exact hinterface
      | exact htimeout
      | exact husername
      | exact hpassword
      | exact absurd hlt (by decide)
  rcases validateApps_eq_error_iff.mp happs with hbreaks | hbreaks
  · exact ⟨.someApp, hbreaks, fun r g hlt => not_breaks_of_ok (hearlier r hlt)⟩
  · refine ⟨.needs, hbreaks, fun r g hlt hother => ?_⟩
    by_cases hbefore : r.place < Rule.someApp.place
    · exact not_breaks_of_ok (hearlier r hbefore) hother
    -- The list in which an app lacks something is not empty.
    · cases hother with
      | noApps hnone =>
        cases hbreaks with
        | lacks hsplit => simp [hnone] at hsplit
      | lacks => exact absurd hlt (by decide)
      | _ => exact absurd (by decide) hbefore

theorem Breaks.unique {r : Rule} {g : Failure} (hf : Breaks env s r f) (hg : Breaks env s r g) :
    f = g := by
  cases hf with
  | noRoot hkind =>
    cases hg with
    | noRoot => rfl
    | noUrl hkind' => exact nomatch hkind.symm.trans hkind'
  | emptyRoot hkind =>
    cases hg with
    | emptyRoot => rfl
    | emptyUrl hkind' => exact nomatch hkind.symm.trans hkind'
  | nulInRoot hkind hroot =>
    cases hg with
    | nulInRoot _ hroot' => rw [Option.some.inj (hroot.symm.trans hroot')]
    | malformedUrl hkind' => exact nomatch hkind.symm.trans hkind'
  | blankProgram hkind =>
    cases hg with
    | blankProgram => rfl
    | otherScheme hkind' => exact nomatch hkind.symm.trans hkind'
  | noUrl hkind =>
    cases hg with
    | noUrl => rfl
    | noRoot hkind' => exact nomatch hkind.symm.trans hkind'
  | emptyUrl hkind =>
    cases hg with
    | emptyUrl => rfl
    | emptyRoot hkind' => exact nomatch hkind.symm.trans hkind'
  | malformedUrl hkind hurl hfault =>
    cases hg with
    | malformedUrl _ hurl' hfault' =>
      obtain rfl := Option.some.inj (hurl.symm.trans hurl')
      rw [Except.error.inj (hfault.symm.trans hfault')]
    | nulInRoot hkind' => exact nomatch hkind.symm.trans hkind'
  | otherScheme hkind hurl hparsed =>
    cases hg with
    | otherScheme _ hurl' hparsed' =>
      obtain rfl := Option.some.inj (hurl.symm.trans hurl')
      rw [Except.ok.inj (hparsed.symm.trans hparsed')]
    | blankProgram hkind' => exact nomatch hkind.symm.trans hkind'
  | timeout htimeout =>
    cases hg with
    | timeout htimeout' => rw [Option.some.inj (htimeout.symm.trans htimeout')]
  | username =>
    cases hg with
    | username => rfl
  | password hscan hnames hset hunset =>
    have hfails := validatePassword_eq_error_iff.mpr (Breaks.password hscan hnames hset hunset)
    exact Except.error.inj (hfails.symm.trans (validatePassword_eq_error_iff.mpr hg))
  | noApps =>
    cases hg with
    | noApps => rfl
  | lacks happs hbefore hneeds hmet hlacks =>
    have hbreaks : Breaks env s .needs _ := .lacks happs hbefore hneeds hmet hlacks
    have hfails := validateApps_eq_error_iff.mpr (Or.inr hbreaks)
    exact Except.error.inj (hfails.symm.trans (validateApps_eq_error_iff.mpr (Or.inr hg)))

theorem Rule.place_injective {r r' : Rule} (h : r.place = r'.place) : r = r' := by
  revert h
  cases r <;> cases r' <;> decide

theorem FirstBroken.unique {r r' : Rule} {g : Failure} (hf : FirstBroken env s r f)
    (hg : FirstBroken env s r' g) : f = g := by
  have hle : ¬r'.place < r.place := fun hlt => hf.2 r' g hlt hg.1
  have hge : ¬r.place < r'.place := fun hlt => hg.2 r f hlt hf.1
  obtain rfl := Rule.place_injective (show r.place = r'.place by omega)
  exact hf.1.unique hg.1

theorem validateTimeout_eq_ok_iff :
    s.validateTimeout = .ok () ↔
      ∀ n, s.interface.timeoutSeconds = some n → 1 ≤ n ∧ n ≤ 3600 := by
  rw [validateTimeout]
  cases s.interface.timeoutSeconds with
  | none => exact ⟨fun _ => nofun, fun _ => rfl⟩
  | some n =>
    have hrange : (1 : Int) ≤ n ∧ (n : Int) ≤ 3600 ↔ 1 ≤ n ∧ n ≤ 3600 := by omega
    simp only [checkRange, hrange, Option.some.injEq, forall_eq']
    split
    · rename_i hinside
      exact ⟨fun _ => hinside, fun _ => rfl⟩
    · rename_i houtside
      exact ⟨nofun, fun hinside => absurd hinside houtside⟩

theorem validatePassword_eq_ok_iff :
    s.validatePassword env = .ok () ↔
      ∀ d, Placeholder.Scan s.accounts.password.toList d →
        ∀ name ∈ d.names, env (String.ofList name) ≠ none := by
  obtain ⟨d, hscan⟩ := Placeholder.exists_scan s.accounts.password.toList
  have hset : (d.names.find? fun name => (env (String.ofList name)).isNone) = none ↔
      ∀ name ∈ d.names, env (String.ofList name) ≠ none := by
    rw [List.find?_eq_none]
    simp
  have hevery : (∀ d', Placeholder.Scan s.accounts.password.toList d' →
      ∀ name ∈ d'.names, env (String.ofList name) ≠ none) ↔
        ∀ name ∈ d.names, env (String.ofList name) ≠ none := by
    constructor
    · exact fun h => h d hscan
    · intro h d' hscan'
      rwa [hscan'.unique hscan]
  rw [hevery, ← hset, validatePassword, Placeholder.firstUnset?, hscan.names_eq]
  cases d.names.find? fun name => (env (String.ofList name)).isNone with
  | none => exact ⟨fun _ => rfl, fun _ => rfl⟩
  | some name => exact ⟨nofun, nofun⟩

theorem validate_eq_ok_iff_acceptable : s.validate env = .ok () ↔ Acceptable env s := by
  rw [validate_eq_ok_iff, validateInterface_eq_ok_iff, validateTimeout_eq_ok_iff,
    checkNotBlank_eq_ok_iff, validatePassword_eq_ok_iff, validateApps_eq_ok_iff]
  constructor
  · rintro ⟨hreachable, htimeout, husername, hpassword, hsome, hneeds⟩
    exact ⟨hreachable, htimeout, husername, hpassword, hsome, hneeds⟩
  · rintro ⟨hreachable, htimeout, husername, hpassword, hsome, hneeds⟩
    exact ⟨hreachable, htimeout, husername, hpassword, hsome, hneeds⟩

theorem Acceptable.not_breaks (hacceptable : Acceptable env s) {r : Rule} : ¬Breaks env s r f := by
  obtain ⟨hinterface, htimeout, husername, hpassword, happs⟩ :=
    validate_eq_ok_iff.mp (validate_eq_ok_iff_acceptable.mpr hacceptable)
  refine not_breaks_of_ok ?_
  cases r with
  | given | filled | wellFormed | supported => exact hinterface
  | timeout => exact htimeout
  | username => exact husername
  | password => exact hpassword
  | someApp | needs => exact happs

theorem validate_eq_error_iff : s.validate env = .error f ↔ ∃ r, FirstBroken env s r f := by
  constructor
  · exact exists_firstBroken
  · rintro ⟨r, hfirst⟩
    cases hvalid : s.validate env with
    | ok u => exact absurd hfirst.1 (validate_eq_ok_iff_acceptable.mp hvalid).not_breaks
    | error g =>
      obtain ⟨r', hfirst'⟩ := exists_firstBroken hvalid
      rw [hfirst.unique hfirst']

/-- Settings are accepted just when they keep every rule; else the first that they break tells why. -/
theorem validate_of_rules (env : Environment) (s : Settings) :
    (s.validate env = .ok () ↔ Acceptable env s) ∧
      (∀ f, s.validate env = .error f ↔ ∃ r, Breaks env s r f ∧
        ∀ r' g, r'.place < r.place → ¬Breaks env s r' g) ∧
      (s.interface.kind = .http → ∀ phpBinary serverRoot,
        ({ s with interface := { s.interface with
          phpBinary := phpBinary, serverRoot := serverRoot } }).validate env = s.validate env) ∧
      (s.interface.kind = .cli → ∀ url,
        ({ s with interface := { s.interface with url := url } }).validate env =
          s.validate env) := by
  refine ⟨validate_eq_ok_iff_acceptable, fun f => validate_eq_error_iff, ?_, ?_⟩
  · intro hkind phpBinary serverRoot
    simp only [validate, validateInterface, hkind]
    rfl
  · intro hkind url
    simp only [validate, validateInterface, hkind]
    rfl

/-- An empty URL is reported before a timeout of no length, and the program does not matter. -/
theorem validate_of_rules_two_broken :
    let env : Environment := fun _ => none
    let s : Settings := ⟨⟨.http, none, none, some "", some 0⟩, ⟨"admin", "secret"⟩, [.core]⟩
    s.interface.kind = .http ∧
      s.validate env = .error (.invalidSetting "interface.url" "" .emptyUrl) ∧
      ({ s with interface := { s.interface with
        phpBinary := some " ", serverRoot := none } }).validate env = s.validate env := by
  intro env s
  obtain ⟨-, herror, hother, -⟩ := validate_of_rules env s
  have hkind : s.interface.kind = .http := rfl
  have hbreaks : Breaks env s .filled (.invalidSetting "interface.url" "" .emptyUrl) :=
    .emptyUrl hkind rfl
  exact ⟨hkind, (herror _).mpr ⟨.filled, FirstBroken.filled hbreaks⟩, hother hkind _ _⟩

end Settings

end Shakedown
