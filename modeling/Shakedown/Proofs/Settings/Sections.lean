import Mathlib.Data.Option.Basic
import Shakedown.Proofs.Settings.Entries
import Shakedown.Proofs.Settings.Password

/-!
# Settings from sections

A document of sections is accepted when it has the settings that are needed and each of the settings
that it has is of the right kind. The settings are then the ones that it gives, whatever else is in
it, in which order the sections and their keys stand, and however they are written.
-/

namespace Shakedown

open Toml (Extent Value Plain Sections)

namespace Settings

open Toml (Reads Table SectionShownBy readText readCount)

/-! ### The interface -/

section Interface

variable {es : List (String × Plain)} {t : Toml.Table} {d d' : InterfaceDraft}

theorem kindName_injective : Function.Injective Kind.name := by
  intro k k' h
  cases k <;> cases k' <;> first | rfl | exact absurd h (by decide)

theorem reads_kind : Reads Plain.ShownBy readKind fun k p => p = .text k.name :=
  Toml.reads_choice Kind.ofName?_eq_some_iff

/-- The settings of the interface are those that a section gives. -/
structure InterfaceDraft.Matches (d : InterfaceDraft) (es : List (String × Plain)) : Prop where
  kind : valueAt? "kind" es = d.kind.map fun k => .text k.name
  phpBinary : valueAt? "php_binary" es = d.phpBinary.map .text
  serverRoot : valueAt? "server_root" es = d.serverRoot.map .text
  url : valueAt? "url" es = d.url.map .text
  timeoutSeconds : valueAt? "timeout_seconds" es = d.timeoutSeconds.map fun n => .integer n

theorem InterfaceDraft.Matches.unique (h : d.Matches es) (h' : d'.Matches es) : d = d' := by
  have htext : Function.Injective Plain.text := fun _ _ => Plain.text.inj
  have hkind : Function.Injective fun k : Kind => Plain.text k.name :=
    htext.comp kindName_injective
  have hcount : Function.Injective fun n : Nat => Plain.integer n :=
    fun _ _ heq => Int.ofNat.inj (Plain.integer.inj heq)
  obtain ⟨kind, phpBinary, serverRoot, url, timeoutSeconds⟩ := d
  obtain rfl := Option.map_injective hkind (h.kind.symm.trans h'.kind)
  obtain rfl := Option.map_injective htext (h.phpBinary.symm.trans h'.phpBinary)
  obtain rfl := Option.map_injective htext (h.serverRoot.symm.trans h'.serverRoot)
  obtain rfl := Option.map_injective htext (h.url.symm.trans h'.url)
  obtain rfl := Option.map_injective hcount (h.timeoutSeconds.symm.trans h'.timeoutSeconds)
  rfl

theorem InterfaceDraft.sets :
    Sets InterfaceDraft.add "kind" readKind InterfaceDraft.kind some ∧
      Sets InterfaceDraft.add "php_binary" readText InterfaceDraft.phpBinary some ∧
      Sets InterfaceDraft.add "server_root" readText InterfaceDraft.serverRoot some ∧
      Sets InterfaceDraft.add "url" readText InterfaceDraft.url some ∧
      Sets InterfaceDraft.add "timeout_seconds" readCount InterfaceDraft.timeoutSeconds some := by
  refine ⟨⟨?_, ?_⟩, ⟨?_, ?_⟩, ⟨?_, ?_⟩, ⟨?_, ?_⟩, ⟨?_, ?_⟩⟩
  case refine_2 | refine_4 | refine_6 | refine_8 | refine_10 =>
    intro d r e v h
    obtain ⟨a, ha, rfl⟩ := map_eq_ok_iff.mp h
    exact ⟨a, ha, rfl⟩
  all_goals
    intro d r name e v hne h
    unfold InterfaceDraft.add at h
    split_ifs at h
    all_goals
      obtain ⟨a, -, rfl⟩ := map_eq_ok_iff.mp h
      first | rfl | exact absurd ‹_› hne

theorem InterfaceDraft.foldlM_eq_ok_iff (ht : Table.Holds Plain.ShownBy es t) :
    t.foldlM (fun d p => InterfaceDraft.add d p.1 p.2.1 p.2.2) {} = .ok d ↔ d.Matches es := by
  obtain ⟨hkind, hphp, hroot, hurl, htimeout⟩ := InterfaceDraft.sets
  refine Settings.foldlM_eq_ok_iff (fun hr => ?_) Matches.unique fun h => ?_
  · exact {
      kind := hkind.eq_map reads_kind ht rfl hr
      phpBinary := hphp.eq_map Toml.reads_text ht rfl hr
      serverRoot := hroot.eq_map Toml.reads_text ht rfl hr
      url := hurl.eq_map Toml.reads_text ht rfl hr
      timeoutSeconds := htimeout.eq_map Toml.reads_count ht rfl hr }
  · rintro ⟨key, e, v⟩ hmem d
    obtain ⟨p, hp, hv⟩ := ht.of_mem hmem
    unfold InterfaceDraft.add
    split_ifs with hkind hphp hroot htimeout hurl
    · subst hkind
      exact map_ok_of_eq_map reads_kind h.kind hp hv _ e
    · subst hphp
      exact map_ok_of_eq_map Toml.reads_text h.phpBinary hp hv _ e
    · subst hroot
      exact map_ok_of_eq_map Toml.reads_text h.serverRoot hp hv _ e
    · subst htimeout
      exact map_ok_of_eq_map Toml.reads_count h.timeoutSeconds hp hv _ e
    · subst hurl
      exact map_ok_of_eq_map Toml.reads_text h.url hp hv _ e
    · exact Toml.passOver_map_ok hv.isSound _ e

/-- What is found of the settings of the interface when all of it is there. -/
def interfaceDraft (i : InterfaceSettings) : InterfaceDraft :=
  ⟨some i.kind, i.phpBinary, i.serverRoot, i.url, i.timeoutSeconds⟩

theorem InterfaceDraft.finish_eq_ok_iff {e : Extent} {i : InterfaceSettings} :
    d.finish e = .ok i ↔ d = interfaceDraft i := by
  constructor
  · intro h
    obtain ⟨kind, hkind, rfl⟩ := map_eq_ok_iff.mp h
    rw [interfaceDraft, ← present_eq_ok_iff.mp hkind]
  · rintro rfl
    rfl

theorem reads_interface :
    Reads SectionShownBy readInterface fun i es => (interfaceDraft i).Matches es := by
  rintro es v ⟨t, rfl, ht⟩ e i
  constructor
  · intro h
    obtain ⟨d, hd, hi⟩ := bind_eq_ok_iff.mp h
    exact InterfaceDraft.finish_eq_ok_iff.mp hi ▸ (InterfaceDraft.foldlM_eq_ok_iff ht).mp hd
  · intro h
    exact bind_eq_ok_iff.mpr ⟨_, (InterfaceDraft.foldlM_eq_ok_iff ht).mpr h,
      InterfaceDraft.finish_eq_ok_iff.mpr rfl⟩

end Interface

/-! ### The administrator -/

section Accounts

variable {es : List (String × Plain)} {t : Toml.Table} {d d' : AccountsDraft}

/-- The credentials are those that a section gives. -/
structure AccountsDraft.Matches (d : AccountsDraft) (es : List (String × Plain)) : Prop where
  username : valueAt? "admin_username" es = d.username.map .text
  password : valueAt? "admin_password" es = d.password.map .text

theorem AccountsDraft.Matches.unique (h : d.Matches es) (h' : d'.Matches es) : d = d' := by
  have htext : Function.Injective Plain.text := fun _ _ => Plain.text.inj
  obtain ⟨username, password⟩ := d
  obtain rfl := Option.map_injective htext (h.username.symm.trans h'.username)
  obtain rfl := Option.map_injective htext (h.password.symm.trans h'.password)
  rfl

theorem AccountsDraft.sets :
    Sets AccountsDraft.add "admin_username" readText AccountsDraft.username some ∧
      Sets AccountsDraft.add "admin_password" readText AccountsDraft.password some := by
  refine ⟨⟨?_, ?_⟩, ⟨?_, ?_⟩⟩
  case refine_2 | refine_4 =>
    intro d r e v h
    obtain ⟨a, ha, rfl⟩ := map_eq_ok_iff.mp h
    exact ⟨a, ha, rfl⟩
  all_goals
    intro d r name e v hne h
    unfold AccountsDraft.add at h
    split_ifs at h
    all_goals
      obtain ⟨a, -, rfl⟩ := map_eq_ok_iff.mp h
      first | rfl | exact absurd ‹_› hne

theorem AccountsDraft.foldlM_eq_ok_iff (ht : Table.Holds Plain.ShownBy es t) :
    t.foldlM (fun d p => AccountsDraft.add d p.1 p.2.1 p.2.2) {} = .ok d ↔ d.Matches es := by
  obtain ⟨husername, hpassword⟩ := AccountsDraft.sets
  refine Settings.foldlM_eq_ok_iff (fun hr => ?_) Matches.unique fun h => ?_
  · exact {
      username := husername.eq_map Toml.reads_text ht rfl hr
      password := hpassword.eq_map Toml.reads_text ht rfl hr }
  · rintro ⟨key, e, v⟩ hmem d
    obtain ⟨p, hp, hv⟩ := ht.of_mem hmem
    unfold AccountsDraft.add
    split_ifs with hpassword husername
    · subst hpassword
      exact map_ok_of_eq_map Toml.reads_text h.password hp hv _ e
    · subst husername
      exact map_ok_of_eq_map Toml.reads_text h.username hp hv _ e
    · exact Toml.passOver_map_ok hv.isSound _ e

theorem AccountsDraft.finish_eq_ok_iff {e : Extent} {c : Credentials} :
    d.finish e = .ok c ↔ d = ⟨some c.username, some c.password⟩ := by
  constructor
  · intro h
    obtain ⟨username, husername, h⟩ := bind_eq_ok_iff.mp h
    obtain ⟨password, hpassword, h⟩ := bind_eq_ok_iff.mp h
    obtain rfl := Except.ok.inj h
    rw [← present_eq_ok_iff.mp husername, ← present_eq_ok_iff.mp hpassword]
  · rintro rfl
    rfl

theorem reads_accounts : Reads SectionShownBy readAccounts fun c es =>
    (⟨some c.username, some c.password⟩ : AccountsDraft).Matches es := by
  rintro es v ⟨t, rfl, ht⟩ e c
  constructor
  · intro h
    obtain ⟨d, hd, hc⟩ := bind_eq_ok_iff.mp h
    exact AccountsDraft.finish_eq_ok_iff.mp hc ▸ (AccountsDraft.foldlM_eq_ok_iff ht).mp hd
  · intro h
    exact bind_eq_ok_iff.mpr ⟨_, (AccountsDraft.foldlM_eq_ok_iff ht).mpr h,
      AccountsDraft.finish_eq_ok_iff.mpr rfl⟩

end Accounts

/-! ### The apps -/

section Run

variable {es : List (String × Plain)} {t : Toml.Table} {apps apps' : List App}

theorem reads_apps : Reads Plain.ShownBy readApps fun apps p => p = .texts (apps.map App.name) :=
  Toml.reads_items (Toml.reads_choice App.ofName?_eq_some_iff)

/-- The apps are those that a section lists, and all of them when it has no list. -/
def MatchesRun (apps : List App) (es : List (String × Plain)) : Prop :=
  (valueAt? "apps" es = none ∧ apps = App.all) ∨
    valueAt? "apps" es = some (.texts (apps.map App.name))

theorem MatchesRun.unique (h : MatchesRun apps es) (h' : MatchesRun apps' es) : apps = apps' := by
  rcases h with ⟨hnone, rfl⟩ | hsome <;> rcases h' with ⟨hnone', rfl⟩ | hsome'
  · rfl
  · exact nomatch hnone.symm.trans hsome'
  · exact nomatch hnone'.symm.trans hsome
  · have hmap := Plain.texts.inj (Option.some.inj (hsome.symm.trans hsome'))
    exact List.map_injective_iff.mpr (fun _ _ => App.name_injective) hmap

theorem sets_apps : Sets addRunEntry "apps" readApps id id where
  other hne h := by
    rw [addRunEntry, if_neg hne] at h
    obtain ⟨-, -, rfl⟩ := map_eq_ok_iff.mp h
    rfl
  set {d r e v} h := by
    rw [addRunEntry, if_pos rfl] at h
    exact ⟨r, h, rfl⟩

theorem foldlM_addRunEntry_eq_ok_iff (ht : Table.Holds Plain.ShownBy es t) :
    t.foldlM (fun apps p => addRunEntry apps p.1 p.2.1 p.2.2) App.all = .ok apps ↔
      MatchesRun apps es := by
  refine foldlM_eq_ok_iff (fun hr => ?_) MatchesRun.unique fun h => ?_
  · rcases sets_apps.of_holds reads_apps ht hr with ⟨hvalue, hkept⟩ | ⟨p, as, hvalue, rfl, hset⟩
    · exact Or.inl ⟨hvalue, hkept⟩
    · obtain rfl : _ = as := hset
      exact Or.inr hvalue
  · rintro ⟨key, e, v⟩ hmem d
    obtain ⟨p, hp, hv⟩ := ht.of_mem hmem
    unfold addRunEntry
    split_ifs with hkey
    · subst hkey
      rcases h with ⟨hnone, -⟩ | hsome
      · exact nomatch hnone.symm.trans hp
      · exact ⟨apps, (reads_apps hv e apps).mpr (Option.some.inj (hp.symm.trans hsome))⟩
    · exact Toml.passOver_map_ok hv.isSound _ e

theorem reads_run : Reads SectionShownBy readRun MatchesRun := by
  rintro es v ⟨t, rfl, ht⟩ e apps
  exact foldlM_addRunEntry_eq_ok_iff ht

end Run

/-! ### All settings -/

section Document

variable {sections : List (String × List (String × Plain))} {t : Toml.Table} {d d' : Draft}

/-- The settings are those that sections give. -/
structure Draft.Matches (d : Draft) (sections : List (String × List (String × Plain))) : Prop where
  interface : (valueAt? "interface" sections = none ∧ d.interface = none) ∨
    ∃ es i, valueAt? "interface" sections = some es ∧ (interfaceDraft i).Matches es ∧
      d.interface = some i
  accounts : (valueAt? "accounts" sections = none ∧ d.accounts = none) ∨
    ∃ es c, valueAt? "accounts" sections = some es ∧
      (⟨some c.username, some c.password⟩ : AccountsDraft).Matches es ∧ d.accounts = some c
  apps : (valueAt? "run" sections = none ∧ d.apps = App.all) ∨
    ∃ es apps, valueAt? "run" sections = some es ∧ MatchesRun apps es ∧ d.apps = apps

theorem eq_of_slots {α β γ : Type} {Q : α → γ → Prop} {g : α → β} {x : Option γ} {b b' b₀ : β}
    (hunique : ∀ {a a' c}, Q a c → Q a' c → a = a')
    (h : (x = none ∧ b = b₀) ∨ ∃ c a, x = some c ∧ Q a c ∧ b = g a)
    (h' : (x = none ∧ b' = b₀) ∨ ∃ c a, x = some c ∧ Q a c ∧ b' = g a) : b = b' := by
  rcases h with ⟨hnone, rfl⟩ | ⟨c, a, hsome, hQ, rfl⟩ <;>
    rcases h' with ⟨hnone', rfl⟩ | ⟨c', a', hsome', hQ', rfl⟩
  · rfl
  · exact nomatch hnone.symm.trans hsome'
  · exact nomatch hnone'.symm.trans hsome
  · obtain rfl := Option.some.inj (hsome.symm.trans hsome')
    rw [hunique hQ hQ']

theorem Draft.Matches.unique (h : d.Matches sections) (h' : d'.Matches sections) : d = d' := by
  obtain ⟨interface, accounts, apps⟩ := d
  obtain ⟨interface', accounts', apps'⟩ := d'
  have hinterface : interface = interface' := by
    refine eq_of_slots (fun {i i' es} hi hi' => ?_) h.interface h'.interface
    have hdraft := hi.unique hi'
    cases i
    cases i'
    simpa [interfaceDraft] using hdraft
  have haccounts : accounts = accounts' := by
    refine eq_of_slots (fun {c c' es} hc hc' => ?_) h.accounts h'.accounts
    have hdraft := hc.unique hc'
    cases c
    cases c'
    simpa using hdraft
  have happs : apps = apps' :=
    eq_of_slots (Q := MatchesRun) (g := id) MatchesRun.unique h.apps h'.apps
  rw [hinterface, haccounts, happs]

theorem Draft.sets :
    Sets Draft.add "interface" readInterface Draft.interface some ∧
      Sets Draft.add "accounts" readAccounts Draft.accounts some ∧
      Sets Draft.add "run" readRun Draft.apps id := by
  refine ⟨⟨?_, ?_⟩, ⟨?_, ?_⟩, ⟨?_, ?_⟩⟩
  case refine_2 | refine_4 | refine_6 =>
    intro d r e v h
    obtain ⟨a, ha, rfl⟩ := map_eq_ok_iff.mp h
    exact ⟨a, ha, rfl⟩
  all_goals
    intro d r name e v hne h
    unfold Draft.add at h
    split_ifs at h
    all_goals
      obtain ⟨a, -, rfl⟩ := map_eq_ok_iff.mp h
      first | rfl | exact absurd ‹_› hne

theorem isSound_of_section {es : List (String × Plain)} {v : Value} (h : SectionShownBy es v) :
    v.isSound = true := by
  obtain ⟨t, rfl, ht⟩ := h
  have hvalues : ∀ p ∈ t, p.2.2.isSound = true := by
    rintro ⟨key, e, v⟩ hmem
    obtain ⟨p, -, hv⟩ := ht.of_mem hmem
    exact hv.isSound
  clear ht
  rw [Value.isSound]
  induction t with
  | nil => rfl
  | cons p rest ih =>
    obtain ⟨key, e, v⟩ := p
    obtain ⟨hv, hrest⟩ := List.forall_mem_cons.mp hvalues
    rw [Toml.entriesAreSound, ih hrest, Bool.and_true]
    exact hv

theorem Draft.foldlM_eq_ok_iff (ht : Table.Holds SectionShownBy sections t) :
    t.foldlM (fun d p => Draft.add d p.1 p.2.1 p.2.2) {} = .ok d ↔ d.Matches sections := by
  obtain ⟨hinterface, haccounts, hrun⟩ := Draft.sets
  refine Settings.foldlM_eq_ok_iff (fun hr => ?_) Matches.unique fun h => ?_
  · exact {
      interface := hinterface.of_holds reads_interface ht hr
      accounts := haccounts.of_holds reads_accounts ht hr
      apps := hrun.of_holds reads_run ht hr }
  · rintro ⟨name, e, v⟩ hmem d
    obtain ⟨es, hes, hv⟩ := ht.of_mem hmem
    unfold Draft.add
    split_ifs with haccounts hinterface hrun
    · subst haccounts
      exact map_ok_of_slot reads_accounts h.accounts hes hv _ e
    · subst hinterface
      exact map_ok_of_slot reads_interface h.interface hes hv _ e
    · subst hrun
      exact map_ok_of_slot (g := id) reads_run h.apps hes hv _ e
    · exact Toml.passOver_map_ok (isSound_of_section hv) _ e

theorem ofTable_eq_ok_iff {e : Extent} {s : Settings}
    (ht : Table.Holds SectionShownBy sections t) :
    ofTable e t = .ok s ↔
      (⟨some s.interface, some s.accounts, s.apps⟩ : Draft).Matches sections := by
  rw [← Draft.foldlM_eq_ok_iff ht]
  constructor
  · intro h
    obtain ⟨d, hd, h⟩ := bind_eq_ok_iff.mp h
    obtain ⟨interface, hinterface, h⟩ := bind_eq_ok_iff.mp h
    obtain ⟨accounts, haccounts, h⟩ := bind_eq_ok_iff.mp h
    obtain rfl := Except.ok.inj h
    rw [← present_eq_ok_iff.mp hinterface, ← present_eq_ok_iff.mp haccounts]
    exact hd
  · intro h
    exact bind_eq_ok_iff.mpr ⟨_, h, rfl⟩

end Document

/-! ### Documents -/

/-- The settings are those that a document gives. -/
structure GivenBy (s : Settings) (doc : Sections) : Prop where
  kind : doc.value? "interface" "kind" = some (.text s.interface.kind.name)
  phpBinary : doc.value? "interface" "php_binary" = s.interface.phpBinary.map .text
  serverRoot : doc.value? "interface" "server_root" = s.interface.serverRoot.map .text
  url : doc.value? "interface" "url" = s.interface.url.map .text
  timeoutSeconds : doc.value? "interface" "timeout_seconds" =
    s.interface.timeoutSeconds.map fun n => .integer n
  username : doc.value? "accounts" "admin_username" = some (.text s.accounts.username)
  password : doc.value? "accounts" "admin_password" = some (.text s.accounts.password)
  apps : (doc.value? "run" "apps" = none ∧ s.apps = App.all) ∨
    doc.value? "run" "apps" = some (.texts (s.apps.map App.name))

/-- What a document has to have, and what it must not have. -/
structure Complete (doc : Sections) : Prop where
  kind : doc.value? "interface" "kind" = some (.text "cli") ∨
    doc.value? "interface" "kind" = some (.text "http")
  phpBinary : ∀ p, doc.value? "interface" "php_binary" = some p → ∃ s, p = .text s
  serverRoot : ∀ p, doc.value? "interface" "server_root" = some p → ∃ s, p = .text s
  url : ∀ p, doc.value? "interface" "url" = some p → ∃ s, p = .text s
  timeoutSeconds : ∀ p, doc.value? "interface" "timeout_seconds" = some p →
    ∃ n, p = .integer n ∧ 0 ≤ n
  username : ∃ s, doc.value? "accounts" "admin_username" = some (.text s)
  password : ∃ s, doc.value? "accounts" "admin_password" = some (.text s)
  apps : ∀ p, doc.value? "run" "apps" = some p →
    ∃ names, p = .texts names ∧ ∀ name ∈ names, name = "core" ∨ name = "accounts" ∨ name = "files"

section Document

variable {doc doc' : Sections} {s : Settings}

theorem value?_of_some {name : String} {es : List (String × Plain)}
    (h : valueAt? name doc.toList = some es) (key : String) :
    doc.value? name key = valueAt? key es := by
  rw [Sections.value?, h]
  rfl

theorem value?_of_none {name : String} (h : valueAt? name doc.toList = none) (key : String) :
    doc.value? name key = none := by
  rw [Sections.value?, h]
  rfl

theorem matches_iff_givenBy :
    (⟨some s.interface, some s.accounts, s.apps⟩ : Draft).Matches doc.toList ↔ s.GivenBy doc := by
  constructor
  · intro h
    obtain ⟨-, hnone⟩ | ⟨es, i, hes, hi, hsome⟩ := h.interface
    · exact nomatch hnone
    obtain rfl := Option.some.inj hsome
    obtain ⟨-, hnone⟩ | ⟨es', c, hes', hc, hsome'⟩ := h.accounts
    · exact nomatch hnone
    obtain rfl := Option.some.inj hsome'
    refine {
      kind := (value?_of_some hes _).trans hi.kind
      phpBinary := (value?_of_some hes _).trans hi.phpBinary
      serverRoot := (value?_of_some hes _).trans hi.serverRoot
      url := (value?_of_some hes _).trans hi.url
      timeoutSeconds := (value?_of_some hes _).trans hi.timeoutSeconds
      username := (value?_of_some hes' _).trans hc.username
      password := (value?_of_some hes' _).trans hc.password
      apps := ?_ }
    obtain ⟨hnone, happs⟩ | ⟨es, apps, hrun, happs, rfl⟩ := h.apps
    · exact Or.inl ⟨value?_of_none hnone _, happs⟩
    · rw [value?_of_some hrun]
      exact happs
  · intro h
    obtain ⟨es, hes, -⟩ := Option.bind_eq_some_iff.mp h.kind
    obtain ⟨es', hes', -⟩ := Option.bind_eq_some_iff.mp h.username
    have hi (key : String) := (value?_of_some hes key).symm
    have hc (key : String) := (value?_of_some hes' key).symm
    refine ⟨Or.inr ⟨es, s.interface, hes, ?_, rfl⟩, Or.inr ⟨es', s.accounts, hes', ?_, rfl⟩, ?_⟩
    · exact ⟨(hi _).trans h.kind, (hi _).trans h.phpBinary, (hi _).trans h.serverRoot,
        (hi _).trans h.url, (hi _).trans h.timeoutSeconds⟩
    · exact ⟨(hc _).trans h.username, (hc _).trans h.password⟩
    · cases hrun : valueAt? "run" doc.toList with
      | none =>
        rcases h.apps with ⟨-, happs⟩ | hsome
        · exact Or.inl ⟨rfl, happs⟩
        · exact nomatch (value?_of_none hrun _).symm.trans hsome
      | some es =>
        have happs := h.apps
        rw [value?_of_some hrun] at happs
        exact Or.inr ⟨es, s.apps, rfl, happs, rfl⟩

theorem exists_map_of_forall {α γ : Type} {o : Option γ} {spell : α → γ}
    (h : ∀ p, o = some p → ∃ a, p = spell a) : ∃ o' : Option α, o = o'.map spell := by
  cases o with
  | none => exact ⟨none, rfl⟩
  | some p =>
    obtain ⟨a, rfl⟩ := h p rfl
    exact ⟨some a, rfl⟩

theorem exists_apps {names : List String}
    (h : ∀ name ∈ names, name = "core" ∨ name = "accounts" ∨ name = "files") :
    ∃ apps : List App, names = apps.map App.name := by
  induction names with
  | nil => exact ⟨[], rfl⟩
  | cons name names ih =>
    obtain ⟨hname, hnames⟩ := List.forall_mem_cons.mp h
    obtain ⟨apps, rfl⟩ := ih hnames
    rcases hname with rfl | rfl | rfl
    · exact ⟨.core :: apps, rfl⟩
    · exact ⟨.accounts :: apps, rfl⟩
    · exact ⟨.files :: apps, rfl⟩

/-- Some settings are given just by a document that is complete. -/
theorem exists_givenBy_iff : (∃ s : Settings, s.GivenBy doc) ↔ Complete doc := by
  constructor
  · rintro ⟨s, h⟩
    have htext {key : String} {o : Option String}
        (ho : doc.value? "interface" key = o.map .text) (p : Plain)
        (hp : doc.value? "interface" key = some p) : ∃ s, p = .text s := by
      obtain ⟨s, -, rfl⟩ := Option.map_eq_some_iff.mp (ho.symm.trans hp)
      exact ⟨s, rfl⟩
    refine {
      kind := ?_
      phpBinary := htext h.phpBinary
      serverRoot := htext h.serverRoot
      url := htext h.url
      timeoutSeconds := fun p hp => ?_
      username := ⟨_, h.username⟩
      password := ⟨_, h.password⟩
      apps := fun p hp => ?_ }
    · have hkind := h.kind
      cases hk : s.interface.kind with
      | cli =>
        rw [hk] at hkind
        exact Or.inl hkind
      | http =>
        rw [hk] at hkind
        exact Or.inr hkind
    · obtain ⟨n, -, rfl⟩ := Option.map_eq_some_iff.mp (h.timeoutSeconds.symm.trans hp)
      exact ⟨n, rfl, Int.natCast_nonneg n⟩
    · rcases h.apps with ⟨hnone, -⟩ | hsome
      · exact nomatch hnone.symm.trans hp
      · refine ⟨_, Option.some.inj (hp.symm.trans hsome), fun name hname => ?_⟩
        obtain ⟨a, -, rfl⟩ := List.mem_map.mp hname
        cases a <;> decide
  · intro h
    obtain ⟨kind, hkind⟩ : ∃ k : Kind, doc.value? "interface" "kind" = some (.text k.name) :=
      h.kind.elim (fun hcli => ⟨.cli, hcli⟩) fun hhttp => ⟨.http, hhttp⟩
    obtain ⟨phpBinary, hphp⟩ := exists_map_of_forall h.phpBinary
    obtain ⟨serverRoot, hroot⟩ := exists_map_of_forall h.serverRoot
    obtain ⟨url, hurl⟩ := exists_map_of_forall h.url
    have hcount : ∀ p, doc.value? "interface" "timeout_seconds" = some p →
        ∃ n : Nat, p = .integer n := by
      intro p hp
      obtain ⟨n, rfl, hn⟩ := h.timeoutSeconds p hp
      exact ⟨n.toNat, congrArg Plain.integer (Int.toNat_of_nonneg hn).symm⟩
    obtain ⟨timeoutSeconds, htimeout⟩ := exists_map_of_forall hcount
    obtain ⟨username, husername⟩ := h.username
    obtain ⟨password, hpassword⟩ := h.password
    obtain ⟨apps, happs⟩ : ∃ apps, (doc.value? "run" "apps" = none ∧ apps = App.all) ∨
        doc.value? "run" "apps" = some (.texts (apps.map App.name)) := by
      cases hvalue : doc.value? "run" "apps" with
      | none => exact ⟨App.all, Or.inl ⟨rfl, rfl⟩⟩
      | some p =>
        obtain ⟨names, rfl, hnames⟩ := h.apps p hvalue
        obtain ⟨apps, rfl⟩ := exists_apps hnames
        exact ⟨apps, Or.inr rfl⟩
    exact ⟨⟨⟨kind, phpBinary, serverRoot, url, timeoutSeconds⟩, ⟨username, password⟩, apps⟩,
      ⟨hkind, hphp, hroot, hurl, htimeout, husername, hpassword, happs⟩⟩

/-- The keys of the settings, each with its section. -/
def keys : List (String × String) :=
  [("interface", "kind"), ("interface", "php_binary"), ("interface", "server_root"),
    ("interface", "url"), ("interface", "timeout_seconds"), ("accounts", "admin_username"),
    ("accounts", "admin_password"), ("run", "apps")]

theorem givenBy_congr (h : ∀ k ∈ keys, doc.value? k.1 k.2 = doc'.value? k.1 k.2) :
    s.GivenBy doc ↔ s.GivenBy doc' := by
  have hsame {doc doc' : Sections} (h : ∀ k ∈ keys, doc.value? k.1 k.2 = doc'.value? k.1 k.2)
      (hs : s.GivenBy doc) : s.GivenBy doc' := by
    simp only [keys, List.forall_mem_cons] at h
    obtain ⟨hkind, hphp, hroot, hurl, htimeout, husername, hpassword, happs, -⟩ := h
    exact ⟨hkind ▸ hs.kind, hphp ▸ hs.phpBinary, hroot ▸ hs.serverRoot, hurl ▸ hs.url,
      htimeout ▸ hs.timeoutSeconds, husername ▸ hs.username, hpassword ▸ hs.password,
      happs ▸ hs.apps⟩
  exact ⟨hsame h, hsame fun k hk => (h k hk).symm⟩

theorem ofText_eq_ok_iff {env : Environment} {text : String} (htext : doc.Spelled text.toList)
    (hopening : ¬['$', '{'] <:+: text.toList) : ofText env text = .ok s ↔ s.GivenBy doc := by
  have hkept : Placeholder.substitute env text.toList = text.toList := by
    have hkept : Placeholder.substitute env (text.toList ++ []) = text.toList ++ [] :=
      Placeholder.substitute_append_of_no_opening hopening nofun
    rwa [List.append_nil] at hkept
  obtain ⟨t, ht, hholds⟩ := Sections.tableOfChars_eq htext
  rw [ofText, hkept, ofDocument_eq_ok_iff, ← matches_iff_givenBy, ← ofTable_eq_ok_iff hholds]
  constructor
  · rintro ⟨t', ht', hs⟩
    obtain rfl := Except.ok.inj (ht.symm.trans ht')
    exact hs
  · exact fun hs => ⟨t, ht, hs⟩

/-- A document of sections is accepted just when it is complete, and gives the settings that are in
it. -/
theorem ofText_of_sections (env : Environment) (doc : Sections) (text : String)
    (htext : doc.Spelled text.toList) (hopening : ¬['$', '{'] <:+: text.toList) :
    ((∃ s, ofText env text = .ok s) ↔ Complete doc) ∧
      (∀ s, ofText env text = .ok s ↔ s.GivenBy doc) ∧
      (∀ f, ofText env text = .error f → ∃ fault, f = .toml fault) ∧
      ∀ (env' : Environment) (doc' : Sections) (text' : String), doc'.Spelled text'.toList →
        (¬['$', '{'] <:+: text'.toList) →
        (∀ k ∈ keys, ∀ p, (∃ es, (k.1, es) ∈ doc'.toList ∧ (k.2, p) ∈ es) ↔
          ∃ es, (k.1, es) ∈ doc.toList ∧ (k.2, p) ∈ es) →
        (ofText env' text').toOption = (ofText env text).toOption := by
  refine ⟨?_, fun s => ofText_eq_ok_iff htext hopening, fun f hf => ?_,
    fun env' doc' text' htext' hopening' hsame => ?_⟩
  · rw [← exists_givenBy_iff]
    exact exists_congr fun s => ofText_eq_ok_iff htext hopening
  · unfold ofText ofDocument at hf
    split at hf
    · exact nomatch hf
    · exact ⟨_, (Except.error.inj hf).symm⟩
  · have hvalues : ∀ k ∈ keys, doc'.value? k.1 k.2 = doc.value? k.1 k.2 := by
      refine fun k hk => Option.ext fun p => ?_
      rw [Sections.value?_eq_some_iff, Sections.value?_eq_some_iff]
      exact hsame k hk p
    refine Option.ext fun s => ?_
    rw [toOption_eq_some_iff, toOption_eq_some_iff, ofText_eq_ok_iff htext' hopening',
      ofText_eq_ok_iff htext hopening]
    exact givenBy_congr hvalues

/-- Two documents with the same settings. The second has them in another order, with a comment, an
escape, and entries that are no settings. -/
theorem ofText_of_sections_reordered :
    let env : Environment := fun _ => none
    let text := "[interface]\nkind = \"cli\"\n[accounts]\nadmin_username = \"admin\"\n" ++
      "admin_password = \"p\"\n[run]\napps = [\"files\", \"core\"]"
    let text' := "[run]\nnote = 1_0 # ten\napps = [\"files\", \"core\"]\n[more]\n[accounts]\n" ++
      "admin_password = \"\\u0070\"\nadmin_username = \"admin\"\n[interface]\nkind = \"cli\"\n"
    ofText env text = .ok ⟨{ kind := .cli }, ⟨"admin", "p"⟩, [.files, .core]⟩ ∧
      (ofText env text').toOption = (ofText env text).toOption := by
  intro env text text'
  let doc : Sections := ⟨[("interface", [("kind", .text "cli")]),
    ("accounts", [("admin_username", .text "admin"), ("admin_password", .text "p")]),
    ("run", [("apps", .texts ["files", "core"])])], by decide, by decide⟩
  let doc' : Sections := ⟨[("run", [("note", .integer 10), ("apps", .texts ["files", "core"])]),
    ("more", []), ("accounts", [("admin_password", .text "p"), ("admin_username", .text "admin")]),
    ("interface", [("kind", .text "cli")])], by decide, by decide⟩
  -- names and texts that are written as they are
  have hname {s : String} (h : s.toList ≠ [] ∧ s.toList.all Toml.isBareKeyChar = true) :
      Toml.Called s s.toList := by
    have hbare := Toml.Called.bare h.1 (List.all_eq_true.mp h.2)
    rwa [String.ofList_toList] at hbare
  have hheader (s : String) (h : s.toList ≠ [] ∧ s.toList.all Toml.isBareKeyChar = true) :
      (Toml.Line.header s).Spelled ('[' :: ([] ++ (s.toList ++ ([] ++ [']'])))) :=
    .header Toml.blanks_nil (hname h) Toml.blanks_nil
  have hpair (s : String) (h : s.toList ≠ [] ∧ s.toList.all Toml.isBareKeyChar = true)
      {p : Plain} {vs : List Char} (hp : p.Spelled vs) :
      (Toml.Line.pair s p).Spelled (s.toList ++ ' ' :: '=' :: ' ' :: vs) :=
    .pair (hname h) Toml.blanks_space Toml.blanks_space hp
  have hcontent (s : String)
      (h : (s.toList.all fun c => Toml.isVisible c ∧ c ≠ '"' ∧ c ≠ '\\') = true) :
      Toml.Content s.toList s.toList :=
    .of_plain fun c hc => of_decide_eq_true (List.all_eq_true.mp h c hc)
  have htext (s : String)
      (h : (s.toList.all fun c => Toml.isVisible c ∧ c ≠ '"' ∧ c ≠ '\\') = true) :
      (Plain.text s).Spelled ('"' :: (s.toList ++ ['"'])) :=
    .text (hcontent s h)
  have happs : (Plain.texts ["files", "core"]).Spelled "[\"files\", \"core\"]".toList :=
    .texts (.cons Toml.filler_nil (hcontent "files" (by decide)) Toml.filler_nil
      (.last (.blanks Toml.blanks_space) (hcontent "core" (by decide)) Toml.filler_nil))
  have hten : (Plain.integer 10).Spelled "1_0".toList :=
    .integer (.unsigned ⟨[['1'], ['0']], nofun, by simp, rfl, rfl⟩ (Or.inr (by decide)))
      (by decide) (by decide)
  have hletter : Toml.Content "\\u0070".toList "p".toList :=
    .escape (e := "u0070".toList) (d := 'p') (by decide +kernel) .nil
  have hescape : (Plain.text "p").Spelled "\"\\u0070\"".toList := .text hletter
  have hremark : Toml.LineEnd " # ten\n".toList :=
    ⟨[' '], "# ten".toList, ['\n'], Toml.blanks_space, Or.inr ⟨" ten".toList, rfl,
      List.all_eq_true.mp (by decide)⟩, Or.inl rfl, rfl⟩
  have hdoc : doc.Spelled text.toList := by
    have hlines :=
      Toml.Lines.cons Toml.filler_nil (hheader "interface" (by decide)) Toml.lineEnd_newline <|
      .cons Toml.filler_nil (hpair "kind" (by decide) (htext "cli" (by decide)))
        Toml.lineEnd_newline <|
      .cons Toml.filler_nil (hheader "accounts" (by decide)) Toml.lineEnd_newline <|
      .cons Toml.filler_nil (hpair "admin_username" (by decide) (htext "admin" (by decide)))
        Toml.lineEnd_newline <|
      .cons Toml.filler_nil (hpair "admin_password" (by decide) (htext "p" (by decide)))
        Toml.lineEnd_newline <|
      .cons Toml.filler_nil (hheader "run" (by decide)) Toml.lineEnd_newline <|
      .last Toml.filler_nil (hpair "apps" (by decide) happs) Toml.blanks_nil (Or.inl rfl)
    exact (congrArg (Toml.Lines _) (by decide +kernel)).mp hlines
  have hdoc' : doc'.Spelled text'.toList := by
    have hlines :=
      Toml.Lines.cons Toml.filler_nil (hheader "run" (by decide)) Toml.lineEnd_newline <|
      .cons Toml.filler_nil (hpair "note" (by decide) hten) hremark <|
      .cons Toml.filler_nil (hpair "apps" (by decide) happs) Toml.lineEnd_newline <|
      .cons Toml.filler_nil (hheader "more" (by decide)) Toml.lineEnd_newline <|
      .cons Toml.filler_nil (hheader "accounts" (by decide)) Toml.lineEnd_newline <|
      .cons Toml.filler_nil (hpair "admin_password" (by decide) hescape) Toml.lineEnd_newline <|
      .cons Toml.filler_nil (hpair "admin_username" (by decide) (htext "admin" (by decide)))
        Toml.lineEnd_newline <|
      .cons Toml.filler_nil (hheader "interface" (by decide)) Toml.lineEnd_newline <|
      .cons Toml.filler_nil (hpair "kind" (by decide) (htext "cli" (by decide)))
        Toml.lineEnd_newline <|
      .nil Toml.filler_nil (Or.inl rfl)
    exact (congrArg (Toml.Lines _) (by decide +kernel)).mp hlines
  have hopening : ¬['$', '{'] <:+: text.toList := by decide +kernel
  have hopening' : ¬['$', '{'] <:+: text'.toList := by decide +kernel
  obtain ⟨-, hsettings, -, hother⟩ := ofText_of_sections env doc text hdoc hopening
  refine ⟨(hsettings _).mpr ?_, hother env doc' text' hdoc' hopening' ?_⟩
  · exact ⟨by decide, by decide, by decide, by decide, by decide, by decide, by decide, by decide⟩
  · simp only [← Sections.value?_eq_some_iff]
    have hsame : ∀ k ∈ keys, doc'.value? k.1 k.2 = doc.value? k.1 k.2 := by decide
    exact fun k hk p => by rw [hsame k hk]

end Document

end Settings

end Shakedown
