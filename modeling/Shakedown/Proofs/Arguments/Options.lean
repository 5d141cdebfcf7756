import Shakedown.Proofs.App.Naming
import Shakedown.Proofs.Result
import Shakedown.Proofs.Text.Split

/-!
# Command lines of long options

On such a line each option is one argument, and stands for something by itself. So what the line
says does not depend on how its options are mixed: only the lists of apps, which add up, keep their
order. A line is refused for a piece of such a list that is no name of an app.
-/

namespace Shakedown.Arguments

def Flag.name : Flag → String
  | verbose => "verbose"
  | jsonLogs => "json-logs"
  | json => "json"
  | dryRun => "dry-run"
  | help => "help"

/-- A long option, with its value behind an equals sign. A list of apps is given by its pieces. -/
inductive LongOption where
  | config (path : String)
  | interface (kind : Kind)
  | apps (pieces : List (List Char))
  | flag (f : Flag)
  deriving DecidableEq

namespace LongOption

def key : LongOption → Parameter ⊕ Flag
  | config _ => .inl .config
  | interface _ => .inl .interface
  | apps _ => .inl .apps
  | flag f => .inr f

/-- The argument that an option is written as, with commas between the pieces of a list. -/
def text : LongOption → String
  | config path => "--config=" ++ path
  | interface kind => "--interface=" ++ kind.name
  | apps pieces => "--apps=" ++ String.ofList (Text.join [','] pieces)
  | flag f => "--" ++ f.name

def pieces : LongOption → List (List Char)
  | apps pieces => pieces
  | _ => []

@[simp]
def config? : LongOption → Option String
  | config path => some path
  | _ => none

@[simp]
def interface? : LongOption → Option Kind
  | interface kind => some kind
  | _ => none

@[simp]
def flag? : LongOption → Option Flag
  | flag f => some f
  | _ => none

/-- A list has a piece, if only an empty one, and no comma within a piece. Help is no option of a
run. -/
def WellFormed : LongOption → Prop
  | apps pieces => pieces ≠ [] ∧ ∀ p ∈ pieces, ',' ∉ p
  | flag f => f ≠ .help
  | _ => True

end LongOption

/-- On a line only the lists of apps may be there more than once. -/
structure Orderly (line : List LongOption) : Prop where
  wellFormed : ∀ o ∈ line, o.WellFormed
  once : line.Pairwise fun o o' => o.key = o'.key → o.key = .inl .apps

/-! ### The pieces -/

/-- Reads the apps that pieces are the names of. -/
def readPieces (pieces : List (List Char)) : Except UsageError (List App) :=
  pieces.mapM Draft.readPiece

section Pieces

variable {p : List Char} {pieces : List (List Char)} {apps : List App} {e : UsageError}

theorem readPiece_eq_ok_iff {a : App} : Draft.readPiece p = .ok a ↔ App.Spells p a := by
  rw [← @String.toList_ofList p, ← App.ofText_eq_ok_iff, String.toList_ofList, Draft.readPiece]
  cases App.ofText (String.ofList p) <;> simp

theorem eq_of_readPiece (h : Draft.readPiece p = .error e) : e = .unreadableValue := by
  unfold Draft.readPiece at h
  cases hread : App.ofText (String.ofList p) with
  | ok a =>
    rw [hread] at h
    exact nomatch h
  | error f =>
    rw [hread] at h
    exact (Except.error.inj h).symm

theorem readPieces_eq_ok_iff :
    readPieces pieces = .ok apps ↔ List.Forall₂ App.Spells pieces apps := by
  rw [readPieces, mapM_eq_ok_iff_forall₂]
  simp only [readPiece_eq_ok_iff]

theorem eq_of_readPieces (h : readPieces pieces = .error e) : e = .unreadableValue := by
  obtain ⟨p, -, hp⟩ := exists_mem_of_mapM_eq_error h
  exact eq_of_readPiece hp

theorem readPieces_append (ps qs : List (List Char)) :
    readPieces (ps ++ qs) =
      (readPieces ps).bind fun apps => (readPieces qs).map fun more => apps ++ more := by
  unfold readPieces
  rw [List.mapM_append]
  rfl

theorem exists_readPieces_iff :
    (∃ apps, readPieces pieces = .ok apps) ↔ ∀ p ∈ pieces, ∃ a, App.Spells p a := by
  constructor
  · rintro ⟨apps, h⟩ p hp
    obtain ⟨a, -, ha⟩ := exists_mem_of_forall₂ (readPieces_eq_ok_iff.mp h) hp
    exact ⟨a, ha⟩
  · intro h
    cases hread : readPieces pieces with
    | ok apps => exact ⟨apps, rfl⟩
    | error e =>
      obtain ⟨p, hp, hfails⟩ := exists_mem_of_mapM_eq_error hread
      obtain ⟨a, ha⟩ := h p hp
      exact nomatch hfails.symm.trans (readPiece_eq_ok_iff.mpr ha)

end Pieces

/-! ### What a draft takes -/

namespace Draft

/-- Options can follow: nothing is awaited as the next argument. -/
structure Open (d : Draft) : Prop where
  pending : d.pending = none
  closed : d.closed = false

/-- Nothing that may be there once was given for a key. -/
def Lacks (d : Draft) : Parameter ⊕ Flag → Prop
  | .inl .config => d.config = none
  | .inl .interface => d.interface = none
  | .inl .apps => True
  | .inr f => f ∉ d.flags

/-- The draft with what options say besides, where their pieces are the names of these apps. -/
def having (d : Draft) (line : List LongOption) (apps : List App) : Draft :=
  { d with
    config := d.config.or (line.findSome? LongOption.config?)
    interface := d.interface.or (line.findSome? LongOption.interface?)
    apps := d.apps ++ apps
    flags := (line.filterMap LongOption.flag?).reverse ++ d.flags }

variable {d : Draft} {o : LongOption} {line : List LongOption}

theorem having_having (d : Draft) (xs ys : List LongOption) (as bs : List App) :
    (d.having xs as).having ys bs = d.having (xs ++ ys) (as ++ bs) := by
  simp [having, List.findSome?_append, Option.or_assoc]

theorem mem_flags_having {f : Flag} {apps : List App} :
    f ∈ (d.having line apps).flags ↔ .flag f ∈ line ∨ f ∈ d.flags := by
  have hflag : f ∈ line.filterMap LongOption.flag? ↔ .flag f ∈ line := by
    rw [List.mem_filterMap]
    constructor
    · rintro ⟨o, ho, hf⟩
      cases o with
      | flag g =>
        obtain rfl := Option.some.inj hf
        exact ho
      | _ => exact nomatch hf
    · exact fun h => ⟨_, h, rfl⟩
  change f ∈ (line.filterMap LongOption.flag?).reverse ++ d.flags ↔ _
  rw [List.mem_append, List.mem_reverse, hflag]

theorem Open.having (h : d.Open) (line : List LongOption) (apps : List App) :
    (d.having line apps).Open :=
  ⟨h.pending, h.closed⟩

theorem Lacks.having {k : Parameter ⊕ Flag} (h : d.Lacks k) (hkey : o.key = k → k = .inl .apps)
    (apps : List App) : (d.having [o] apps).Lacks k := by
  rcases k with (_ | _ | _) | f
  · cases o with
    | config path => exact nomatch hkey rfl
    | _ => simpa [Lacks, Draft.having] using h
  · cases o with
    | interface kind => exact nomatch hkey rfl
    | _ => simpa [Lacks, Draft.having] using h
  · trivial
  · rw [Lacks, mem_flags_having, List.mem_singleton]
    rintro (rfl | hmem)
    · exact nomatch hkey rfl
    · exact h hmem

theorem settle_of_open (h : d.Open) : d.settle = .ok d := by
  rw [settle, h.pending]

theorem attach_of_open (h : d.Open) (p : Parameter) (value : String) :
    d.attach p value = d.assign p value := by
  rw [attach, settle_of_open h]
  rfl

theorem raise_of_open (h : d.Open) {f : Flag} (hhelp : f ≠ .help) (hfree : f ∉ d.flags) :
    d.raise f = .ok { d with flags := f :: d.flags } := by
  have hcontains : ¬d.flags.contains f = true := fun hmem => hfree (List.contains_iff_mem.mp hmem)
  rw [raise, settle_of_open h]
  change (if f = .help then _ else if d.flags.contains f then _ else _) = _
  rw [if_neg hhelp, if_neg hcontains]
  rfl

/-- An argument behind two dashes is an option, with its value behind the first equals sign. -/
theorem add_of_dashes (hopen : d.Open) {s : String} {c : Char} {cs : List Char}
    (hs : s.toList = '-' :: '-' :: c :: cs) :
    d.add s = d.addLong (String.ofList ((c :: cs).takeWhile (· ≠ '=')))
      (match (c :: cs).dropWhile (· ≠ '=') with
        | _ :: value => some (String.ofList value)
        | [] => none) := by
  rw [add, hopen.closed, hs]
  rfl

theorem forall_ne_of_not_mem {c : Char} {cs : List Char} (h : c ∉ cs) :
    ∀ x ∈ cs, decide (x ≠ c) = true := by
  intro x hx
  rw [decide_eq_true_eq]
  rintro rfl
  exact h hx

theorem add_valued (hopen : d.Open) {s name value : String} (hne : name.toList ≠ [])
    (hname : '=' ∉ name.toList)
    (hs : s.toList = '-' :: '-' :: (name.toList ++ '=' :: value.toList)) :
    d.add s = d.addLong name (some value) := by
  have hother := forall_ne_of_not_mem hname
  obtain ⟨c, cs, hcs⟩ := List.exists_cons_of_ne_nil hne
  have htake : (name.toList ++ '=' :: value.toList).takeWhile (· ≠ '=') = name.toList := by
    rw [List.takeWhile_append_of_pos hother, List.takeWhile_cons_of_neg (by decide),
      List.append_nil]
  have hdrop : (name.toList ++ '=' :: value.toList).dropWhile (· ≠ '=') = '=' :: value.toList := by
    rw [List.dropWhile_append_of_pos hother, List.dropWhile_cons_of_neg (by decide)]
  rw [hcs, List.cons_append] at hs htake hdrop
  rw [add_of_dashes hopen hs, htake, hdrop, ← hcs, String.ofList_toList]
  simp only [String.ofList_toList]

theorem add_bare (hopen : d.Open) {s name : String} (hne : name.toList ≠ [])
    (hname : '=' ∉ name.toList) (hs : s.toList = '-' :: '-' :: name.toList) :
    d.add s = d.addLong name none := by
  have hother := forall_ne_of_not_mem hname
  obtain ⟨c, cs, hcs⟩ := List.exists_cons_of_ne_nil hne
  rw [hcs] at hs hother
  rw [add_of_dashes hopen hs, List.takeWhile_eq_self_iff.mpr hother,
    List.dropWhile_eq_nil_iff.mpr hother, ← hcs, String.ofList_toList]

theorem appsOf_join {pieces : List (List Char)} (hne : pieces ≠ [])
    (hcomma : ∀ p ∈ pieces, ',' ∉ p) :
    appsOf (String.ofList (Text.join [','] pieces)) = readPieces pieces := by
  rw [appsOf, String.toList_ofList, Text.split_join hne hcomma, readPieces]

/-- Each option adds what it says, if its pieces are names. -/
theorem add_text (hopen : d.Open) (ho : o.WellFormed) (hlacks : d.Lacks o.key) :
    d.add o.text = (readPieces o.pieces).map (d.having [o]) := by
  cases o with
  | config path =>
    have hnone : d.config = none := hlacks
    calc d.add ("--config=" ++ path)
      _ = d.addLong "config" (some path) :=
        add_valued hopen (by decide) (by decide) (by simp)
      _ = d.assign .config path := attach_of_open hopen .config path
      _ = .ok { d with config := some path } := by rw [assign, hnone]; rfl
      _ = .ok (d.having [.config path] []) := by
        simp [Draft.having, hnone]
  | interface kind =>
    have hnone : d.interface = none := hlacks
    have hkind : Kind.ofName? kind.name = some kind := Kind.ofName?_eq_some_iff.mpr rfl
    calc d.add ("--interface=" ++ kind.name)
      _ = d.addLong "interface" (some kind.name) :=
        add_valued hopen (by decide) (by decide) (by simp)
      _ = d.assign .interface kind.name := attach_of_open hopen .interface kind.name
      _ = .ok { d with interface := some kind } := by rw [assign, hnone, hkind]; rfl
      _ = .ok (d.having [.interface kind] []) := by
        simp [Draft.having, hnone]
  | apps pieces =>
    obtain ⟨hne, hcomma⟩ := ho
    calc d.add ("--apps=" ++ String.ofList (Text.join [','] pieces))
      _ = d.addLong "apps" (some (String.ofList (Text.join [','] pieces))) :=
        add_valued hopen (by decide) (by decide) (by simp)
      _ = d.assign .apps (String.ofList (Text.join [','] pieces)) := attach_of_open hopen .apps _
      _ = (readPieces pieces).map fun apps => { d with apps := d.apps ++ apps } := by
        rw [assign, appsOf_join hne hcomma]
      _ = (readPieces pieces).map (d.having [.apps pieces]) := by
        congr 1
        funext apps
        simp [Draft.having]
  | flag f =>
    have hhelp : f ≠ .help := ho
    have hfree : f ∉ d.flags := hlacks
    calc d.add ("--" ++ f.name)
      _ = d.addLong f.name none :=
        add_bare hopen (by cases f <;> decide) (by cases f <;> decide) (by simp)
      _ = d.raise f := by cases f <;> rfl
      _ = .ok { d with flags := f :: d.flags } := raise_of_open hopen hhelp hfree
      _ = .ok (d.having [.flag f] []) := by
        simp [Draft.having]

end Draft

/-! ### Whole lines -/

section Lines

variable {line : List LongOption} {o : LongOption}

theorem Orderly.tail (h : Orderly (o :: line)) : Orderly line :=
  ⟨fun o' ho' => h.wellFormed o' (List.mem_cons_of_mem o ho'), (List.pairwise_cons.mp h.once).2⟩

/-- By induction on the line: what the first option says stands in the way of none behind it. -/
theorem Draft.addAll_text {d : Draft} (hopen : d.Open) (horderly : Orderly line)
    (hlacks : ∀ o ∈ line, d.Lacks o.key) :
    d.addAll (line.map LongOption.text) =
      (readPieces (line.flatMap LongOption.pieces)).map (d.having line) := by
  induction line generalizing d with
  | nil =>
    change Except.ok d = .ok (d.having [] [])
    simp [having]
  | cons o line ih =>
    obtain ⟨hfirst, hrest⟩ := List.forall_mem_cons.mp hlacks
    have hadd := add_text hopen (horderly.wellFormed o List.mem_cons_self) hfirst
    rw [List.map_cons, addAll, hadd, List.flatMap_cons, readPieces_append]
    cases readPieces o.pieces with
    | error e => rfl
    | ok apps =>
      have hlacks' : ∀ o' ∈ line, (d.having [o] apps).Lacks o'.key := by
        intro o' ho'
        have honce := (List.pairwise_cons.mp horderly.once).1 o' ho'
        exact (hrest o' ho').having (fun hkey => hkey ▸ honce hkey) apps
      change (d.having [o] apps).addAll (line.map LongOption.text) =
        ((readPieces (line.flatMap LongOption.pieces)).map fun more => apps ++ more).map
          (d.having (o :: line))
      rw [ih (hopen.having [o] apps) horderly.tail hlacks']
      cases readPieces (line.flatMap LongOption.pieces) with
      | error e => rfl
      | ok more => exact congrArg Except.ok (having_having d [o] line apps more)

/-- What a line asks for, where its pieces are the names of these apps. -/
def saying (line : List LongOption) (apps : List App) : Arguments where
  config := (line.findSome? LongOption.config?).getD "harness.toml"
  interface := line.findSome? LongOption.interface?
  apps := apps
  verbose := decide (.flag .verbose ∈ line)
  jsonLogs := decide (.flag .jsonLogs ∈ line)
  json := decide (.flag .json ∈ line)
  dryRun := decide (.flag .dryRun ∈ line)

theorem finish_having (line : List LongOption) (apps : List App) :
    (({} : Draft).having line apps).finish = .ok (saying line apps) := by
  have hflag (f : Flag) : (({} : Draft).having line apps).flags.contains f =
      decide (.flag f ∈ line) := by
    rw [Bool.eq_iff_iff, List.contains_iff_mem, decide_eq_true_eq, Draft.mem_flags_having]
    exact or_iff_left List.not_mem_nil
  rw [Draft.finish, Draft.settle_of_open ⟨rfl, rfl⟩]
  change Except.ok (Arguments.mk _ _ _ _ _ _ _) = _
  rw [hflag, hflag, hflag, hflag]
  rfl

/-- A line is read as what its options say, if its pieces are names. -/
theorem parse_text (horderly : Orderly line) :
    parse (line.map LongOption.text) =
      (readPieces (line.flatMap LongOption.pieces)).map (saying line) := by
  have hlacks : ∀ o ∈ line, ({} : Draft).Lacks o.key := by
    intro o _
    rcases o.key with (_ | _ | _) | f
    · rfl
    · rfl
    · trivial
    · exact List.not_mem_nil
  rw [parse, Draft.addAll_text ⟨rfl, rfl⟩ horderly hlacks]
  cases readPieces (line.flatMap LongOption.pieces) with
  | error e => rfl
  | ok apps => exact finish_having line apps

theorem pieces_ne_nil (horderly : Orderly line) {ps : List (List Char)} (h : .apps ps ∈ line) :
    line.flatMap LongOption.pieces ≠ [] := by
  obtain ⟨hne, -⟩ : LongOption.WellFormed (.apps ps) := horderly.wellFormed _ h
  intro hnil
  exact hne (List.flatMap_eq_nil_iff.mp hnil _ h)

theorem pieces_eq_nil (h : ∀ ps, .apps ps ∉ line) : line.flatMap LongOption.pieces = [] := by
  rw [List.flatMap_eq_nil_iff]
  intro o ho
  cases o with
  | apps ps => exact absurd ho (h ps)
  | _ => rfl

theorem interface?_eq_none (h : ∀ kind, .interface kind ∉ line) :
    line.findSome? LongOption.interface? = none := by
  rw [List.findSome?_eq_none_iff]
  intro o ho
  cases o with
  | interface kind => exact absurd ho (h kind)
  | _ => rfl

theorem interface?_eq_some (horderly : Orderly line) {kind : Kind} (h : .interface kind ∈ line) :
    line.findSome? LongOption.interface? = some kind := by
  induction line with
  | nil => exact nomatch h
  | cons o line ih =>
    rcases List.mem_cons.mp h with rfl | h
    · rfl
    -- No option before the interface is another interface.
    · have honce := (List.pairwise_cons.mp horderly.once).1 _ h
      have hnone : o.interface? = none := by
        cases o with
        | interface kind' => exact nomatch honce rfl
        | _ => rfl
      rw [List.findSome?_cons, hnone]
      exact ih horderly.tail h

end Lines

/-! ### What a line changes -/

theorem override_override (a : Arguments) (s : Settings) :
    a.override (a.override s) = a.override s := by
  unfold override
  cases a.interface <;> cases a.apps <;> rfl

/-- The settings differ only in what the options of a line override: its apps stand in the place of
all apps before, and its interface in the place of the selected one. -/
structure Overridden (line : List LongOption) (named : List App) (s s' : Settings) : Prop where
  apps : (∃ ps, .apps ps ∈ line) → s'.apps = named
  noApps : (∀ ps, .apps ps ∉ line) → s'.apps = s.apps
  kind : ∀ kind, .interface kind ∈ line → s'.interface.kind = kind
  noKind : (∀ kind, .interface kind ∉ line) → s'.interface.kind = s.interface.kind
  rest : s' = { s with
    interface := { s.interface with kind := s'.interface.kind }
    apps := s'.apps }

theorem overridden_of_saying {line : List LongOption} (horderly : Orderly line) {named : List App}
    (hnamed : List.Forall₂ App.Spells (line.flatMap LongOption.pieces) named) (s : Settings) :
    Overridden line named s ((saying line named).override s) where
  apps := by
    rintro ⟨ps, hps⟩
    have hne : named ≠ [] := by
      rintro rfl
      exact pieces_ne_nil horderly hps (List.forall₂_nil_right_iff.mp hnamed)
    exact if_neg fun hempty => hne (List.isEmpty_iff.mp hempty)
  noApps := by
    intro hnone
    rw [pieces_eq_nil hnone, List.forall₂_nil_left_iff] at hnamed
    exact if_pos (List.isEmpty_iff.mpr hnamed)
  kind := by
    intro kind hkind
    change (line.findSome? LongOption.interface?).getD s.interface.kind = kind
    rw [interface?_eq_some horderly hkind, Option.getD_some]
  noKind := by
    intro hnone
    change (line.findSome? LongOption.interface?).getD s.interface.kind = s.interface.kind
    rw [interface?_eq_none hnone, Option.getD_none]
  rest := rfl

/-- A line of options is taken just if each piece of its lists spells an app, and these override
others. -/
theorem parse_of_options (line : List LongOption) (horderly : Orderly line) (s : Settings) :
    let pieces := line.flatMap LongOption.pieces
    let arguments := line.map LongOption.text
    ((∃ a, parse arguments = .ok a) ↔ ∀ p ∈ pieces, ∃ app, App.Spells p app) ∧
      (∀ p ∈ pieces, (∀ app, ¬App.Spells p app) → parse arguments = .error .unreadableValue) ∧
      ∀ a, parse arguments = .ok a →
        (∃ named, List.Forall₂ App.Spells pieces named ∧ Overridden line named s (a.override s)) ∧
          a.override (a.override s) = a.override s := by
  intro pieces arguments
  have hparse : parse arguments = (readPieces pieces).map (saying line) := parse_text horderly
  refine ⟨?_, ?_, ?_⟩
  · rw [hparse, ← exists_readPieces_iff]
    simp only [map_eq_ok_iff]
    exact ⟨fun ⟨_, apps, h, _⟩ => ⟨apps, h⟩, fun ⟨apps, h⟩ => ⟨_, apps, h, rfl⟩⟩
  · intro p hp hnone
    rw [hparse]
    cases hread : readPieces pieces with
    | ok apps =>
      obtain ⟨app, happ⟩ := exists_readPieces_iff.mp ⟨apps, hread⟩ p hp
      exact absurd happ (hnone app)
    | error e =>
      rw [eq_of_readPieces hread]
      rfl
  · intro a ha
    rw [hparse, map_eq_ok_iff] at ha
    obtain ⟨named, hread, rfl⟩ := ha
    have hnamed := readPieces_eq_ok_iff.mp hread
    exact ⟨⟨named, hnamed, overridden_of_saying horderly hnamed s⟩, override_override _ s⟩

/-- Two lists, with a flag and the interface between them, name three apps, one of them twice. -/
theorem parse_of_options_mixed :
    let line : List LongOption := [.flag .json, .apps ["core".toList, "\tFiles ".toList],
      .interface .http, .config "ci.toml", .apps ["CORE".toList]]
    let s : Settings := ⟨{ kind := .cli }, ⟨"admin", "secret"⟩, [.accounts]⟩
    Orderly line ∧ ∃ a, parse ["--json", "--apps=core,\tFiles ", "--interface=http",
      "--config=ci.toml", "--apps=CORE"] = .ok a ∧
        (a.override s).apps = [.core, .files, .core] ∧ (a.override s).interface.kind = .http := by
  intro line s
  have horderly : Orderly line := by
    refine ⟨?_, by decide⟩
    intro o ho
    simp only [line, List.mem_cons, List.not_mem_nil, or_false] at ho
    rcases ho with rfl | rfl | rfl | rfl | rfl
    · exact nofun
    · exact ⟨nofun, by decide⟩
    · trivial
    · trivial
    · exact ⟨nofun, by decide⟩
  have hnamed : readPieces (line.flatMap LongOption.pieces) = .ok [.core, .files, .core] := by
    decide
  obtain ⟨hreads, -, hover⟩ := parse_of_options line horderly s
  obtain ⟨a, ha⟩ := hreads.mpr (exists_readPieces_iff.mp ⟨_, hnamed⟩)
  obtain ⟨⟨named, hspells, hs⟩, -⟩ := hover a ha
  obtain rfl := Except.ok.inj (hnamed.symm.trans (readPieces_eq_ok_iff.mpr hspells))
  refine ⟨horderly, a, ?_, hs.apps ⟨["CORE".toList], by decide⟩, hs.kind .http (by decide)⟩
  rw [← ha]
  rfl

/-- The empty piece behind a comma is no name. -/
example : parse ["--apps=core,", "--json"] = .error .unreadableValue := by
  rfl

end Shakedown.Arguments
