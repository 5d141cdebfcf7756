import Shakedown.Proofs.Settings.Order
import Shakedown.Proofs.Settings.Reading
import Shakedown.Proofs.Toml.Line

/-!
# A password from the environment

A document may take the password of the administrator from a variable. The value of the variable is
put into the document before that is read, so what reaches the settings is what the document makes
of it: escapes are escapes there.
-/

namespace Shakedown

/-! ### One placeholder in a document -/

namespace Placeholder

variable {env : Environment}

/-- Where no opening is, nothing is substituted. -/
theorem substitute_append_of_no_opening {u z : List Char} (hu : ¬['$', '{'] <:+: u)
    (hz : z.head? ≠ some '{') : substitute env (u ++ z) = u ++ substitute env z := by
  have hopening : ∀ before after, u ≠ before ++ '$' :: '{' :: after := by
    rintro before after rfl
    exact hu ⟨before, after, by simp⟩
  have hfree : Free u [] := by
    rintro before after rfl - name rest ⟨-, -, htext⟩
    rw [List.append_nil] at htext
    exact hopening before _ (congrArg (before ++ ·) htext)
  have hkept : substitute env u = u := by
    rw [substitute_of_scan env (Scan.last hfree)]
    rfl
  rw [substitute_append env (fun before after heq => absurd heq (hopening before after)) hz, hkept]

theorem substitute_variable {name : List Char} (hne : name ≠ []) (hbrace : '}' ∉ name)
    {z : List Char} (hz : z.head? ≠ some '{') :
    substitute env ((Piece.variable_ name).chars ++ z) = valueAt env name ++ substitute env z := by
  have hscan := scan_variable hne hbrace
  have hclosed : Closed (Piece.variable_ name).chars := closed_concat ('$' :: '{' :: name)
  rw [substitute_append env hclosed hz, substitute_of_scan env hscan]
  simp [Decomposition.resolve]

end Placeholder

namespace Settings

open Placeholder (Piece)

/-- A document that is cut before and behind the password of the administrator, on a line of its
own. -/
structure PasswordLine where
  before : List Char
  indent : List Char
  behind : List Char
  before_endsLine : Toml.EndsLine before
  openSection?_before : Toml.openSection? before = some "accounts"
  isSpace_of_mem_indent : ∀ c ∈ indent, Toml.isSpace c = true
  no_opening_before : ¬['$', '{'] <:+: before
  no_opening_behind : ¬['$', '{'] <:+: behind

namespace PasswordLine

/-- The document with a password. -/
def chars (d : PasswordLine) (password : List Char) : List Char :=
  d.before ++ (d.indent ++ Toml.textLine "admin_password".toList password ++ d.behind)

/-- The value of the variable takes the place of its placeholder. -/
theorem substitute_chars (d : PasswordLine) {env : Environment} {name : List Char} (hne : name ≠ [])
    (hbrace : '}' ∉ name) :
    Placeholder.substitute env (d.chars (Piece.variable_ name).chars) =
      d.chars (Placeholder.valueAt env name) := by
  let start := d.indent ++ "admin_password = \"".toList
  have hchars (v : List Char) : d.chars v = d.before ++ (start ++ (v ++ '"' :: d.behind)) := by
    simp [chars, Toml.textLine, start]
  have hmarks : ∀ c ∈ start, c ≠ '$' ∧ c ≠ '{' := by
    intro c hc
    rcases List.mem_append.mp hc with hindent | hkey
    · have hspace := d.isSpace_of_mem_indent c hindent
      constructor <;> (rintro rfl; exact absurd hspace (by decide))
    · have hall : ("admin_password = \"".toList.all fun c => c ≠ '$' ∧ c ≠ '{') = true := by decide
      exact of_decide_eq_true (List.all_eq_true.mp hall c hkey)
  have hstart : ¬['$', '{'] <:+: start := fun hopening =>
    (hmarks '$' (hopening.subset List.mem_cons_self)).1 rfl
  have hbehind : ¬['$', '{'] <:+: '"' :: d.behind := by
    rw [List.infix_cons_iff]
    rintro (hstarts | hinfix)
    · exact absurd (List.cons_prefix_cons.mp hstarts).1 (by decide)
    · exact d.no_opening_behind hinfix
  have hhead (z : List Char) : (start ++ z).head? ≠ some '{' := by
    obtain ⟨c, more, hmore⟩ := List.exists_cons_of_ne_nil (l := start) (by simp [start])
    rw [hmore, List.cons_append]
    exact fun heq => (hmarks c (hmore ▸ List.mem_cons_self)).2 (Option.some.inj heq)
  have hvariable : ((Piece.variable_ name).chars ++ '"' :: d.behind).head? ≠ some '{' :=
    fun heq => absurd (Option.some.inj heq) (by decide)
  have hquote : ('"' :: d.behind).head? ≠ some '{' :=
    fun heq => absurd (Option.some.inj heq) (by decide)
  have hlast : Placeholder.substitute env ('"' :: d.behind) = '"' :: d.behind := by
    have hkept : Placeholder.substitute env ('"' :: d.behind ++ []) = '"' :: d.behind ++ [] :=
      Placeholder.substitute_append_of_no_opening hbehind (by simp)
    rwa [List.append_nil] at hkept
  rw [hchars, hchars, Placeholder.substitute_append_of_no_opening d.no_opening_before (hhead _),
    Placeholder.substitute_append_of_no_opening hstart hvariable,
    Placeholder.substitute_variable hne hbrace hquote, hlast]

end PasswordLine

theorem ofDocument_eq_ok_iff {cs : List Char} {s : Settings} :
    ofDocument cs = .ok s ↔
      ∃ t, Toml.tableOfChars cs = .ok t ∧ ofTable ⟨cs.length, 0⟩ t = .ok s := by
  unfold ofDocument
  constructor
  · intro h
    split at h
    · rename_i s' hs
      obtain rfl := Except.ok.inj h
      exact bind_eq_ok_iff.mp hs
    · exact nomatch h
  · intro h
    have hs : (Toml.tableOfChars cs).bind (ofTable ⟨cs.length, 0⟩) = .ok s :=
      bind_eq_ok_iff.mpr h
    rw [hs]

/-- A document with another password gives settings with another password. -/
theorem ofDocument_chars (d : PasswordLine) {v v' w w' : List Char} (hv : v ≠ [])
    (h : Toml.Content v w) (h' : Toml.Content v' w') {s : Settings}
    (hs : ofDocument (d.chars v) = .ok s) :
    ofDocument (d.chars v') = .ok (s.withPassword (String.ofList w')) := by
  obtain ⟨t, ht, hs⟩ := ofDocument_eq_ok_iff.mp hs
  obtain ⟨t', ht', hagree⟩ := Toml.tableOfChars_textLine d.before_endsLine d.openSection?_before
    d.isSpace_of_mem_indent (by decide) (List.all_eq_true.mp (by decide)) hv h h' ht
  exact ofDocument_eq_ok_iff.mpr ⟨t', ht', ofTable_of_agree hagree hs⟩

/-- The letters of the names of variables. -/
abbrev IsNameChar (c : Char) : Prop :=
  c.isUpper = true ∨ c = '_'

theorem IsNameChar.ne {c d : Char} (hc : IsNameChar c) (hd : ¬IsNameChar d) : c ≠ d := by
  rintro rfl
  exact hd hc

theorem IsNameChar.isVisible {c : Char} (hc : IsNameChar c) : Toml.isVisible c = true := by
  rcases hc with hupper | rfl
  · have hrange : 65 ≤ c.toNat ∧ c.toNat ≤ 90 := by
      have hcodes : 'A'.val ≤ c.val ∧ c.val ≤ 'Z'.val := of_decide_eq_true hupper
      simpa [UInt32.le_iff_toNat_le] using hcodes
    have hcode : c.toNat ≠ 127 := by omega
    rw [Toml.isVisible, decide_eq_true (show 32 ≤ c.toNat by omega), decide_eq_true hcode,
      Bool.and_self, Bool.or_true]
  · rfl

/-- A placeholder between quotes stands for itself. -/
theorem content_variable {name : List Char} (hname : ∀ c ∈ name, IsNameChar c) :
    Toml.Content (Piece.variable_ name).chars (Piece.variable_ name).chars := by
  refine Toml.Content.of_plain fun c hc => ?_
  have hcases : c = '$' ∨ c = '{' ∨ c ∈ name ∨ c = '}' := by
    simpa [Piece.chars] using hc
  rcases hcases with rfl | rfl | hmem | rfl
  · exact ⟨rfl, by decide, by decide⟩
  · exact ⟨rfl, by decide, by decide⟩
  · have hc := hname c hmem
    exact ⟨hc.isVisible, hc.ne (by decide), hc.ne (by decide)⟩
  · exact ⟨rfl, by decide, by decide⟩

/-- With a placeholder for the password, a document is read as with the value between the quotes. -/
theorem ofText_of_variable (d : PasswordLine) {name : List Char} (hne : name ≠ [])
    (hname : ∀ c ∈ name, IsNameChar c) {env : Environment} {v : String}
    (hv : env (String.ofList name) = some v) :
    ofText env (String.ofList (d.chars (Piece.variable_ name).chars)) =
        ofDocument (d.chars v.toList) ∧
      ∀ s w, ofDocument (d.chars (Piece.variable_ name).chars) = .ok s →
        Toml.Content v.toList w →
          ofText env (String.ofList (d.chars (Piece.variable_ name).chars)) =
              .ok (s.withPassword (String.ofList w)) ∧
            (String.ofList w = v ↔ '\\' ∉ v.toList) ∧
            ((s.withPassword (String.ofList w)).validatePassword env = .ok () ↔
              ∀ parts, Placeholder.Scan w parts →
                ∀ other ∈ parts.names, env (String.ofList other) ≠ none) := by
  have hbrace : '}' ∉ name := fun hmem => (hname '}' hmem).ne (by decide) rfl
  have hvalue : Placeholder.valueAt env name = v.toList := by
    rw [Placeholder.valueAt, hv]
  have htext : ofText env (String.ofList (d.chars (Piece.variable_ name).chars)) =
      ofDocument (d.chars v.toList) := by
    rw [ofText, String.toList_ofList, d.substitute_chars hne hbrace, hvalue]
  refine ⟨htext, fun s w hs hw => ⟨?_, ?_, ?_⟩⟩
  · rw [htext]
    exact ofDocument_chars d (List.cons_ne_nil _ _) (content_variable hname) hw hs
  · rw [← hw.eq_iff, ← String.toList_inj, String.toList_ofList]
  · rw [validatePassword_eq_ok_iff]
    have hpassword : (s.withPassword (String.ofList w)).accounts.password.toList = w :=
      String.toList_ofList
    rw [hpassword]

/-- The settings that a server on the same machine needs. -/
def PasswordLine.minimal : PasswordLine where
  before := ("[interface]\nkind = \"cli\"\nserver_root = \"/srv\"\n" ++
    "[accounts]\nadmin_username = \"admin\"\n").toList
  indent := []
  behind := "\n".toList
  before_endsLine := List.isSuffixOf_iff_suffix.mp (by decide +kernel)
  openSection?_before := by decide +kernel
  isSpace_of_mem_indent := nofun
  no_opening_before := by decide +kernel
  no_opening_behind := by decide +kernel

/-- A value with an escape for a quote, and with the placeholder of a variable that is not set. -/
theorem ofText_of_variable_escape :
    let cs := PasswordLine.minimal.chars (Piece.variable_ ['A']).chars
    let s : Settings :=
      ⟨{ kind := .cli, serverRoot := some "/srv" }, ⟨"admin", "$\x7bA\x7d"⟩, App.all⟩
    let env := Environment.ofList [("A", "x\\\"$\x7bB\x7d")]
    ofDocument cs = .ok s ∧
      ofText env (String.ofList cs) = .ok (s.withPassword "x\"$\x7bB\x7d") ∧
      (s.withPassword "x\"$\x7bB\x7d").validatePassword env ≠ .ok () := by
  intro cs s env
  have hs : ofDocument cs = .ok s := eq_ok_of_toOption (by decide +kernel)
  have henv : env (String.ofList ['A']) = some "x\\\"$\x7bB\x7d" := by decide +kernel
  have hw : Toml.Content "x\\\"$\x7bB\x7d".toList "x\"$\x7bB\x7d".toList :=
    .plain (by decide) (by decide) (by decide) <| .escape (e := ['"']) rfl <|
      content_variable (List.forall_mem_singleton.mpr (Or.inl rfl))
  obtain ⟨-, hsettings⟩ := ofText_of_variable PasswordLine.minimal (List.cons_ne_nil _ _)
    (List.forall_mem_singleton.mpr (Or.inl rfl)) henv
  obtain ⟨htext, -, hcheck⟩ := hsettings s _ hs hw
  refine ⟨hs, htext, fun hok => ?_⟩
  obtain ⟨parts, hscan⟩ := Placeholder.exists_scan "x\"$\x7bB\x7d".toList
  have hnames : parts.names = [['B']] := hscan.names_eq.symm.trans (by decide +kernel)
  exact hcheck.mp hok parts hscan ['B'] (hnames ▸ List.mem_cons_self) (by decide +kernel)

/-- Other values do not reach the settings as they are, or are refused there. -/
theorem ofText_of_variable_altered :
    let cs := PasswordLine.minimal.chars (Piece.variable_ ['A']).chars
    let read? (v : String) : Option Settings :=
      (ofText (.ofList [("A", v)]) (String.ofList cs)).toOption
    (ofDocument cs).toOption ≠ none ∧
      read? "a\"b" = none ∧ read? "a\nb" = none ∧ read? "a\\qb" = none ∧
      (read? "a\" #").map (·.accounts.password) = some "a" ∧
      (read? "a\\tb").map (·.accounts.password) = some "a\tb" ∧
      (read? "$\x7bB\x7d").map (fun s =>
        (s.validatePassword (.ofList [("A", "$\x7bB\x7d")])).toOption) = some none := by
  decide +kernel

end Settings

end Shakedown
