import Shakedown.Proofs.Toml.Section
import Shakedown.Proofs.Toml.Text

/-!
# A document with one text exchanged

The text stands on a line of its own, behind complete lines that leave a section open. What the line
and the rest say does not depend on the text, and the table of the document depends on it in one
place only.
-/

namespace Shakedown.Toml

/-! ### Statements where they stand -/

theorem Extent.shift_zero (e : Extent) : e.shift 0 = e := rfl

theorem Key.shift_zero (path : List Key) : path.map (Key.shift 0) = path :=
  List.map_id' path

mutual

theorem Written.shift_zero : ∀ w : Written, w.shift 0 = w
  | .scalar cs extent => by rw [Written.shift, Extent.shift_zero]
  | .array items extent => by rw [Written.shift, shiftItems_zero items, Extent.shift_zero]
  | .table entries extent => by rw [Written.shift, shiftEntries_zero entries, Extent.shift_zero]

theorem shiftItems_zero : ∀ items : List Written, shiftItems 0 items = items
  | [] => rfl
  | item :: rest => by rw [shiftItems, Written.shift_zero item, shiftItems_zero rest]

theorem shiftEntries_zero : ∀ entries : List (List Key × Written), shiftEntries 0 entries = entries
  | [] => rfl
  | (path, value) :: rest => by
    rw [shiftEntries, Key.shift_zero, Written.shift_zero value, shiftEntries_zero rest]

end

theorem Statement.shift_zero (s : Statement) : s.shift 0 = s := by
  cases s with
  | header ofArray path extent => rw [Statement.shift, Key.shift_zero, Extent.shift_zero]
  | pair path value => rw [Statement.shift, Key.shift_zero, Written.shift_zero]

theorem Statement.twins_shift (n m : Nat) (statements : List Statement) :
    List.Forall₂ Statement.Twin (statements.map (Statement.shift n))
      (statements.map (Statement.shift m)) := by
  induction statements with
  | nil => exact .nil
  | cons s rest ih => exact .cons (s.twin_shift n m) ih

theorem Statement.twins_refl (statements : List Statement) :
    List.Forall₂ Statement.Twin statements statements := by
  induction statements with
  | nil => exact .nil
  | cons s rest ih => exact .cons (.refl s) ih

/-! ### Drafts -/

section Draft

variable {d e : Draft}

theorem Draft.addAll_append {first second : List Statement} :
    d.addAll (first ++ second) = .ok e ↔
      ∃ between, d.addAll first = .ok between ∧ between.addAll second = .ok e := by
  induction first generalizing d with
  | nil => exact ⟨fun h => ⟨d, rfl, h⟩, fun ⟨_, hd, h⟩ => Except.ok.inj hd ▸ h⟩
  | cons s rest ih =>
    constructor
    · intro h
      obtain ⟨next, hnext, h⟩ := bind_eq_ok_iff.mp h
      obtain ⟨between, hbetween, h⟩ := ih.mp h
      exact ⟨between, bind_eq_ok_iff.mpr ⟨next, hnext, hbetween⟩, h⟩
    · rintro ⟨between, hbetween, h⟩
      obtain ⟨next, hnext, hbetween⟩ := bind_eq_ok_iff.mp hbetween
      exact bind_eq_ok_iff.mpr ⟨next, hnext, ih.mpr ⟨between, hbetween, h⟩⟩

theorem Draft.add_hasValue {s : Statement} (h : d.add s = .ok e) : s.HasValue := by
  cases s with
  | header ofArray path extent => exact trivial
  | pair path written =>
    obtain ⟨_, -, h⟩ := bind_eq_ok_iff.mp h
    obtain ⟨value, hvalue, -⟩ := bind_eq_ok_iff.mp h
    exact ⟨value, hvalue⟩

/-- Statements that go into a table have values. -/
theorem Draft.addAll_hasValue {statements : List Statement} (h : d.addAll statements = .ok e) :
    ∀ s ∈ statements, s.HasValue := by
  induction statements generalizing d with
  | nil => exact nofun
  | cons s rest ih =>
    obtain ⟨next, hnext, h⟩ := bind_eq_ok_iff.mp h
    intro t ht
    rcases List.mem_cons.mp ht with rfl | hrest
    · exact Draft.add_hasValue hnext
    · exact ih h t hrest

end Draft

/-! ### The section that is open -/

/-- The section of the root that a document leaves open. -/
def openSection? (cs : List Char) : Option String :=
  match (readStatements? cs).map ({} : Draft).addAll with
  | some (.ok d) => d.header.bind fun h =>
    if h.ofArray = false ∧ h.way = [] then some h.name.text else none
  | _ => none

theorem openSection?_eq_some_iff {cs : List Char} {name : String} :
    openSection? cs = some name ↔
      ∃ statements d h, readStatements? cs = some statements ∧
        ({} : Draft).addAll statements = .ok d ∧ d.header = some h ∧
        h.ofArray = false ∧ h.way = [] ∧ h.name.text = name := by
  constructor
  · intro h
    unfold openSection? at h
    split at h
    · rename_i d hd
      obtain ⟨statements, hread, hadd⟩ := Option.map_eq_some_iff.mp hd
      obtain ⟨header, hheader, h⟩ := Option.bind_eq_some_iff.mp h
      split at h
      · rename_i hplain
        exact ⟨statements, d, header, hread, hadd, hheader, hplain.1, hplain.2,
          Option.some.inj h⟩
      · exact nomatch h
    · exact nomatch h
  · rintro ⟨statements, d, header, hread, hadd, hheader, harray, hway, rfl⟩
    unfold openSection?
    rw [hread, Option.map_some, hadd]
    dsimp only
    rw [hheader, Option.bind_some, if_pos ⟨harray, hway⟩]

theorem tableOfChars_eq_ok_iff {cs : List Char} {t : Table} :
    tableOfChars cs = .ok t ↔
      ∃ statements d, readStatements? cs = some statements ∧
        ({} : Draft).addAll statements = .ok d ∧ d.close = .ok t := by
  unfold tableOfChars
  constructor
  · intro h
    split at h
    · exact nomatch h
    · rename_i statements hread
      obtain ⟨d, hadd, hclose⟩ := bind_eq_ok_iff.mp h
      exact ⟨statements, d, hread, hadd, hclose⟩
  · rintro ⟨statements, d, hread, hadd, hclose⟩
    rw [hread]
    exact bind_eq_ok_iff.mpr ⟨d, hadd, hclose⟩

/-! ### The text exchanged -/

theorem head?_ne_of_endLine? {z rest : List Char} (h : endLine? z = some rest) :
    z.head? ≠ some '"' := by
  cases z with
  | nil => exact nofun
  | cons c more =>
    intro hc
    obtain rfl := Option.some.inj hc
    exact nomatch h

/-- Drafts of the same statements agree when one pair of an open section gives a text of its own in
each. -/
theorem Draft.addAll_text {statements later : List Statement} {d f : Draft} {header : Header}
    (hadd : ({} : Draft).addAll statements = .ok d) (hheader : d.header = some header)
    (harray : header.ofArray = false) (hway : header.way = []) {k k' : Key} {key s w : String}
    (hk : k.name? = some key) (hk' : k'.name? = some key) {written written' : Written}
    (hs : written.value? = .ok (.text s)) (hw : written'.value? = .ok (.text w)) {n m : Nat}
    (h : ({} : Draft).addAll
      (statements.map (Statement.shift n) ++ .pair [k] written :: later) = .ok f) :
    ∃ f', ({} : Draft).addAll
        (statements.map (Statement.shift m) ++ .pair [k'] written' :: later) = .ok f' ∧
      Draft.Agree w (some [header.name.text, key]) f f' := by
  obtain ⟨d₁, hd₁, h⟩ := Draft.addAll_append.mp h
  obtain ⟨e₁, he₁, h⟩ := bind_eq_ok_iff.mp h
  -- the section is the one that the statements leave open where they stand alone
  have hzero : statements.map (Statement.shift 0) = statements := by
    rw [funext Statement.shift_zero]
    exact List.map_id' statements
  obtain ⟨_, hadd₁, hagree₁⟩ :=
    (Draft.Agree.empty (w := w)).addAll (Statement.twins_shift 0 n statements) (hzero.symm ▸ hadd)
  obtain rfl := Except.ok.inj (hd₁.symm.trans hadd₁)
  obtain ⟨header₁, hheader₁, htwin⟩ := hagree₁.header_of_some hheader
  -- the pairs are added, and the rest
  have hsorted : d₁.Sorted := Draft.Sorted.addAll ⟨.nil, fun _ => .nil⟩ hd₁
  obtain ⟨d₂, hd₂, hagree⟩ :=
    (Draft.Agree.empty (w := w)).addAll (Statement.twins_shift n m statements) hd₁
  obtain ⟨e₂, he₂, hagree⟩ := hagree.addText hsorted hheader₁ (htwin.ofArray ▸ harray)
    (htwin.way_eq_nil hway) hk hk' hs hw he₁
  obtain ⟨f₂, hf₂, hagree⟩ := hagree.addAll (Statement.twins_refl later) h
  rw [htwin.name]
  exact ⟨f₂, Draft.addAll_append.mpr ⟨d₂, hd₂, bind_eq_ok_iff.mpr ⟨e₂, he₂, hf₂⟩⟩, hagree⟩

theorem Key.name?_of_bare {k : Key} (hne : k.chars ≠ [])
    (hbare : ∀ c ∈ k.chars, isBareKeyChar c = true) : k.name? = some (String.ofList k.chars) := by
  obtain ⟨c, more, hchars⟩ := List.exists_cons_of_ne_nil hne
  have hc : isBareKeyChar c = true := hbare c (hchars ▸ List.mem_cons_self)
  have hquote : c ≠ '"' := ne_of_class hc (by decide)
  have hapostrophe : c ≠ '\'' := ne_of_class hc (by decide)
  unfold Key.name?
  split
  · exact absurd (List.cons.inj (hchars.symm.trans ‹_›)).1 hquote
  · exact absurd (List.cons.inj (hchars.symm.trans ‹_›)).1 hapostrophe
  · exact absurd (List.cons.inj (hchars.symm.trans ‹_›)).1 hquote
  · exact absurd (List.cons.inj (hchars.symm.trans ‹_›)).1 hapostrophe
  · exact if_pos ⟨hne, List.all_eq_true.mpr hbare⟩

/-- A text on a line of its own can be exchanged, and the tables agree but for it. -/
theorem tableOfChars_textLine {lines indent key z : List Char} {sect : String}
    (hlines : EndsLine lines) (hsection : openSection? lines = some sect)
    (hindent : ∀ c ∈ indent, isSpace c = true) (hne : key ≠ [])
    (hbare : ∀ c ∈ key, isBareKeyChar c = true) {v v' w w' : List Char} (hv : v ≠ [])
    (h : Content v w) (h' : Content v' w') {t : Table}
    (ht : tableOfChars (lines ++ (indent ++ textLine key v ++ z)) = .ok t) :
    ∃ t', tableOfChars (lines ++ (indent ++ textLine key v' ++ z)) = .ok t' ∧
      Table.Agree (String.ofList w') (some [sect, String.ofList key]) t t' := by
  obtain ⟨statements, d, header, hread, hadd, hheader, harray, hway, rfl⟩ :=
    openSection?_eq_some_iff.mp hsection
  have happend := readStatements?_append hread hlines (Draft.addAll_hasValue hadd)
  obtain ⟨all, f, hall, haddAll, hclose⟩ := tableOfChars_eq_ok_iff.mp ht
  -- both documents are the lines, one pair, and the same statements behind it
  obtain ⟨k, written, rfl, hwritten, hpair⟩ :=
    statementsOf?_textLine hne hbare h (z := z) (Or.inl hv) hindent
  rw [happend, hpair] at hall
  obtain ⟨_, hmore, rfl⟩ := Option.map_eq_some_iff.mp hall
  obtain ⟨rest, hrest, hmore⟩ := Option.bind_eq_some_iff.mp hmore
  obtain ⟨later, hlater, rfl⟩ := Option.map_eq_some_iff.mp hmore
  obtain ⟨k', written', hk', hwritten', hpair'⟩ :=
    statementsOf?_textLine hne hbare h' (z := z) (Or.inr (head?_ne_of_endLine? hrest)) hindent
  rw [hrest, Option.bind_some, hlater, Option.map_some] at hpair'
  have hread' := happend (indent ++ textLine k.chars v' ++ z)
  rw [hpair', Option.map_some] at hread'
  have hname : k.name? = some (String.ofList k.chars) := Key.name?_of_bare hne hbare
  have hname' : k'.name? = some (String.ofList k.chars) :=
    hk' ▸ Key.name?_of_bare (hk' ▸ hne) (hk' ▸ hbare)
  obtain ⟨f', hf', hagree⟩ := Draft.addAll_text hadd hheader harray hway hname hname' hwritten
    hwritten' haddAll
  obtain ⟨t', ht', hagree⟩ := hagree.close hclose
  exact ⟨t', tableOfChars_eq_ok_iff.mpr ⟨_, f', hread', hf', ht'⟩, hagree⟩

end Shakedown.Toml
