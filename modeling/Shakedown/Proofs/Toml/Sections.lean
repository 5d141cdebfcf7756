import Shakedown.Proofs.Entries.Reading
import Shakedown.Proofs.Toml.Line
import Shakedown.Proofs.Toml.Plain

/-!
# Documents made of sections

A document of sections has one table for each of its sections, under its name, and in it the values
of the section under their keys. Neither their order nor the way in which names, values, blanks and
comments are written makes a difference.
-/

namespace Shakedown.Toml

/-- Sections with their keys and values, in the order in which they are written. -/
structure Sections where
  toList : List (String × List (String × Plain))
  names_nodup : (toList.map Prod.fst).Nodup
  keys_nodup : ∀ s ∈ toList, (s.2.map Prod.fst).Nodup

/-- The value that a key has in a section. -/
def Sections.value? (doc : Sections) (name key : String) : Option Plain :=
  (valueAt? name doc.toList).bind (valueAt? key)

/-- The order of the sections, and that of their keys, does not matter. -/
theorem Sections.value?_eq_some_iff {doc : Sections} {name key : String} {p : Plain} :
    doc.value? name key = some p ↔ ∃ es, (name, es) ∈ doc.toList ∧ (key, p) ∈ es := by
  have hsection (es : List (String × Plain)) :
      valueAt? name doc.toList = some es ↔ (name, es) ∈ doc.toList :=
    valueAt?_eq_some_iff_of_nodup doc.names_nodup
  rw [value?, Option.bind_eq_some_iff]
  refine exists_congr fun es => ?_
  rw [hsection]
  exact and_congr_right fun hes => valueAt?_eq_some_iff_of_nodup (doc.keys_nodup _ hes)

/-! ### How sections are written -/

inductive Line where
  | header (name : String)
  | pair (key : String) (value : Plain)

/-- Blanks may stand around a name and an equals sign. -/
inductive Line.Spelled : Line → List Char → Prop
  | header {name : String} {cs b b' : List Char} :
    Blanks b → Called name cs → Blanks b' →
      Spelled (.header name) ('[' :: (b ++ (cs ++ (b' ++ [']']))))
  | pair {key : String} {value : Plain} {cs vs b b' : List Char} :
    Called key cs → Blanks b → Blanks b' → value.Spelled vs →
      Spelled (.pair key value) (cs ++ (b ++ '=' :: (b' ++ vs)))

/-- A document of these lines. The last needs no line break. -/
inductive Lines : List Line → List Char → Prop
  | nil {f c : List Char} : Filler f → Comment c → Lines [] (f ++ c)
  | last {line : Line} {f cs b c : List Char} :
    Filler f → line.Spelled cs → Blanks b → Comment c → Lines [line] (f ++ (cs ++ (b ++ c)))
  | cons {line : Line} {more : List Line} {f cs e rest : List Char} :
    Filler f → line.Spelled cs → LineEnd e → Lines more rest →
      Lines (line :: more) (f ++ (cs ++ (e ++ rest)))

def sectionLines (s : String × List (String × Plain)) : List Line :=
  .header s.1 :: s.2.map fun p => .pair p.1 p.2

def Sections.Spelled (doc : Sections) (cs : List Char) : Prop :=
  Lines (doc.toList.flatMap sectionLines) cs

/-! ### Lines as statements -/

section Line

variable {name : String} {line : Line} {lines : List Line} {cs z : List Char}

/-- What a line says, wherever it stands. -/
inductive Line.ReadAs : Line → Statement → Prop
  | header {name : String} {k : Key} {extent : Extent} :
    k.name? = some name → ReadAs (.header name) (.header false [k] extent)
  | pair {key : String} {p : Plain} {k : Key} {written : Written} {value : Value} :
    k.name? = some key → written.value? = .ok value → p.ShownBy value →
      ReadAs (.pair key p) (.pair [k] written)

theorem Called.name?_eq (h : Called name cs) (extent : Extent) :
    Key.name? ⟨cs, extent⟩ = some name := by
  cases h with
  | bare hne hbare => exact Key.name?_of_bare (k := ⟨cs, extent⟩) hne hbare
  | @quoted _ v hv =>
    have hone := hv.append_ne (z := []) (Or.inr nofun)
    have htext : text? ('"' :: (v ++ ['"'])) = some name := by
      rw [hv.text?_eq, String.ofList_toList]
    unfold Key.name?
    split
    · exact absurd (List.cons.inj ‹_›).2 (hone _)
    · exact absurd (List.cons.inj ‹_›).1 (by decide)
    · exact htext
    · exact htext
    · rename_i hquote _
      exact absurd rfl (hquote _)

theorem Line.Spelled.starts (h : line.Spelled cs) :
    ∃ c more, cs = c :: more ∧ c ≠ '\uFEFF' ∧ Starts c := by
  cases h with
  | header _ _ _ => exact ⟨'[', _, rfl, by decide, by decide⟩
  | pair hname _ _ _ =>
    obtain ⟨c, more, rfl, -, hc⟩ := hname.starts
    exact ⟨c, _, rfl, hc⟩

theorem Line.Spelled.readStatement? (h : line.Spelled cs) (hz : Stops z) :
    ∃ s, readStatement? (cs ++ z) = some (s, z) ∧ line.ReadAs s := by
  cases h with
  | @header name cs b b' hb hname hb' =>
    obtain ⟨c, more, hcs, hc, -⟩ := hname.starts
    have hopen : ∀ rest, b ++ (cs ++ (b' ++ ']' :: z)) ≠ '[' :: rest := by
      intro rest heq
      cases b with
      | nil =>
        rw [hcs] at heq
        exact hc (List.cons.inj heq).1
      | cons d b =>
        have hd := hb d List.mem_cons_self
        exact ne_of_class hd (by decide) (List.cons.inj heq).1
    have hpath : readPath? (b ++ (cs ++ (b' ++ ']' :: z))) = _ :=
      hname.readPath?_eq hb hb' (by decide) (by decide) (by decide) z
    have hread := readHeader?_eq_some_iff.mpr (Or.inr ⟨_, _, rfl, hopen, hpath, rfl⟩)
    rw [List.cons_append, List.append_assoc, List.append_assoc, List.append_assoc,
      List.singleton_append]
    exact ⟨_, hread, .header (hname.name?_eq _)⟩
  | @pair key value cs vs b b' hname hb hb' hvalue =>
    obtain ⟨c, more, hcs, hc, -⟩ := hname.starts
    have hopen : ∀ rest, cs ++ (b ++ '=' :: (b' ++ (vs ++ z))) ≠ '[' :: rest := by
      rw [hcs]
      exact fun rest heq => hc (List.cons.inj heq).1
    have hpath : readPath? (cs ++ (b ++ '=' :: (b' ++ (vs ++ z)))) = _ :=
      hname.readPath?_eq (a := []) blanks_nil hb (by decide) (by decide) (by decide)
        (b' ++ (vs ++ z))
    obtain ⟨written, v, hwritten, hv, hshown⟩ := hvalue.readWritten? hz
    have hright : readWritten? (skipSpace (b' ++ (vs ++ z))) = some (written, z) := by
      rw [skipSpace_blanks hb', hvalue.skipSpace, hwritten]
    have hread := readPair?_eq_some_iff.mpr ⟨_, _, _, hpath, hright, rfl⟩
    rw [List.append_assoc, List.append_assoc, List.cons_append, List.append_assoc,
      readStatement?_pair hopen]
    exact ⟨_, hread, .pair (hname.name?_eq _) hv hshown⟩

theorem Lines.statementsOf? (h : Lines lines cs) :
    ∃ statements, statementsOf? cs = some statements ∧
      List.Forall₂ Line.ReadAs lines statements := by
  induction h with
  | @nil f c hf hc =>
    refine ⟨[], ?_, .nil⟩
    rw [statementsOf?_eq, readNext?, hf.skipBlankLines?, skipBlankLines?_comment_last hc]
    rfl
  | @last line f cs b c hf hline hb hc =>
    obtain ⟨s, hs, hread⟩ := hline.readStatement? (hb.stops.append hc.stops)
    obtain ⟨d, more, rfl, -, hd⟩ := hline.starts
    refine ⟨[s], ?_, .cons hread .nil⟩
    rw [statementsOf?_eq, readNext?, hf.skipBlankLines?, List.cons_append,
      skipBlankLines?_starts hd, Option.bind_some, if_neg (List.cons_ne_nil _ _),
      ← List.cons_append, hs, Option.bind_some]
    dsimp only
    rw [endLine?_last hb hc]
    rfl
  | @cons line more f cs e rest hf hline he _ ih =>
    obtain ⟨statements, hstatements, hreads⟩ := ih
    obtain ⟨s, hs, hread⟩ := hline.readStatement? (he.stops rest)
    obtain ⟨d, more, rfl, -, hd⟩ := hline.starts
    refine ⟨s :: statements, ?_, .cons hread hreads⟩
    rw [statementsOf?_eq, readNext?, hf.skipBlankLines?, List.cons_append,
      skipBlankLines?_starts hd, Option.bind_some, if_neg (List.cons_ne_nil _ _),
      ← List.cons_append, hs, Option.bind_some]
    dsimp only
    rw [endLine?_lineEnd he, Option.bind_some, hstatements]
    rfl

theorem head?_append_ne {c : Char} (hcs : cs.head? ≠ some c) (hz : z.head? ≠ some c) :
    (cs ++ z).head? ≠ some c := by
  cases cs with
  | nil => exact hz
  | cons d more => exact hcs

/-- Sections have no byte order mark before them. -/
theorem Lines.head?_ne_mark (h : Lines lines cs) : cs.head? ≠ some '\uFEFF' := by
  have hstops {z : List Char} (hz : Stops z) : z.head? ≠ some '\uFEFF' := fun hmark =>
    absurd (hz _ hmark) (by decide)
  have hline {line : Line} {cs z : List Char} (h : line.Spelled cs) :
      (cs ++ z).head? ≠ some '\uFEFF' := by
    obtain ⟨c, more, rfl, hc, -⟩ := h.starts
    exact fun hmark => hc (Option.some.inj hmark)
  cases h with
  | nil hf hc => exact hstops (hf.stops.append hc.stops)
  | last hf h _ _ => exact head?_append_ne (hstops hf.stops) (hline h)
  | cons hf h _ _ => exact head?_append_ne (hstops hf.stops) (hline h)

end Line

/-! ### Tables -/

section Table

variable {α : Type} {R : α → Value → Prop} {l : List (String × α)} {t : Table} {key : String}
  {a : α}

/-- A table has what the list has under each key. -/
structure Table.Holds (R : α → Value → Prop) (l : List (String × α)) (t : Table) : Prop where
  sorted : t.Sorted
  entry (key : String) : (valueAt? key l = none ∧ Toml.entry? t key = none) ∨
    ∃ a e v, valueAt? key l = some a ∧ Toml.entry? t key = some (e, v) ∧ R a v

theorem Table.Holds.nil : Table.Holds R [] [] where
  sorted := .nil
  entry _ := Or.inl ⟨rfl, rfl⟩

theorem Table.Holds.entry?_eq_none (h : Table.Holds R l t) (hkey : valueAt? key l = none) :
    Toml.entry? t key = none := by
  rcases h.entry key with ⟨-, hnone⟩ | ⟨a, e, v, hsome, -, -⟩
  · exact hnone
  · exact nomatch hkey.symm.trans hsome

theorem Table.Holds.of_mem (h : Table.Holds R l t) {e : Extent} {v : Value}
    (hmem : (key, e, v) ∈ t) : ∃ a, valueAt? key l = some a ∧ R a v := by
  have hentry : Toml.entry? t key = some (e, v) := (valueAt?_eq_some_iff h.sorted).mpr hmem
  rcases h.entry key with ⟨-, hnone⟩ | ⟨a, e', v', hvalue, hsome, hv⟩
  · exact nomatch hentry.symm.trans hnone
  · obtain ⟨rfl, rfl⟩ := Prod.mk.inj (Option.some.inj (hentry.symm.trans hsome))
    exact ⟨a, hvalue, hv⟩

theorem Table.Holds.put (h : Table.Holds R l t) (hkey : valueAt? key l = none) (extent : Extent)
    {v : Value} (hv : R a v) : Table.Holds R (l ++ [(key, a)]) (putSorted key (extent, v) t) where
  sorted := pairwise_putSorted h.sorted
  entry name := by
    rw [valueAt?_append, valueAt?_cons, entry?_putSorted]
    by_cases hname : key = name
    · subst hname
      rw [hkey, if_pos rfl, if_pos rfl]
      exact Or.inr ⟨a, extent, v, rfl, rfl, hv⟩
    · rw [if_neg hname, if_neg hname]
      exact (Option.or_none (o := valueAt? name l)).symm ▸ h.entry name

/-- The key of an entry that comes later is new. -/
theorem valueAt?_eq_none_of_nodup {more : List (String × α)}
    (h : ((l ++ [(key, a)] ++ more).map Prod.fst).Nodup) : valueAt? key l = none := by
  rw [List.map_append, List.map_append] at h
  have hdisjoint := (List.nodup_append.mp (List.nodup_append.mp h).1).2.2
  exact valueAt?_eq_none_iff.mpr fun hmem => hdisjoint key hmem key List.mem_cons_self rfl

end Table

/-! ### Sections as tables -/

/-- What a section is in the table of the document. -/
def SectionShownBy (es : List (String × Plain)) (v : Value) : Prop :=
  ∃ t, v = .table .header t ∧ Table.Holds Plain.ShownBy es t

section Draft

variable {d : Draft} {root : Table} {rest : List Line} {statements : List Statement}

theorem Draft.add_header {k : Key} {name : String} (extent : Extent) (hclose : d.close = .ok root)
    (hname : k.name? = some name) (hnew : entry? root name = none) :
    d.add (.header false [k] extent) =
      .ok ⟨root, some ⟨false, [], ⟨name, k.extent⟩, extent⟩, []⟩ := by
  have hnames : namesOf [k] = .ok ([], ⟨name, k.extent⟩) := by
    rw [namesOf, nameOf, hname]
    rfl
  have hopening : Header.opening ⟨false, [], ⟨name, k.extent⟩, extent⟩ root = .ok [] := by
    rw [Header.opening, if_neg Bool.false_ne_true]
    refine bind_eq_ok_iff.mpr ⟨root, rfl, ?_⟩
    dsimp only
    rw [hnew]
  exact bind_eq_ok_iff.mpr ⟨root, hclose, bind_eq_ok_iff.mpr ⟨_, hnames,
    bind_eq_ok_iff.mpr ⟨_, hopening, rfl⟩⟩⟩

/-- The pairs of a section go to the open table, one after the other. -/
theorem Draft.addAll_pairs {done es : List (String × Plain)}
    (h : List.Forall₂ Line.ReadAs (es.map (fun p => .pair p.1 p.2) ++ rest) statements)
    (hdone : Table.Holds Plain.ShownBy done d.current)
    (hkeys : ((done ++ es).map Prod.fst).Nodup) :
    ∃ current later, d.addAll statements = ({ d with current := current } : Draft).addAll later ∧
      List.Forall₂ Line.ReadAs rest later ∧ Table.Holds Plain.ShownBy (done ++ es) current := by
  induction es generalizing done d statements with
  | nil =>
    rw [List.append_nil]
    exact ⟨d.current, statements, rfl, h, hdone⟩
  | cons p es ih =>
    obtain ⟨key, p⟩ := p
    rw [List.append_cons] at hkeys ⊢
    cases h with
    | cons hpair h =>
      cases hpair with
      | @pair _ _ k written value hkey hvalue hshown =>
        have hnew := valueAt?_eq_none_of_nodup hkeys
        have hadd := (Draft.add_pair_eq_ok_iff hkey hvalue).mpr ⟨hdone.entry?_eq_none hnew, rfl⟩
        obtain ⟨current, later, heq, hlater, hholds⟩ :=
          ih (d := { d with current := putSorted key (written.extent, value) d.current }) h
            (hdone.put hnew written.extent hshown) hkeys
        refine ⟨current, later, ?_, hlater, hholds⟩
        rw [Draft.addAll, hadd]
        exact heq

/-- Each section puts one table into the root, once it is closed. -/
theorem Draft.addAll_sections {done sections : List (String × List (String × Plain))}
    (h : List.Forall₂ Line.ReadAs (sections.flatMap sectionLines) statements)
    (hclose : d.close = .ok root) (hdone : Table.Holds SectionShownBy done root)
    (hnames : ((done ++ sections).map Prod.fst).Nodup)
    (hkeys : ∀ s ∈ sections, (s.2.map Prod.fst).Nodup) :
    ∃ d' root', d.addAll statements = .ok d' ∧ d'.close = .ok root' ∧
      Table.Holds SectionShownBy (done ++ sections) root' := by
  induction sections generalizing done d root statements with
  | nil =>
    cases h with
    | nil =>
      rw [List.append_nil]
      exact ⟨d, root, rfl, hclose, hdone⟩
  | cons s sections ih =>
    obtain ⟨name, es⟩ := s
    rw [List.append_cons] at hnames ⊢
    obtain ⟨hes, hkeys⟩ := List.forall_mem_cons.mp hkeys
    cases h with
    | cons hheader h =>
      cases hheader with
      | @header _ k extent hname =>
        have hnew := valueAt?_eq_none_of_nodup hnames
        have hadd := Draft.add_header extent hclose hname (hdone.entry?_eq_none hnew)
        obtain ⟨current, later, heq, hlater, hholds⟩ :=
          Draft.addAll_pairs (d := ⟨root, some _, []⟩) h .nil hes
        have hclosed := Draft.close_of_header
          (d := ⟨root, some ⟨false, [], ⟨name, k.extent⟩, extent⟩, current⟩) rfl rfl rfl
        obtain ⟨d', root', hlast, hclose', hroot⟩ :=
          ih hlater hclosed (hdone.put (a := es) hnew _ ⟨current, rfl, hholds⟩) hnames hkeys
        refine ⟨d', root', ?_, hclose', hroot⟩
        rw [Draft.addAll, hadd]
        exact heq.trans hlast

end Draft

/-- The table of a document of sections has these sections and nothing else. -/
theorem Sections.tableOfChars_eq {doc : Sections} {cs : List Char} (h : doc.Spelled cs) :
    ∃ t, tableOfChars cs = .ok t ∧ Table.Holds SectionShownBy doc.toList t := by
  obtain ⟨statements, hstatements, hreads⟩ := h.statementsOf?
  have hread : readStatements? cs = some statements := by
    rw [readStatements?_eq, afterMark, if_neg h.head?_ne_mark, hstatements]
  obtain ⟨d, t, hadd, hclose, ht⟩ := Draft.addAll_sections (d := {}) hreads rfl Table.Holds.nil
    doc.names_nodup doc.keys_nodup
  exact ⟨t, tableOfChars_eq_ok_iff.mpr ⟨statements, d, hread, hadd, hclose⟩, ht⟩

end Shakedown.Toml
