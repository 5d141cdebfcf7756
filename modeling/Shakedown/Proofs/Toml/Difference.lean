import Mathlib.Data.List.Forall2
import Shakedown.Proofs.Entries.Reading
import Shakedown.Proofs.Result
import Shakedown.Toml.Document

/-!
# Documents that differ in one text

Two documents may differ in their extents and in one text, which lies at the end of a path of keys.
Statements that are the same up to their extents keep the documents so: what is refused in one is
refused in the other, since the texts of a document decide about nothing but themselves.
-/

namespace Shakedown.Toml

/-! ### Values without their extents -/

mutual

def Value.outline : Value → Value
  | .array ofTables items => .array ofTables (itemOutlines items)
  | .table origin entries => .table origin (entryOutlines entries)
  | v => v

def itemOutlines : List (Extent × Value) → List (Extent × Value)
  | [] => []
  | (_, v) :: rest => (⟨0, 0⟩, v.outline) :: itemOutlines rest

def entryOutlines : List (String × Extent × Value) → List (String × Extent × Value)
  | [] => []
  | (key, _, v) :: rest => (key, ⟨0, 0⟩, v.outline) :: entryOutlines rest

end

/-- Values that differ in their extents only. -/
def Value.Same (v v' : Value) : Prop :=
  v.outline = v'.outline

/-- The same keys, in the same order, with related values. -/
abbrev Table.Rel (F : String → Value → Value → Prop) (t t' : Table) : Prop :=
  List.Forall₂ (fun p p' => p.1 = p'.1 ∧ F p.1 p.2.2 p'.2.2) t t'

theorem itemOutlines_eq_iff {items items' : List (Extent × Value)} :
    itemOutlines items = itemOutlines items' ↔
      List.Forall₂ (fun p p' => p.2.Same p'.2) items items' := by
  induction items generalizing items' with
  | nil => cases items' <;> simp [itemOutlines]
  | cons p rest ih =>
    cases items' with
    | nil => simp [itemOutlines]
    | cons p' rest' => simp [itemOutlines, ih, Value.Same]

theorem entryOutlines_eq_iff {t t' : Table} :
    entryOutlines t = entryOutlines t' ↔ Table.Rel (fun _ => Value.Same) t t' := by
  induction t generalizing t' with
  | nil => cases t' <;> simp [entryOutlines]
  | cons p rest ih =>
    cases t' with
    | nil => simp [entryOutlines]
    | cons p' rest' =>
      simp only [entryOutlines, List.cons.injEq, Prod.mk.injEq, true_and, ih, List.forall₂_cons]
      exact Iff.rfl

namespace Value

theorem same_array_iff {ofTables : Bool} {items : List (Extent × Value)} {v' : Value} :
    (array ofTables items).Same v' ↔
      ∃ items', v' = .array ofTables items' ∧
        List.Forall₂ (fun p p' => p.2.Same p'.2) items items' := by
  constructor
  · intro h
    cases v' with
    | array ofTables' items' =>
      obtain ⟨rfl, hitems⟩ := array.inj h
      exact ⟨items', rfl, itemOutlines_eq_iff.mp hitems⟩
    | _ => exact nomatch h
  · rintro ⟨items', rfl, hitems⟩
    exact congrArg (array ofTables) (itemOutlines_eq_iff.mpr hitems)

theorem same_table_iff {origin : Origin} {t : Table} {v' : Value} :
    (table origin t).Same v' ↔
      ∃ t', v' = .table origin t' ∧ Table.Rel (fun _ => Same) t t' := by
  constructor
  · intro h
    cases v' with
    | table origin' t' =>
      obtain ⟨rfl, hentries⟩ := table.inj h
      exact ⟨t', rfl, entryOutlines_eq_iff.mp hentries⟩
    | _ => exact nomatch h
  · rintro ⟨t', rfl, hentries⟩
    exact congrArg (table origin) (entryOutlines_eq_iff.mpr hentries)

end Value

/-! ### Entries of related tables -/

section Rel

variable {F : String → Value → Value → Prop} {t t' : Table}

theorem entry?_cons {k key : String} {p : Extent × Value} {rest : Table} :
    entry? ((k, p) :: rest) key = if k = key then some p else entry? rest key :=
  valueAt?_cons (k, p)

/-- A key has related values in both tables, or no value in either. -/
theorem Table.Rel.entry? (h : Table.Rel F t t') (key : String) :
    (Toml.entry? t key = none ∧ Toml.entry? t' key = none) ∨
      ∃ e v e' v', Toml.entry? t key = some (e, v) ∧ Toml.entry? t' key = some (e', v') ∧
        F key v v' := by
  induction h with
  | nil => exact Or.inl ⟨rfl, rfl⟩
  | @cons p p' rest rest' hp _ ih =>
    obtain ⟨k, e, v⟩ := p
    obtain ⟨k', e', v'⟩ := p'
    obtain ⟨hk, hv⟩ := hp
    dsimp only at hk hv
    subst hk
    rw [entry?_cons, entry?_cons]
    by_cases hkey : k = key
    · subst hkey
      rw [if_pos rfl, if_pos rfl]
      exact Or.inr ⟨e, v, e', v', rfl, rfl, hv⟩
    · rw [if_neg hkey, if_neg hkey]
      exact ih

theorem Table.Rel.putSorted {key : String} {e e' : Extent} {v v' : Value} (h : Table.Rel F t t')
    (hv : F key v v') :
    Table.Rel F (Shakedown.putSorted key (e, v) t) (Shakedown.putSorted key (e', v') t') := by
  induction h with
  | nil => exact .cons ⟨rfl, hv⟩ .nil
  | @cons p p' rest rest' hp hrest ih =>
    obtain ⟨k, e₁, v₁⟩ := p
    obtain ⟨k', e₂, v₂⟩ := p'
    obtain ⟨hk, hv₁⟩ := hp
    dsimp only at hk hv₁
    subst hk
    rw [Shakedown.putSorted, Shakedown.putSorted]
    split
    · exact .cons ⟨rfl, hv⟩ (.cons ⟨rfl, hv₁⟩ hrest)
    · split
      · exact .cons ⟨rfl, hv⟩ hrest
      · exact .cons ⟨rfl, hv₁⟩ ih

theorem entry?_putSorted {key key' : String} {p : Extent × Value} :
    Toml.entry? (putSorted key p t) key' = if key = key' then some p else Toml.entry? t key' :=
  valueAt?_putSorted

end Rel

/-! ### A text at the end of a path -/

/-- The way to a text, by keys of tables from the outside, if there is such a text. -/
abbrev Spot := Option (List String)

/-- What is left of the way behind a key. -/
def Spot.under : Spot → String → Spot
  | some (key :: path), k => if k = key then some path else none
  | _, _ => none

theorem Spot.under_cons (key : String) (path : List String) (k : String) :
    under (some (key :: path)) k = if k = key then some path else none := rfl

def Spot.along (spot : Spot) (path : List Name) : Spot :=
  path.foldl (fun spot name => spot.under name.text) spot

theorem Spot.along_none (path : List Name) : along none path = none := by
  induction path with
  | nil => rfl
  | cons name path ih => exact ih

/-- Values that are the same but for a text at the end of a path, which is `w` in the second. -/
def Value.AgreeAt (w : String) : List String → Value → Value → Prop
  | [], v, v' => (∃ s, v = .text s) ∧ v' = .text w
  | key :: path, v, v' => ∃ origin t t', v = .table origin t ∧ v' = .table origin t' ∧
      entry? t key ≠ none ∧
      Table.Rel (fun k u u' => if k = key then AgreeAt w path u u' else u.Same u') t t'

def Value.Agree (w : String) : Spot → Value → Value → Prop
  | none, v, v' => v.Same v'
  | some path, v, v' => v.AgreeAt w path v'

/-- Tables that are the same but for a text. -/
structure Table.Agree (w : String) (spot : Spot) (t t' : Table) : Prop where
  rel : Table.Rel (fun k => Value.Agree w (spot.under k)) t t'
  present : ∀ path, spot = some path → ∃ key rest, path = key :: rest ∧ entry? t key ≠ none

section Agree

variable {w : String} {spot : Spot} {t t' : Table}

theorem Value.agree_table_iff {origin : Origin} {v' : Value} :
    (table origin t).Agree w spot v' ↔ ∃ t', v' = .table origin t' ∧ Table.Agree w spot t t' := by
  match spot with
  | none =>
    refine same_table_iff.trans (exists_congr fun t' => and_congr_right fun _ => ?_)
    exact ⟨fun h => ⟨h, nofun⟩, Table.Agree.rel⟩
  | some [] =>
    constructor
    · rintro ⟨⟨s, hs⟩, -⟩
      exact nomatch hs
    · rintro ⟨t', -, hagree⟩
      obtain ⟨key, rest, hpath, -⟩ := hagree.present [] rfl
      exact nomatch hpath
  | some (key :: path) =>
    have hunder (k : String) (u u' : Value) :
        (if k = key then u.AgreeAt w path u' else u.Same u') ↔
          u.Agree w (Spot.under (some (key :: path)) k) u' := by
      rw [Spot.under_cons]
      by_cases hk : k = key
      · rw [if_pos hk, if_pos hk]
        rfl
      · rw [if_neg hk, if_neg hk]
        rfl
    constructor
    · rintro ⟨origin', s, t', hs, rfl, hpresent, hrel⟩
      obtain ⟨rfl, rfl⟩ := table.inj hs
      refine ⟨t', rfl, hrel.imp fun p p' hp => ⟨hp.1, (hunder _ _ _).mp hp.2⟩, ?_⟩
      rintro path' hpath
      exact ⟨key, path, (Option.some.inj hpath).symm, hpresent⟩
    · rintro ⟨t', rfl, hagree⟩
      obtain ⟨key', rest, hpath, hpresent⟩ := hagree.present _ rfl
      obtain ⟨rfl, -⟩ := List.cons.inj hpath
      exact ⟨origin, t, t', rfl, rfl, hpresent,
        hagree.rel.imp fun p p' hp => ⟨hp.1, (hunder _ _ _).mpr hp.2⟩⟩

theorem Value.Agree.of_array {ofTables : Bool} {items : List (Extent × Value)} {v' : Value}
    (h : (array ofTables items).Agree w spot v') :
    spot = none ∧ ∃ items', v' = .array ofTables items' ∧
      List.Forall₂ (fun p p' => p.2.Same p'.2) items items' := by
  match spot, h with
  | none, h => exact ⟨rfl, same_array_iff.mp h⟩
  | some [], ⟨⟨s, hs⟩, _⟩ => exact nomatch hs
  | some (key :: path), ⟨origin, s, t', hs, _⟩ => exact nomatch hs

theorem Table.Agree.under_eq_none (h : Table.Agree w spot t t') {key : String}
    (hkey : entry? t key = none) : spot.under key = none := by
  match spot, h with
  | none, _ => rfl
  | some path, h =>
    obtain ⟨k, rest, rfl, hpresent⟩ := h.present path rfl
    refine if_neg ?_
    rintro rfl
    exact hpresent hkey

theorem Table.Agree.nil : Table.Agree w none [] [] :=
  ⟨.nil, nofun⟩

/-- A key has values that agree in both tables, or no value in either and the text elsewhere. -/
theorem Table.Agree.entry? (h : Table.Agree w spot t t') (key : String) :
    (Toml.entry? t key = none ∧ Toml.entry? t' key = none ∧ spot.under key = none) ∨
      ∃ e v e' v', Toml.entry? t key = some (e, v) ∧ Toml.entry? t' key = some (e', v') ∧
        v.Agree w (spot.under key) v' :=
  (h.rel.entry? key).imp_left fun hnone => ⟨hnone.1, hnone.2, h.under_eq_none hnone.1⟩

theorem Table.Agree.putSorted {key : String} {e e' : Extent} {v v' : Value}
    (h : Table.Agree w spot t t') (hv : v.Agree w (spot.under key) v') :
    Table.Agree w spot (Shakedown.putSorted key (e, v) t)
      (Shakedown.putSorted key (e', v') t') := by
  refine ⟨h.rel.putSorted hv, fun path hpath => ?_⟩
  obtain ⟨k, rest, hrest, hpresent⟩ := h.present path hpath
  refine ⟨k, rest, hrest, ?_⟩
  rw [entry?_putSorted]
  split
  · exact Option.some_ne_none _
  · exact hpresent

/-! ### What is changed at the end of a path -/

theorem checkPassage_eq_ok_iff {viaDots : Bool} {name : Name} {origin : Origin} :
    checkPassage viaDots name origin = .ok () ↔
      origin ≠ .braces ∧ ¬(viaDots = true ∧ origin = .header) := by
  unfold checkPassage
  by_cases hbraces : origin = .braces
  · rw [if_pos hbraces]
    exact ⟨nofun, fun h => absurd hbraces h.1⟩
  · rw [if_neg hbraces, and_iff_right hbraces]
    by_cases hheader : viaDots = true ∧ origin = .header
    · rw [if_pos hheader]
      exact ⟨nofun, fun h => absurd hheader h⟩
    · rw [if_neg hheader]
      exact ⟨fun _ => hheader, fun _ => rfl⟩

/-- Related lists are empty, or have related last items behind related others. -/
theorem forall₂_getLast? {α : Type} {R : α → α → Prop} {l l' : List α}
    (h : List.Forall₂ R l l') :
    l.getLast? = none ∨ ∃ a a', l.getLast? = some a ∧ l'.getLast? = some a' ∧ R a a' ∧
      List.Forall₂ R l.dropLast l'.dropLast := by
  induction h with
  | nil => exact Or.inl rfl
  | @cons a a' rest rest' ha hrest ih =>
    refine Or.inr ?_
    cases hrest with
    | nil => exact ⟨a, a', rfl, rfl, ha, .nil⟩
    | @cons b b' more more' hb hmore =>
      rcases ih with hnone | ⟨x, x', hx, hx', hR, hothers⟩
      · exact absurd (List.getLast?_eq_none_iff.mp hnone) (List.cons_ne_nil b more)
      · exact ⟨x, x', hx, hx', hR, hothers.cons ha⟩

/-- A change that keeps tables in agreement at the end of a path keeps them so from the start. -/
theorem changeAt_agree {viaDots : Bool} {change change' : Origin → Table → Except Slip Table}
    {path path' : List Name} (hpath : path.map Name.text = path'.map Name.text) {origin : Origin}
    {u : Table} {last : Spot} (hlast : spot.along path = last)
    (hchange : ∀ {origin s s' r}, Table.Agree w last s s' → change origin s = .ok r →
      ∃ r', change' origin s' = .ok r' ∧ Table.Agree w last r r')
    (h : Table.Agree w spot t t') (hu : changeAt viaDots change path origin t = .ok u) :
    ∃ u', changeAt viaDots change' path' origin t' = .ok u' ∧ Table.Agree w spot u u' := by
  induction path generalizing path' spot origin t t' u with
  | nil =>
    obtain rfl := List.map_eq_nil_iff.mp hpath.symm
    obtain rfl : spot = last := hlast
    exact hchange h hu
  | cons name path ih =>
    obtain ⟨name', path', rfl, hname, hpath'⟩ := List.map_eq_cons_iff.mp hpath.symm
    have hlast' : (spot.under name.text).along path = last := hlast
    rw [changeAt] at hu
    rw [changeAt, hname]
    rcases h.entry? name.text with ⟨hnone, hnone', hunder⟩ |
      ⟨e, v, e', v', hsome, hsome', hv⟩
    · rw [hnone] at hu
      rw [hnone']
      obtain ⟨inner, hinner, hu⟩ := bind_eq_ok_iff.mp hu
      obtain rfl := Except.ok.inj hu
      rw [hunder] at hlast'
      obtain ⟨inner', hinner', hagree⟩ := ih hpath'.symm hlast' Table.Agree.nil hinner
      refine ⟨_, bind_eq_ok_iff.mpr ⟨inner', hinner', rfl⟩, h.putSorted ?_⟩
      rw [hunder]
      exact Value.agree_table_iff.mpr ⟨inner', rfl, hagree⟩
    · rw [hsome] at hu
      rw [hsome']
      cases v with
      | table origin s =>
        obtain ⟨s', rfl, hs⟩ := Value.agree_table_iff.mp hv
        obtain ⟨⟨⟩, hpassage, hu⟩ := bind_eq_ok_iff.mp hu
        obtain ⟨inner, hinner, hu⟩ := bind_eq_ok_iff.mp hu
        obtain rfl := Except.ok.inj hu
        obtain ⟨inner', hinner', hagree⟩ := ih hpath'.symm hlast' hs hinner
        have hpassage' : checkPassage viaDots name' origin = .ok () :=
          checkPassage_eq_ok_iff.mpr (checkPassage_eq_ok_iff.mp hpassage)
        exact ⟨_, bind_eq_ok_iff.mpr ⟨(), hpassage', bind_eq_ok_iff.mpr ⟨inner', hinner', rfl⟩⟩,
          h.putSorted (Value.agree_table_iff.mpr ⟨inner', rfl, hagree⟩)⟩
      | array ofTables items =>
        obtain ⟨hunder, items', rfl, hitems⟩ := hv.of_array
        rw [hunder] at hlast'
        cases ofTables with
        | false => exact nomatch hu
        | true =>
          dsimp only at hu ⊢
          rcases forall₂_getLast? hitems with hempty | ⟨p, p', hp, hp', hsame, hothers⟩
          · rw [hempty] at hu
            exact nomatch hu
          · obtain ⟨last, v⟩ := p
            obtain ⟨last', v'⟩ := p'
            rw [hp] at hu
            rw [hp']
            cases v with
            | table origin s =>
              have hv : (Value.table origin s).Agree w none v' := hsame
              obtain ⟨s', rfl, hs⟩ := Value.agree_table_iff.mp hv
              obtain ⟨inner, hinner, hu⟩ := bind_eq_ok_iff.mp hu
              obtain rfl := Except.ok.inj hu
              obtain ⟨inner', hinner', hagree⟩ := ih hpath'.symm hlast' hs hinner
              have hinner'' : (Value.table origin inner).Agree w none (.table origin inner') :=
                Value.agree_table_iff.mpr ⟨inner', rfl, hagree⟩
              refine ⟨_, bind_eq_ok_iff.mpr ⟨inner', hinner', rfl⟩, h.putSorted ?_⟩
              rw [hunder]
              exact Value.same_array_iff.mpr
                ⟨_, rfl, List.rel_append hothers (.cons hinner'' .nil)⟩
            | _ => exact nomatch hu
      | _ => exact nomatch hu

/-! ### Pairs and headers -/

theorem putNew_agree {name name' : Name} {extent extent' : Extent} {value value' : Value}
    {u : Table} (hname : name.text = name'.text) (hvalue : value.Same value')
    (h : Table.Agree w spot t t') (hu : putNew name extent value t = .ok u) :
    ∃ u', putNew name' extent' value' t' = .ok u' ∧ Table.Agree w spot u u' := by
  rw [putNew] at hu
  rw [putNew, ← hname]
  rcases h.entry? name.text with ⟨hnone, hnone', hunder⟩ | ⟨e, v, e', v', hsome, -, -⟩
  · rw [hnone] at hu
    obtain rfl := Except.ok.inj hu
    rw [hnone']
    refine ⟨_, rfl, h.putSorted ?_⟩
    rw [hunder]
    exact hvalue
  · rw [hsome] at hu
    exact nomatch hu

theorem addPair_agree {origin : Origin} {way way' : List Name} {name name' : Name}
    {extent extent' : Extent} {value value' : Value} {u : Table}
    (hway : way.map Name.text = way'.map Name.text) (hname : name.text = name'.text)
    (hvalue : value.Same value') (h : Table.Agree w spot t t')
    (hu : addPair origin t way name extent value = .ok u) :
    ∃ u', addPair origin t' way' name' extent' value' = .ok u' ∧ Table.Agree w spot u u' := by
  have hempty : way'.isEmpty = way.isEmpty := by
    rw [← List.isEmpty_map, ← hway, List.isEmpty_map]
  unfold addPair at hu ⊢
  dsimp only at hu ⊢
  rw [hempty]
  refine changeAt_agree hway rfl ?_ h hu
  intro origin s s' r hs hr
  split at hr
  · rw [if_pos ‹_›]
    exact putNew_agree hname hvalue hs hr
  · exact nomatch hr

theorem tableAt_agree {path path' : List Name} {u : Table}
    (hpath : path.map Name.text = path'.map Name.text) (h : Table.Agree w spot t t')
    (hu : tableAt path t = .ok u) :
    ∃ u', tableAt path' t' = .ok u' ∧ Table.Agree w (spot.along path) u u' := by
  induction path generalizing path' spot t t' with
  | nil =>
    obtain rfl := List.map_eq_nil_iff.mp hpath.symm
    obtain rfl := Except.ok.inj hu
    exact ⟨t', rfl, h⟩
  | cons name path ih =>
    obtain ⟨name', path', rfl, hname, hpath'⟩ := List.map_eq_cons_iff.mp hpath.symm
    have halong : spot.along (name :: path) = (spot.under name.text).along path := rfl
    rw [tableAt] at hu
    rw [tableAt, hname, halong]
    rcases h.entry? name.text with ⟨hnone, hnone', hunder⟩ |
      ⟨e, v, e', v', hsome, hsome', hv⟩
    · rw [hnone] at hu
      obtain rfl := Except.ok.inj hu
      rw [hnone', hunder, Spot.along_none]
      exact ⟨[], rfl, Table.Agree.nil⟩
    · rw [hsome] at hu
      rw [hsome']
      cases v with
      | table origin s =>
        obtain ⟨s', rfl, hs⟩ := Value.agree_table_iff.mp hv
        obtain ⟨⟨⟩, hpassage, hu⟩ := bind_eq_ok_iff.mp hu
        obtain ⟨u', hu', hagree⟩ := ih hpath'.symm hs hu
        have hpassage' : checkPassage false name' origin = .ok () :=
          checkPassage_eq_ok_iff.mpr (checkPassage_eq_ok_iff.mp hpassage)
        exact ⟨u', bind_eq_ok_iff.mpr ⟨(), hpassage', hu'⟩, hagree⟩
      | array ofTables items =>
        obtain ⟨hunder, items', rfl, hitems⟩ := hv.of_array
        rw [hunder]
        cases ofTables with
        | false => exact nomatch hu
        | true =>
          dsimp only at hu ⊢
          rcases forall₂_getLast? hitems with hempty | ⟨p, p', hp, hp', hsame, -⟩
          · rw [hempty] at hu
            exact nomatch hu
          · obtain ⟨last, v⟩ := p
            obtain ⟨last', v'⟩ := p'
            rw [hp] at hu
            rw [hp']
            cases v with
            | table origin s =>
              have hv : (Value.table origin s).Agree w none v' := hsame
              obtain ⟨s', rfl, hs⟩ := Value.agree_table_iff.mp hv
              exact ih hpath'.symm hs hu
            | _ => exact nomatch hu
      | _ => exact nomatch hu

/-- Headers that differ in their extents only. -/
structure Header.Twin (h h' : Header) : Prop where
  ofArray : h.ofArray = h'.ofArray
  way : h.way.map Name.text = h'.way.map Name.text
  name : h.name.text = h'.name.text

theorem Header.Twin.way_eq_nil {h h' : Header} (htwin : h.Twin h') (hway : h.way = []) :
    h'.way = [] := by
  rw [← List.map_eq_nil_iff, ← htwin.way, hway]
  rfl

/-- The way to the text from the table of a header. A table in an array is not on the way. -/
def Header.spotOf (h : Header) (spot : Spot) : Spot :=
  if h.ofArray then none else (spot.along h.way).under h.name.text

theorem place_agree {h h' : Header} (htwin : h.Twin h') {current current' u : Table}
    (hcurrent : Table.Agree w (h.spotOf spot) current current')
    (ht : Table.Agree w (spot.along h.way) t t') (hu : h.place current t = .ok u) :
    ∃ u', h'.place current' t' = .ok u' ∧ Table.Agree w (spot.along h.way) u u' := by
  obtain ⟨hofArray, -, hname⟩ := htwin
  unfold Header.place at hu ⊢
  unfold Header.spotOf at hcurrent
  dsimp only at hu ⊢
  rw [← hofArray, ← hname]
  by_cases harray : h.ofArray = true
  · rw [if_pos harray] at hu hcurrent ⊢
    have htable : (Value.table .header current).Agree w none (.table .header current') :=
      Value.agree_table_iff.mpr ⟨current', rfl, hcurrent⟩
    rcases ht.entry? h.name.text with ⟨hnone, hnone', hunder⟩ |
      ⟨e, v, e', v', hsome, hsome', hv⟩
    · rw [hnone] at hu
      obtain rfl := Except.ok.inj hu
      rw [hnone']
      refine ⟨_, rfl, ht.putSorted ?_⟩
      rw [hunder]
      exact Value.same_array_iff.mpr ⟨_, rfl, .cons htable .nil⟩
    · rw [hsome] at hu
      rw [hsome']
      cases v with
      | array ofTables items =>
        obtain ⟨hunder, items', rfl, hitems⟩ := hv.of_array
        cases ofTables with
        | false => exact nomatch hu
        | true =>
          obtain rfl := Except.ok.inj hu
          refine ⟨_, rfl, ht.putSorted ?_⟩
          rw [hunder]
          exact Value.same_array_iff.mpr ⟨_, rfl, List.rel_append hitems (.cons htable .nil)⟩
      | _ => exact nomatch hu
  · rw [if_neg harray] at hu hcurrent ⊢
    obtain rfl := Except.ok.inj hu
    exact ⟨_, rfl, ht.putSorted (Value.agree_table_iff.mpr ⟨current', rfl, hcurrent⟩)⟩

theorem opening_agree {h h' : Header} (htwin : h.Twin h') {u : Table}
    (ht : Table.Agree w spot t t') (hu : h.opening t = .ok u) :
    ∃ u', h'.opening t' = .ok u' ∧ Table.Agree w (h.spotOf spot) u u' := by
  obtain ⟨hofArray, hway, hname⟩ := htwin
  unfold Header.opening at hu ⊢
  unfold Header.spotOf
  rw [← hofArray]
  by_cases harray : h.ofArray = true
  · rw [if_pos harray] at hu ⊢
    obtain rfl := Except.ok.inj hu
    rw [if_pos harray]
    exact ⟨[], rfl, Table.Agree.nil⟩
  · rw [if_neg harray] at hu ⊢
    rw [if_neg harray]
    obtain ⟨s, hs, hu⟩ := bind_eq_ok_iff.mp hu
    obtain ⟨s', hs', hagree⟩ := tableAt_agree hway ht hs
    rcases hagree.entry? h.name.text with ⟨hnone, hnone', hunder⟩ |
      ⟨e, v, e', v', hsome, hsome', hv⟩
    · rw [hnone] at hu
      obtain rfl := Except.ok.inj hu
      rw [hunder]
      refine ⟨[], bind_eq_ok_iff.mpr ⟨s', hs', ?_⟩, Table.Agree.nil⟩
      rw [← hname, hnone']
    · rw [hsome] at hu
      cases v with
      | table origin inner =>
        obtain ⟨inner', rfl, hinner⟩ := Value.agree_table_iff.mp hv
        cases origin with
        | implied =>
          obtain rfl := Except.ok.inj hu
          refine ⟨inner', bind_eq_ok_iff.mpr ⟨s', hs', ?_⟩, hinner⟩
          rw [← hname, hsome']
        | _ => exact nomatch hu
      | _ => exact nomatch hu

/-! ### Statements -/

theorem nameOf_of_chars {k k' : Key} (hk : k.chars = k'.chars) {name : Name}
    (h : nameOf k = .ok name) : ∃ name', nameOf k' = .ok name' ∧ name.text = name'.text := by
  have hname : k'.name? = k.name? := by rw [Key.name?, Key.name?, hk]
  unfold nameOf at h ⊢
  rw [hname]
  cases htext : k.name? with
  | none =>
    rw [htext] at h
    exact nomatch h
  | some text =>
    rw [htext] at h
    obtain rfl := Except.ok.inj h
    exact ⟨_, rfl, rfl⟩

theorem namesOf_cons {k : Key} {path : List Key} (hpath : path ≠ []) :
    namesOf (k :: path) =
      (nameOf k).bind fun name => (namesOf path).bind fun p => .ok (name :: p.1, p.2) := by
  obtain ⟨k', path', rfl⟩ := List.exists_cons_of_ne_nil hpath
  rfl

/-- Names do not depend on where the keys stand. -/
theorem namesOf_of_chars {path path' : List Key} (hpath : path.map Key.chars = path'.map Key.chars)
    {way : List Name} {name : Name} (h : namesOf path = .ok (way, name)) :
    ∃ way' name', namesOf path' = .ok (way', name') ∧
      way.map Name.text = way'.map Name.text ∧ name.text = name'.text := by
  induction path generalizing path' way name with
  | nil => exact nomatch h
  | cons k path ih =>
    obtain ⟨k', path', rfl, hk, hpath'⟩ := List.map_eq_cons_iff.mp hpath.symm
    by_cases hnil : path = []
    · subst hnil
      obtain rfl := List.map_eq_nil_iff.mp hpath'
      obtain ⟨name₁, hname₁, heq⟩ := map_eq_ok_iff.mp h
      obtain ⟨rfl, rfl⟩ := Prod.mk.inj heq
      obtain ⟨name', hname', htext⟩ := nameOf_of_chars hk.symm hname₁
      exact ⟨[], name', map_eq_ok_iff.mpr ⟨name', hname', rfl⟩, rfl, htext⟩
    · have hnil' : path' ≠ [] := by
        rintro rfl
        exact hnil (List.map_eq_nil_iff.mp hpath'.symm)
      rw [namesOf_cons hnil] at h
      rw [namesOf_cons hnil']
      obtain ⟨first, hfirst, h⟩ := bind_eq_ok_iff.mp h
      obtain ⟨⟨way₁, name₁⟩, hlater, h⟩ := bind_eq_ok_iff.mp h
      obtain ⟨rfl, rfl⟩ := Prod.mk.inj (Except.ok.inj h)
      obtain ⟨first', hfirst', htext⟩ := nameOf_of_chars hk.symm hfirst
      obtain ⟨way', name', hlater', hway, hname⟩ := ih hpath'.symm hlater
      refine ⟨first' :: way', name', bind_eq_ok_iff.mpr ⟨first', hfirst',
        bind_eq_ok_iff.mpr ⟨_, hlater', rfl⟩⟩, ?_, hname⟩
      rw [List.map_cons, List.map_cons, htext, hway]

/-- What stands for a value in one document stands for the same in the other. -/
def Written.Twin (written written' : Written) : Prop :=
  ∀ v, written.value? = .ok v → ∃ v', written'.value? = .ok v' ∧ v.Same v'

/-- Statements that differ in their extents only. -/
inductive Statement.Twin : Statement → Statement → Prop
  | header {ofArray : Bool} {path path' : List Key} {extent extent' : Extent} :
    path.map Key.chars = path'.map Key.chars →
      Twin (.header ofArray path extent) (.header ofArray path' extent')
  | pair {path path' : List Key} {written written' : Written} :
    path.map Key.chars = path'.map Key.chars → written.Twin written' →
      Twin (.pair path written) (.pair path' written')

theorem Statement.Twin.refl (s : Statement) : s.Twin s := by
  cases s with
  | header ofArray path extent => exact .header rfl
  | pair path written => exact .pair rfl fun v hv => ⟨v, hv, rfl⟩

/-- The way to the text from the table that pairs go to. -/
def Draft.spotOf (d : Draft) (spot : Spot) : Spot :=
  match d.header with
  | none => spot
  | some h => h.spotOf spot

/-- Drafts of documents that differ in one text. -/
structure Draft.Agree (w : String) (spot : Spot) (d d' : Draft) : Prop where
  header : (d.header = none ∧ d'.header = none) ∨
    ∃ h h', d.header = some h ∧ d'.header = some h' ∧ h.Twin h'
  current : Table.Agree w (d.spotOf spot) d.current d'.current
  closes {current current' r : Table} : Table.Agree w (d.spotOf spot) current current' →
    ({ d with current := current } : Draft).close = .ok r →
    ∃ r', ({ d' with current := current' } : Draft).close = .ok r' ∧ Table.Agree w spot r r'
  root : spot = none → Table.Agree w none d.root d'.root

theorem Draft.Agree.empty : Draft.Agree w none {} {} where
  header := Or.inl ⟨rfl, rfl⟩
  current := Table.Agree.nil
  closes := by
    intro current current' r hcurrent hr
    obtain rfl := Except.ok.inj hr
    exact ⟨current', rfl, hcurrent⟩
  root := fun _ => Table.Agree.nil

theorem Draft.Agree.header_of_some {d d' : Draft} (h : Draft.Agree w spot d d') {header : Header}
    (hheader : d.header = some header) :
    ∃ header', d'.header = some header' ∧ header.Twin header' := by
  rcases h.header with ⟨hnone, -⟩ | ⟨h₁, h₂, hsome, hsome', htwin⟩
  · exact nomatch hheader.symm.trans hnone
  · obtain rfl := Option.some.inj (hheader.symm.trans hsome)
    exact ⟨h₂, hsome', htwin⟩

theorem Draft.Agree.close {d d' : Draft} (h : Draft.Agree w spot d d') {r : Table}
    (hr : d.close = .ok r) : ∃ r', d'.close = .ok r' ∧ Table.Agree w spot r r' :=
  h.closes h.current hr

/-- Statements that differ in their extents only keep drafts in agreement. -/
theorem Draft.Agree.add {d d' e : Draft} (h : Draft.Agree w spot d d') {s s' : Statement}
    (hs : s.Twin s') (he : d.add s = .ok e) :
    ∃ e', d'.add s' = .ok e' ∧ Draft.Agree w spot e e' := by
  cases hs with
  | @header ofArray path path' extent extent' hpath =>
    obtain ⟨root, hroot, he⟩ := bind_eq_ok_iff.mp he
    obtain ⟨⟨way, name⟩, hnames, he⟩ := bind_eq_ok_iff.mp he
    obtain ⟨current, hcurrent, he⟩ := bind_eq_ok_iff.mp he
    obtain rfl := Except.ok.inj he
    obtain ⟨root', hroot', hagree⟩ := h.close hroot
    obtain ⟨way', name', hnames', hway, hname⟩ := namesOf_of_chars hpath hnames
    have htwin : Header.Twin ⟨ofArray, way, name, extent⟩ ⟨ofArray, way', name', extent'⟩ :=
      ⟨rfl, hway, hname⟩
    obtain ⟨current', hcurrent', hopened⟩ := opening_agree htwin hagree hcurrent
    refine ⟨⟨root', some ⟨ofArray, way', name', extent'⟩, current'⟩,
      bind_eq_ok_iff.mpr ⟨root', hroot', bind_eq_ok_iff.mpr ⟨(way', name'), hnames',
        bind_eq_ok_iff.mpr ⟨current', hcurrent', rfl⟩⟩⟩, ?_⟩
    exact {
      header := Or.inr ⟨_, _, rfl, rfl, htwin⟩
      current := hopened
      closes := fun hcurrents hr => changeAt_agree hway rfl (place_agree htwin hcurrents) hagree hr
      root := by
        rintro rfl
        exact hagree }
  | @pair path path' written written' hpath hwritten =>
    obtain ⟨⟨way, name⟩, hnames, he⟩ := bind_eq_ok_iff.mp he
    obtain ⟨value, hvalue, he⟩ := bind_eq_ok_iff.mp he
    obtain ⟨current, hcurrent, he⟩ := bind_eq_ok_iff.mp he
    obtain rfl := Except.ok.inj he
    obtain ⟨way', name', hnames', hway, hname⟩ := namesOf_of_chars hpath hnames
    obtain ⟨value', hvalue', hsame⟩ := hwritten value hvalue
    obtain ⟨current', hcurrent', hagree⟩ := addPair_agree hway hname hsame h.current hcurrent
    exact ⟨{ d' with current := current' },
      bind_eq_ok_iff.mpr ⟨(way', name'), hnames', bind_eq_ok_iff.mpr ⟨value', hvalue',
        bind_eq_ok_iff.mpr ⟨current', hcurrent', rfl⟩⟩⟩,
      h.header, hagree, h.closes, h.root⟩

theorem Draft.Agree.addAll {d d' e : Draft} (h : Draft.Agree w spot d d')
    {statements statements' : List Statement}
    (hs : List.Forall₂ Statement.Twin statements statements') (he : d.addAll statements = .ok e) :
    ∃ e', d'.addAll statements' = .ok e' ∧ Draft.Agree w spot e e' := by
  induction hs generalizing d d' with
  | nil =>
    obtain rfl := Except.ok.inj he
    exact ⟨d', rfl, h⟩
  | @cons s s' rest rest' hs _ ih =>
    obtain ⟨next, hnext, he⟩ := bind_eq_ok_iff.mp he
    obtain ⟨next', hnext', hagree⟩ := h.add hs hnext
    obtain ⟨e', he', hagree'⟩ := ih hagree he
    exact ⟨e', bind_eq_ok_iff.mpr ⟨next', hnext', he'⟩, hagree'⟩

end Agree

end Shakedown.Toml
