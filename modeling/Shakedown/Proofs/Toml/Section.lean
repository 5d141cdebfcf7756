import Shakedown.Proofs.Toml.Difference
import Shakedown.Proofs.Toml.Statements

/-!
# A text in a section of a document

A document with a key and a text in a section of its own line, between complete lines and the rest,
is one table with a text in its place, whatever the text is.
-/

namespace Shakedown.Toml

/-! ### Statements that move -/

section Shift

variable (n m : Nat)

theorem Key.map_chars_shift (path : List Key) :
    (path.map (Key.shift n)).map Key.chars = path.map Key.chars := by
  rw [List.map_map]
  rfl

mutual

theorem Written.twin_shift : ∀ w : Written, (w.shift n).Twin (w.shift m)
  | .scalar cs extent => by
    intro v hv
    refine ⟨v, ?_, rfl⟩
    rw [Written.shift, Written.value?] at hv ⊢
    cases hscalar : scalar? cs with
    | none =>
      rw [hscalar] at hv
      exact nomatch hv
    | some v' =>
      rw [hscalar] at hv
      exact hv
  | .array items extent => by
    intro v hv
    rw [Written.shift, Written.value?] at hv ⊢
    obtain ⟨values, hvalues, rfl⟩ := map_eq_ok_iff.mp hv
    obtain ⟨values', hvalues', hsame⟩ := itemValues_shift items values hvalues
    exact ⟨_, map_eq_ok_iff.mpr ⟨values', hvalues', rfl⟩, Value.same_array_iff.mpr ⟨_, rfl, hsame⟩⟩
  | .table entries extent => by
    intro v hv
    rw [Written.shift, Written.value?] at hv ⊢
    obtain ⟨t, ht, rfl⟩ := map_eq_ok_iff.mp hv
    obtain ⟨t', ht', hagree⟩ := tableOf_shift entries [] [] t Table.Agree.nil ht
    exact ⟨_, map_eq_ok_iff.mpr ⟨t', ht', rfl⟩, Value.same_table_iff.mpr ⟨t', rfl, hagree.rel⟩⟩

theorem itemValues_shift : ∀ (items : List Written) (values : List (Extent × Value)),
    itemValues (shiftItems n items) = .ok values →
    ∃ values', itemValues (shiftItems m items) = .ok values' ∧
      List.Forall₂ (fun p p' => p.2.Same p'.2) values values'
  | [], values, h => by
    obtain rfl := Except.ok.inj h
    exact ⟨[], rfl, .nil⟩
  | item :: rest, values, h => by
    rw [shiftItems, itemValues] at h
    obtain ⟨value, hvalue, h⟩ := bind_eq_ok_iff.mp h
    obtain ⟨more, hmore, h⟩ := bind_eq_ok_iff.mp h
    obtain rfl := Except.ok.inj h
    obtain ⟨value', hvalue', hsame⟩ := Written.twin_shift item value hvalue
    obtain ⟨more', hmore', hsames⟩ := itemValues_shift rest more hmore
    refine ⟨((item.shift m).extent, value') :: more', ?_, .cons hsame hsames⟩
    rw [shiftItems, itemValues]
    exact bind_eq_ok_iff.mpr ⟨value', hvalue', bind_eq_ok_iff.mpr ⟨more', hmore', rfl⟩⟩

theorem tableOf_shift : ∀ (entries : List (List Key × Written)) (t t' u : Table),
    Table.Agree "" none t t' → tableOf t (shiftEntries n entries) = .ok u →
    ∃ u', tableOf t' (shiftEntries m entries) = .ok u' ∧ Table.Agree "" none u u'
  | [], t, t', u, hagree, h => by
    obtain rfl := Except.ok.inj h
    exact ⟨t', rfl, hagree⟩
  | (path, written) :: rest, t, t', u, hagree, h => by
    rw [shiftEntries, tableOf] at h
    obtain ⟨⟨way, name⟩, hnames, h⟩ := bind_eq_ok_iff.mp h
    obtain ⟨value, hvalue, h⟩ := bind_eq_ok_iff.mp h
    obtain ⟨next, hnext, h⟩ := bind_eq_ok_iff.mp h
    have hchars : (path.map (Key.shift n)).map Key.chars = (path.map (Key.shift m)).map Key.chars :=
      (Key.map_chars_shift n path).trans (Key.map_chars_shift m path).symm
    obtain ⟨way', name', hnames', hway, hname⟩ := namesOf_of_chars hchars hnames
    obtain ⟨value', hvalue', hsame⟩ := Written.twin_shift written value hvalue
    obtain ⟨next', hnext', hagree'⟩ := addPair_agree hway hname hsame hagree hnext
    obtain ⟨u', hu', hlast⟩ := tableOf_shift rest next next' u hagree' h
    refine ⟨u', ?_, hlast⟩
    rw [shiftEntries, tableOf]
    exact bind_eq_ok_iff.mpr ⟨(way', name'), hnames', bind_eq_ok_iff.mpr ⟨value', hvalue',
      bind_eq_ok_iff.mpr ⟨next', hnext', hu'⟩⟩⟩

end

theorem Statement.twin_shift (s : Statement) : (s.shift n).Twin (s.shift m) := by
  cases s with
  | header ofArray path extent =>
    exact .header ((Key.map_chars_shift n path).trans (Key.map_chars_shift m path).symm)
  | pair path written =>
    exact .pair ((Key.map_chars_shift n path).trans (Key.map_chars_shift m path).symm)
      (Written.twin_shift n m written)

end Shift

/-! ### Keys in increasing order -/

abbrev Table.Sorted (t : Table) : Prop :=
  t.Pairwise fun p q => p.1 < q.1

section Sorted

variable {t u : Table}

theorem changeAt_sorted {viaDots : Bool} {change : Origin → Table → Except Slip Table}
    {path : List Name} {origin : Origin}
    (hchange : ∀ {origin s r}, Table.Sorted s → change origin s = .ok r → Table.Sorted r)
    (ht : Table.Sorted t) (hu : changeAt viaDots change path origin t = .ok u) :
    Table.Sorted u := by
  cases path with
  | nil => exact hchange ht hu
  | cons name path =>
    rw [changeAt] at hu
    split at hu
    · obtain ⟨inner, -, hu⟩ := bind_eq_ok_iff.mp hu
      obtain rfl := Except.ok.inj hu
      exact pairwise_putSorted ht
    · split at hu
      · obtain ⟨inner, -, hu⟩ := bind_eq_ok_iff.mp hu
        obtain rfl := Except.ok.inj hu
        exact pairwise_putSorted ht
      · cases hu
    · obtain ⟨⟨⟩, -, hu⟩ := bind_eq_ok_iff.mp hu
      obtain ⟨inner, -, hu⟩ := bind_eq_ok_iff.mp hu
      obtain rfl := Except.ok.inj hu
      exact pairwise_putSorted ht
    · cases hu

theorem addPair_sorted {origin : Origin} {way : List Name} {name : Name} {extent : Extent}
    {value : Value} (ht : Table.Sorted t) (hu : addPair origin t way name extent value = .ok u) :
    Table.Sorted u := by
  refine changeAt_sorted ?_ ht hu
  intro origin s r hs hr
  split at hr
  · unfold putNew at hr
    split at hr
    · exact nomatch hr
    · obtain rfl := Except.ok.inj hr
      exact pairwise_putSorted hs
  · exact nomatch hr

theorem place_sorted {h : Header} {current : Table} (ht : Table.Sorted t)
    (hu : h.place current t = .ok u) : Table.Sorted u := by
  unfold Header.place at hu
  dsimp only at hu
  split at hu
  · split at hu
    · obtain rfl := Except.ok.inj hu
      exact pairwise_putSorted ht
    · obtain rfl := Except.ok.inj hu
      exact pairwise_putSorted ht
    · exact nomatch hu
  · obtain rfl := Except.ok.inj hu
    exact pairwise_putSorted ht

/-- The root of a draft is sorted, and so are the pairs that go to it directly. -/
structure Draft.Sorted (d : Draft) : Prop where
  root : d.root.Sorted
  current : d.header = none → d.current.Sorted

theorem Draft.Sorted.close {d : Draft} (h : d.Sorted) (hu : d.close = .ok u) : u.Sorted := by
  unfold Draft.close at hu
  split at hu
  · obtain rfl := Except.ok.inj hu
    exact h.current ‹_›
  · exact changeAt_sorted place_sorted h.root hu

theorem Draft.Sorted.add {d e : Draft} (h : d.Sorted) {s : Statement} (he : d.add s = .ok e) :
    e.Sorted := by
  cases s with
  | header ofArray path extent =>
    obtain ⟨root, hroot, he⟩ := bind_eq_ok_iff.mp he
    obtain ⟨⟨way, name⟩, -, he⟩ := bind_eq_ok_iff.mp he
    obtain ⟨current, -, he⟩ := bind_eq_ok_iff.mp he
    obtain rfl := Except.ok.inj he
    exact ⟨h.close hroot, nofun⟩
  | pair path written =>
    obtain ⟨⟨way, name⟩, -, he⟩ := bind_eq_ok_iff.mp he
    obtain ⟨value, -, he⟩ := bind_eq_ok_iff.mp he
    obtain ⟨current, hcurrent, he⟩ := bind_eq_ok_iff.mp he
    obtain rfl := Except.ok.inj he
    exact ⟨h.root, fun hnone => addPair_sorted (h.current hnone) hcurrent⟩

theorem Draft.Sorted.addAll {d e : Draft} (h : d.Sorted) {statements : List Statement}
    (he : d.addAll statements = .ok e) : e.Sorted := by
  induction statements generalizing d with
  | nil =>
    obtain rfl := Except.ok.inj he
    exact h
  | cons s rest ih =>
    obtain ⟨next, hnext, he⟩ := bind_eq_ok_iff.mp he
    exact ih (h.add hnext) he

end Sorted

/-! ### A text that is put in its place -/

section Text

variable {F G : String → Value → Value → Prop} {t t' : Table} {key : String}

theorem Table.Rel.of_ne (h : Table.Rel F t t') (hFG : ∀ k u u', k ≠ key → F k u u' → G k u u')
    (hne : ∀ p ∈ t, p.1 ≠ key) : Table.Rel G t t' := by
  induction h with
  | nil => exact .nil
  | @cons p p' rest rest' hp _ ih =>
    obtain ⟨hkey, hF⟩ := hp
    exact .cons ⟨hkey, hFG _ _ _ (hne p List.mem_cons_self) hF⟩
      (ih fun q hq => hne q (List.mem_cons_of_mem p hq))

/-- In a sorted table, a new value under a key takes the place of the old one. -/
theorem Table.Rel.replace {e e' : Extent} {v v' : Value} (h : Table.Rel F t t')
    (hsorted : t.Sorted) (hFG : ∀ k u u', k ≠ key → F k u u' → G k u u') (hv : G key v v') :
    Table.Rel G (Shakedown.putSorted key (e, v) t) (Shakedown.putSorted key (e', v') t') := by
  induction h with
  | nil => exact .cons ⟨rfl, hv⟩ .nil
  | @cons p p' rest rest' hp hrest ih =>
    obtain ⟨k, e₁, v₁⟩ := p
    obtain ⟨k', e₂, v₂⟩ := p'
    obtain ⟨hk, hF⟩ := hp
    dsimp only at hk hF
    subst hk
    obtain ⟨hbefore, hlater⟩ := List.pairwise_cons.mp hsorted
    rw [Shakedown.putSorted, Shakedown.putSorted]
    by_cases hlt : key < k
    · rw [if_pos hlt, if_pos hlt]
      have hne : ∀ q ∈ (k, e₁, v₁) :: rest, q.1 ≠ key := by
        intro q hq heq
        rcases List.mem_cons.mp hq with rfl | hq
        · exact String.lt_irrefl _ (heq ▸ hlt)
        · exact String.lt_irrefl _ (heq ▸ String.lt_trans hlt (hbefore q hq))
      exact .cons ⟨rfl, hv⟩ (Table.Rel.of_ne (.cons ⟨rfl, hF⟩ hrest) hFG hne)
    · rw [if_neg hlt, if_neg hlt]
      by_cases hkey : key = k
      · subst hkey
        rw [if_pos rfl, if_pos rfl]
        have hne : ∀ q ∈ rest, q.1 ≠ key := by
          intro q hq heq
          exact String.lt_irrefl _ (heq ▸ hbefore q hq)
        exact .cons ⟨rfl, hv⟩ (Table.Rel.of_ne hrest hFG hne)
      · rw [if_neg hkey, if_neg hkey]
        exact .cons ⟨rfl, hFG _ _ _ (Ne.symm hkey) hF⟩ (ih hlater)

theorem ne_of_entry?_eq_none (h : entry? t key = none) : ∀ p ∈ t, p.1 ≠ key := by
  intro p hp heq
  have hfind := List.find?_eq_none.mp (Option.map_eq_none_iff.mp h) p hp
  exact hfind (beq_iff_eq.mpr heq)

variable {w : String}

/-- A key that is new in two tables that are the same gets a text of its own in each. -/
theorem Table.Agree.putText {s : String} {e e' : Extent} (h : Table.Agree w none t t')
    (hnew : Toml.entry? t key = none) :
    Table.Agree w (some [key]) (Shakedown.putSorted key (e, .text s) t)
      (Shakedown.putSorted key (e', .text w) t') := by
  have hrel : Table.Rel (fun k => Value.Agree w (Spot.under (some [key]) k)) t t' := by
    refine h.rel.of_ne (fun k u u' hk hsame => ?_) (ne_of_entry?_eq_none hnew)
    rw [Spot.under_cons, if_neg hk]
    exact hsame
  constructor
  · refine hrel.putSorted ?_
    rw [Spot.under_cons, if_pos rfl]
    exact ⟨⟨s, rfl⟩, rfl⟩
  · intro path hpath
    refine ⟨key, [], (Option.some.inj hpath).symm, ?_⟩
    rw [entry?_putSorted, if_pos rfl]
    exact Option.some_ne_none _

/-- A table with the text in it is put in the place of one without. -/
theorem Table.Agree.putTable {path : List String} {origin : Origin} {s s' : Table}
    {e e' : Extent} (h : Table.Agree w none t t') (hsorted : t.Sorted)
    (hs : Table.Agree w (some path) s s') :
    Table.Agree w (some (key :: path)) (Shakedown.putSorted key (e, .table origin s) t)
      (Shakedown.putSorted key (e', .table origin s') t') := by
  constructor
  · refine h.rel.replace hsorted (fun k u u' hk hsame => ?_) ?_
    · rw [Spot.under_cons, if_neg hk]
      exact hsame
    · rw [Spot.under_cons, if_pos rfl]
      exact Value.agree_table_iff.mpr ⟨s', rfl, hs⟩
  · intro path' hpath
    refine ⟨key, path, (Option.some.inj hpath).symm, ?_⟩
    rw [entry?_putSorted, if_pos rfl]
    exact Option.some_ne_none _

/-- A pair without dots is a new entry of the open table. -/
theorem Draft.add_pair_eq_ok_iff {d e : Draft} {k : Key} {written : Written} {value : Value}
    (hkey : k.name? = some key) (hvalue : written.value? = .ok value) :
    d.add (.pair [k] written) = .ok e ↔
      entry? d.current key = none ∧
        { d with current := putSorted key (written.extent, value) d.current } = e := by
  have hname : nameOf k = .ok ⟨key, k.extent⟩ := by rw [nameOf, hkey]
  have hnames : namesOf [k] = .ok ([], ⟨key, k.extent⟩) := by
    rw [namesOf, hname]
    rfl
  have hput : addPair .header d.current [] ⟨key, k.extent⟩ written.extent value =
      putNew ⟨key, k.extent⟩ written.extent value d.current := rfl
  constructor
  · intro h
    obtain ⟨⟨way, name⟩, hnames', h⟩ := bind_eq_ok_iff.mp h
    obtain ⟨rfl, rfl⟩ := Prod.mk.inj (Except.ok.inj (hnames.symm.trans hnames'))
    obtain ⟨value', hvalue', h⟩ := bind_eq_ok_iff.mp h
    obtain rfl := Except.ok.inj (hvalue.symm.trans hvalue')
    obtain ⟨current, hcurrent, h⟩ := bind_eq_ok_iff.mp h
    obtain rfl := Except.ok.inj h
    rw [hput, putNew] at hcurrent
    split at hcurrent
    · cases hcurrent
    · obtain rfl := Except.ok.inj hcurrent
      exact ⟨‹_›, rfl⟩
  · rintro ⟨hnew, rfl⟩
    refine bind_eq_ok_iff.mpr ⟨_, hnames, bind_eq_ok_iff.mpr ⟨_, hvalue,
      bind_eq_ok_iff.mpr ⟨_, ?_, rfl⟩⟩⟩
    rw [hput, putNew]
    dsimp only
    rw [hnew]

theorem Draft.close_of_header {d : Draft} {header : Header} (hheader : d.header = some header)
    (harray : header.ofArray = false) (hway : header.way = []) :
    d.close =
      .ok (putSorted header.name.text (header.extent, .table .header d.current) d.root) := by
  rw [Draft.close, hheader]
  dsimp only
  rw [hway, changeAt, Header.place, harray]
  rfl

/-- Drafts that are the same get a text of their own each, in the section that is open. -/
theorem Draft.Agree.addText {d d' e : Draft} (h : Draft.Agree w none d d') (hsorted : d.Sorted)
    {header : Header} (hheader : d.header = some header) (harray : header.ofArray = false)
    (hway : header.way = []) {k k' : Key} (hk : k.name? = some key) (hk' : k'.name? = some key)
    {written written' : Written} {s : String} (hs : written.value? = .ok (.text s))
    (hw : written'.value? = .ok (.text w)) (he : d.add (.pair [k] written) = .ok e) :
    ∃ e', d'.add (.pair [k'] written') = .ok e' ∧
      Draft.Agree w (some [header.name.text, key]) e e' := by
  obtain ⟨hnew, rfl⟩ := (Draft.add_pair_eq_ok_iff hk hs).mp he
  have hspot : d.spotOf none = none := by
    rw [Draft.spotOf, hheader]
    dsimp only
    rw [Header.spotOf, Spot.along_none]
    split <;> rfl
  have hcurrent : Table.Agree w none d.current d'.current := hspot ▸ h.current
  have hnew' : entry? d'.current key = none := by
    rcases hcurrent.entry? key with ⟨-, hnone, -⟩ | ⟨e, v, e', v', hsome, -, -⟩
    · exact hnone
    · rw [hsome] at hnew
      exact nomatch hnew
  obtain ⟨header', hheader', htwin⟩ := h.header_of_some hheader
  have hway' : header'.way = [] := htwin.way_eq_nil hway
  refine ⟨_, (Draft.add_pair_eq_ok_iff hk' hw).mpr ⟨hnew', rfl⟩, ?_⟩
  have hspot' (current : Table) : ({ d with current := current } : Draft).spotOf
      (some [header.name.text, key]) = some [key] := by
    rw [Draft.spotOf, hheader]
    dsimp only
    rw [Header.spotOf, harray, hway]
    exact if_pos rfl
  exact {
    header := Or.inr ⟨header, header', hheader, hheader', htwin⟩
    current := by
      rw [hspot']
      exact hcurrent.putText hnew
    closes := by
      intro current current' r hagree hr
      rw [hspot'] at hagree
      have hclosed :=
        @Draft.close_of_header { d with current := current } header hheader harray hway
      obtain rfl := Except.ok.inj (hclosed.symm.trans hr)
      have harray' : header'.ofArray = false := htwin.ofArray ▸ harray
      refine ⟨_, @Draft.close_of_header { d' with current := current' } header' hheader' harray'
        hway', ?_⟩
      rw [← htwin.name]
      exact (h.root rfl).putTable hsorted.root hagree
    root := nofun }

end Text

end Shakedown.Toml
