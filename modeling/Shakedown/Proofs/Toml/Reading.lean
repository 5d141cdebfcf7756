import Shakedown.Proofs.Toml.Lines

/-!
# Reading a document line by line

The statements in complete lines are the same whatever follows these lines. Only their extents,
which count the characters that are left, move by the length of what follows.
-/

namespace Shakedown.Toml

/-! ### Extents that move -/

def Extent.shift (n : Nat) (e : Extent) : Extent :=
  ⟨e.before + n, e.after + n⟩

def Key.shift (n : Nat) (k : Key) : Key :=
  ⟨k.chars, k.extent.shift n⟩

mutual

def Written.shift (n : Nat) : Written → Written
  | .scalar cs extent => .scalar cs (extent.shift n)
  | .array items extent => .array (shiftItems n items) (extent.shift n)
  | .table entries extent => .table (shiftEntries n entries) (extent.shift n)

def shiftItems (n : Nat) : List Written → List Written
  | [] => []
  | item :: rest => item.shift n :: shiftItems n rest

def shiftEntries (n : Nat) : List (List Key × Written) → List (List Key × Written)
  | [] => []
  | (path, value) :: rest => (path.map (Key.shift n), value.shift n) :: shiftEntries n rest

end

def Statement.shift (n : Nat) : Statement → Statement
  | .header ofArray path extent => .header ofArray (path.map (Key.shift n)) (extent.shift n)
  | .pair path value => .pair (path.map (Key.shift n)) (value.shift n)

variable {cs rest z : List Char}

theorem Extent.shift_eq :
    (⟨(cs ++ z).length, (rest ++ z).length⟩ : Extent) =
      Extent.shift z.length ⟨cs.length, rest.length⟩ := by
  simp [shift, List.length_append]

/-! ### Keys -/

/-- A key in quotes, or a bare one. -/
def splitKey (cs : List Char) : List Char × List Char :=
  match splitText? cs with
  | some s => s
  | none => (cs.takeWhile isBare, cs.dropWhile isBare)

theorem readKey?_eq_some_iff {k : Key} :
    readKey? cs = some (k, rest) ↔
      splitKey cs = (k.chars, rest) ∧ k.chars ≠ [] ∧ k.extent = ⟨cs.length, rest.length⟩ := by
  have hread : readKey? cs = if (splitKey cs).1 = [] then none else
      some (⟨(splitKey cs).1, ⟨cs.length, (splitKey cs).2.length⟩⟩, (splitKey cs).2) := by
    unfold readKey? splitKey
    cases splitText? cs with
    | none => cases cs.takeWhile isBare <;> rfl
    | some s => obtain ⟨_ | _, _⟩ := s <;> rfl
  rw [hread]
  constructor
  · intro h
    split at h
    · cases h
    · rename_i hne
      obtain ⟨rfl, rfl⟩ := Prod.mk.inj (Option.some.inj h)
      exact ⟨rfl, hne, rfl⟩
  · rintro ⟨hsplit, hne, hextent⟩
    rw [hsplit, if_neg hne, ← hextent]

theorem splitKey_parts (cs : List Char) : (splitKey cs).1 ++ (splitKey cs).2 = cs := by
  unfold splitKey
  cases hsplit : splitText? cs with
  | some s => exact splitText?_parts hsplit
  | none => exact List.takeWhile_append_dropWhile

theorem splitKey_append (h : EndsLine (splitKey cs).2) :
    splitKey (cs ++ z) = ((splitKey cs).1, (splitKey cs).2 ++ z) := by
  have hcs : EndsLine cs := h.mono ⟨_, splitKey_parts cs⟩
  unfold splitKey at h ⊢
  cases hsplit : splitText? cs with
  | some s =>
    rw [hsplit] at h
    rw [splitText?_append hsplit h]
  | none =>
    have hends : EndsLine (cs.dropWhile isBare) := hcs.dropWhile (by decide)
    rw [splitText?_append_of_none hcs.ne_nil hsplit]
    dsimp only
    rw [takeWhile_append_of_ne_nil hends.ne_nil, dropWhile_append_of_ne_nil hends.ne_nil]

theorem readKey?_suffix {k : Key} (h : readKey? cs = some (k, rest)) :
    rest <:+ cs ∧ rest.length < cs.length := by
  obtain ⟨hsplit, hne, -⟩ := readKey?_eq_some_iff.mp h
  have hparts := splitKey_parts cs
  rw [hsplit] at hparts
  have hpos := List.length_pos_iff.mpr hne
  refine ⟨⟨k.chars, hparts⟩, ?_⟩
  rw [← hparts, List.length_append]
  exact Nat.lt_add_of_pos_left hpos

theorem readKey?_append {k : Key} (h : readKey? cs = some (k, rest)) (hends : EndsLine rest) :
    readKey? (cs ++ z) = some (k.shift z.length, rest ++ z) := by
  obtain ⟨hsplit, hne, hextent⟩ := readKey?_eq_some_iff.mp h
  have happend := splitKey_append (z := z) (by rwa [hsplit] : EndsLine (splitKey cs).2)
  rw [hsplit] at happend
  refine readKey?_eq_some_iff.mpr ⟨happend, hne, ?_⟩
  rw [Extent.shift_eq, ← hextent]
  rfl

theorem readPathIn_eq_some_iff {fuel : Nat} {path : List Key} :
    readPathIn (fuel + 1) cs = some (path, rest) ↔
      ∃ key past, readKey? (skipSpace cs) = some (key, past) ∧
        ((∃ more path', skipSpace past = '.' :: more ∧
            readPathIn fuel more = some (path', rest) ∧ path = key :: path') ∨
          (∀ more, skipSpace past ≠ '.' :: more) ∧ path = [key] ∧ rest = skipSpace past) := by
  rw [readPathIn]
  cases hkey : readKey? (skipSpace cs) with
  | none => exact ⟨nofun, fun ⟨_, _, h, _⟩ => nomatch h⟩
  | some p =>
    obtain ⟨key, past⟩ := p
    dsimp only
    constructor
    · intro h
      refine ⟨key, past, rfl, ?_⟩
      split at h
      · rename_i more hdot
        obtain ⟨⟨path', rest'⟩, hpath, heq⟩ := Option.map_eq_some_iff.mp h
        obtain ⟨rfl, rfl⟩ := Prod.mk.inj heq
        exact Or.inl ⟨more, path', hdot, hpath, rfl⟩
      · rename_i hdot
        obtain ⟨rfl, rfl⟩ := Prod.mk.inj (Option.some.inj h)
        exact Or.inr ⟨hdot, rfl, rfl⟩
    · rintro ⟨key', past', hread, hpath⟩
      obtain ⟨rfl, rfl⟩ := Prod.mk.inj (Option.some.inj hread)
      rcases hpath with ⟨more, path', hdot, hpath, rfl⟩ | ⟨hdot, rfl, rfl⟩
      · rw [hdot]
        exact congrArg (Option.map fun p => (key :: p.1, p.2)) hpath
      · split
        · exact absurd ‹_› (hdot _)
        · rfl

theorem readPathIn_suffix {fuel : Nat} {path : List Key}
    (h : readPathIn fuel cs = some (path, rest)) : rest <:+ cs ∧ rest.length < cs.length := by
  induction fuel generalizing cs path with
  | zero => exact nomatch h
  | succ fuel ih =>
    obtain ⟨key, past, hkey, hpath⟩ := readPathIn_eq_some_iff.mp h
    obtain ⟨hpast, hshorter⟩ := readKey?_suffix hkey
    have hspace := (skipSpace_suffix cs).length_le
    have hspace' := (skipSpace_suffix past).length_le
    have hsuffix := (skipSpace_suffix past).trans (hpast.trans (skipSpace_suffix cs))
    rcases hpath with ⟨more, path', hdot, hpath, -⟩ | ⟨-, -, rfl⟩
    · obtain ⟨hmore, hlength⟩ := ih hpath
      rw [hdot] at hspace' hsuffix
      rw [List.length_cons] at hspace'
      exact ⟨hmore.trans ((List.suffix_cons _ _).trans hsuffix), by omega⟩
    · exact ⟨hsuffix, by omega⟩

theorem readPathIn_append {fuel fuel' : Nat} {path : List Key}
    (h : readPathIn fuel cs = some (path, rest)) (hends : EndsLine rest) (hfuel : fuel ≤ fuel') :
    readPathIn fuel' (cs ++ z) = some (path.map (Key.shift z.length), rest ++ z) := by
  induction fuel generalizing fuel' cs path with
  | zero => exact nomatch h
  | succ fuel ih =>
    obtain ⟨fuel', rfl⟩ : ∃ n, fuel' = n + 1 := ⟨fuel' - 1, by omega⟩
    have hcs : EndsLine cs := hends.mono (readPathIn_suffix h).1
    obtain ⟨key, past, hkey, hpath⟩ := readPathIn_eq_some_iff.mp h
    refine readPathIn_eq_some_iff.mpr ?_
    rw [skipSpace_append hcs.skipSpace]
    rcases hpath with ⟨more, path', hdot, hpath, rfl⟩ | ⟨hdot, rfl, rfl⟩
    · have hmore : EndsLine more := hends.mono (readPathIn_suffix hpath).1
      have hpast : EndsLine (skipSpace past) := by
        rw [hdot]
        exact hmore.mono (List.suffix_cons _ _)
      refine ⟨_, _, readKey?_append hkey (hpast.mono (skipSpace_suffix past)), Or.inl ?_⟩
      refine ⟨more ++ z, _, ?_, ih hpath (by omega), rfl⟩
      rw [skipSpace_append hpast, hdot]
      rfl
    · refine ⟨_, _, readKey?_append hkey (hends.mono (skipSpace_suffix past)), Or.inr ?_⟩
      rw [skipSpace_append hends]
      refine ⟨fun more heq => ?_, rfl, rfl⟩
      obtain ⟨more', hmore', -⟩ := hends.of_append_cons heq
      exact hdot more' hmore'

theorem readPath?_suffix {path : List Key} (h : readPath? cs = some (path, rest)) :
    rest <:+ cs ∧ rest.length < cs.length :=
  readPathIn_suffix h

theorem readPath?_append {path : List Key} (h : readPath? cs = some (path, rest))
    (hends : EndsLine rest) :
    readPath? (cs ++ z) = some (path.map (Key.shift z.length), rest ++ z) :=
  readPathIn_append h hends (by rw [List.length_append]; omega)

/-! ### Values -/

/-- Behind a date, a space and a digit begin a time. -/
theorem splitScalar_of_space {d : Char} {more : List Char}
    (h : cs.dropWhile isScalarChar = ' ' :: d :: more) :
    splitScalar cs =
      if looksLikeDate (cs.takeWhile isScalarChar) && d.isDigit then
        (cs.takeWhile isScalarChar ++ ' ' :: (d :: more).takeWhile isScalarChar,
          (d :: more).dropWhile isScalarChar)
      else (cs.takeWhile isScalarChar, ' ' :: d :: more) := by
  unfold splitScalar
  dsimp only
  rw [h]
  rfl

theorem splitScalar_of_ne (h : ∀ d more, cs.dropWhile isScalarChar ≠ ' ' :: d :: more) :
    splitScalar cs = (cs.takeWhile isScalarChar, cs.dropWhile isScalarChar) := by
  unfold splitScalar
  dsimp only
  split
  · exact absurd ‹_› (h _ _)
  · rfl

theorem splitScalar_parts (cs : List Char) : (splitScalar cs).1 ++ (splitScalar cs).2 = cs := by
  have hword := List.takeWhile_append_dropWhile (p := isScalarChar) (l := cs)
  by_cases hspace : ∃ d more, cs.dropWhile isScalarChar = ' ' :: d :: more
  · obtain ⟨d, more, hrest⟩ := hspace
    rw [hrest] at hword
    rw [splitScalar_of_space hrest]
    split
    · dsimp only
      rw [List.append_assoc, List.cons_append, List.takeWhile_append_dropWhile, hword]
    · exact hword
  · rw [splitScalar_of_ne (by simpa using hspace)]
    exact hword

theorem EndsLine.splitScalar (h : EndsLine cs) : EndsLine (splitScalar cs).2 := by
  have hrest : EndsLine (cs.dropWhile isScalarChar) := h.dropWhile (by decide)
  by_cases hspace : ∃ d more, cs.dropWhile isScalarChar = ' ' :: d :: more
  · obtain ⟨d, more, hmore⟩ := hspace
    rw [hmore] at hrest
    rw [splitScalar_of_space hmore]
    split
    · exact (hrest.tail_of_ne (by decide)).dropWhile (by decide)
    · exact hrest
  · rw [splitScalar_of_ne (by simpa using hspace)]
    exact hrest

theorem splitScalar_append (h : EndsLine cs) :
    splitScalar (cs ++ z) = ((splitScalar cs).1, (splitScalar cs).2 ++ z) := by
  have hrest : EndsLine (cs.dropWhile isScalarChar) := h.dropWhile (by decide)
  have htake : (cs ++ z).takeWhile isScalarChar = cs.takeWhile isScalarChar :=
    takeWhile_append_of_ne_nil hrest.ne_nil
  have hdrop : (cs ++ z).dropWhile isScalarChar = cs.dropWhile isScalarChar ++ z :=
    dropWhile_append_of_ne_nil hrest.ne_nil
  by_cases hspace : ∃ d more, cs.dropWhile isScalarChar = ' ' :: d :: more
  · obtain ⟨d, more, hmore⟩ := hspace
    rw [hmore] at hrest hdrop
    rw [List.cons_append, List.cons_append] at hdrop
    have hlater : EndsLine ((d :: more).dropWhile isScalarChar) :=
      (hrest.tail_of_ne (by decide)).dropWhile (by decide)
    rw [splitScalar_of_space hmore, splitScalar_of_space hdrop, htake, ← List.cons_append,
      takeWhile_append_of_ne_nil hlater.ne_nil, dropWhile_append_of_ne_nil hlater.ne_nil]
    split <;> rfl
  · have hspace' : ∀ d more, (cs ++ z).dropWhile isScalarChar ≠ ' ' :: d :: more := by
      intro d more heq
      obtain ⟨tail, htail, hmore⟩ := hrest.of_append_cons (hdrop.symm.trans heq)
      rw [htail] at hrest
      obtain ⟨tail', rfl, -⟩ := (hrest.tail_of_ne (by decide)).of_append_cons hmore.symm
      exact hspace ⟨d, tail', htail⟩
    rw [splitScalar_of_ne hspace', splitScalar_of_ne (by simpa using hspace), htake, hdrop]

/-- A text, or a scalar without quotes. -/
def splitFlat? (cs : List Char) : Option (List Char × List Char) :=
  match splitText? cs with
  | some s => some s
  | none => if (splitScalar cs).1 = [] then none else some (splitScalar cs)

theorem splitFlat?_parts {t r : List Char} (h : splitFlat? cs = some (t, r)) : t ++ r = cs := by
  unfold splitFlat? at h
  split at h
  · rename_i hsplit
    rw [h] at hsplit
    exact splitText?_parts hsplit
  · split at h
    · exact nomatch h
    · have hparts := splitScalar_parts cs
      rwa [Option.some.inj h] at hparts

theorem splitFlat?_append {t r : List Char} (h : splitFlat? cs = some (t, r))
    (hends : EndsLine r) : splitFlat? (cs ++ z) = some (t, r ++ z) := by
  have hcs : EndsLine cs := hends.mono ⟨_, splitFlat?_parts h⟩
  unfold splitFlat? at h ⊢
  cases hsplit : splitText? cs with
  | some s =>
    rw [hsplit] at h
    rw [Option.some.inj h] at hsplit
    rw [splitText?_append hsplit hends]
  | none =>
    rw [hsplit] at h
    dsimp only at h
    rw [splitText?_append_of_none hcs.ne_nil hsplit]
    dsimp only
    rw [splitScalar_append hcs]
    by_cases hnil : (splitScalar cs).1 = []
    · rw [if_pos hnil] at h
      exact nomatch h
    · rw [if_neg hnil] at h ⊢
      rw [Option.some.inj h]

section Written

variable {levels fuel : Nat}

theorem readWrittenIn_array :
    readWrittenIn (levels + 1) (fuel + 1) ('[' :: cs) =
      (readItemsIn levels fuel cs).map fun p =>
        (.array p.1 ⟨('[' :: cs).length, p.2.length⟩, p.2) := by
  rw [readWrittenIn]

theorem readWrittenIn_table :
    readWrittenIn (levels + 1) (fuel + 1) ('{' :: cs) =
      (readEntriesIn levels fuel cs).map fun p =>
        (.table p.1 ⟨('{' :: cs).length, p.2.length⟩, p.2) := by
  rw [readWrittenIn]

theorem readWrittenIn_flat (harray : ∀ more, cs ≠ '[' :: more) (htable : ∀ more, cs ≠ '{' :: more) :
    readWrittenIn levels (fuel + 1) cs =
      (splitFlat? cs).map fun p => (.scalar p.1 ⟨cs.length, p.2.length⟩, p.2) := by
  unfold readWrittenIn splitFlat?
  dsimp only
  split
  · exact absurd rfl (harray _)
  · exact absurd rfl (htable _)
  · exact absurd rfl (harray _)
  · exact absurd rfl (htable _)
  · cases hsplit : splitText? cs with
    | some s => rfl
    | none =>
      dsimp only
      cases hscalar : splitScalar cs with
      | mk chars rest =>
        cases chars with
        | nil => rfl
        | cons c more => rfl

theorem readWrittenIn_eq_some_iff {w : Written} :
    readWrittenIn levels (fuel + 1) cs = some (w, rest) ↔
      (∃ levels' more items, levels = levels' + 1 ∧ cs = '[' :: more ∧
          readItemsIn levels' fuel more = some (items, rest) ∧
          w = .array items ⟨cs.length, rest.length⟩) ∨
        (∃ levels' more entries, levels = levels' + 1 ∧ cs = '{' :: more ∧
          readEntriesIn levels' fuel more = some (entries, rest) ∧
          w = .table entries ⟨cs.length, rest.length⟩) ∨
        (∀ more, cs ≠ '[' :: more) ∧ (∀ more, cs ≠ '{' :: more) ∧
          ∃ chars, splitFlat? cs = some (chars, rest) ∧
            w = .scalar chars ⟨cs.length, rest.length⟩ := by
  constructor
  · intro h
    by_cases harray : ∃ more, cs = '[' :: more
    · obtain ⟨more, rfl⟩ := harray
      cases levels with
      | zero => exact nomatch h
      | succ levels =>
        rw [readWrittenIn_array] at h
        obtain ⟨⟨items, rest'⟩, hitems, heq⟩ := Option.map_eq_some_iff.mp h
        obtain ⟨rfl, rfl⟩ := Prod.mk.inj heq
        exact Or.inl ⟨levels, more, items, rfl, rfl, hitems, rfl⟩
    · by_cases htable : ∃ more, cs = '{' :: more
      · obtain ⟨more, rfl⟩ := htable
        cases levels with
        | zero => exact nomatch h
        | succ levels =>
          rw [readWrittenIn_table] at h
          obtain ⟨⟨entries, rest'⟩, hentries, heq⟩ := Option.map_eq_some_iff.mp h
          obtain ⟨rfl, rfl⟩ := Prod.mk.inj heq
          exact Or.inr (Or.inl ⟨levels, more, entries, rfl, rfl, hentries, rfl⟩)
      · rw [readWrittenIn_flat (not_exists.mp harray) (not_exists.mp htable)] at h
        obtain ⟨⟨chars, rest'⟩, hflat, heq⟩ := Option.map_eq_some_iff.mp h
        obtain ⟨rfl, rfl⟩ := Prod.mk.inj heq
        exact Or.inr (Or.inr ⟨not_exists.mp harray, not_exists.mp htable, chars, hflat, rfl⟩)
  · rintro (⟨levels', more, items, rfl, rfl, hitems, rfl⟩ |
      ⟨levels', more, entries, rfl, rfl, hentries, rfl⟩ | ⟨harray, htable, chars, hflat, rfl⟩)
    · rw [readWrittenIn_array, hitems]
      rfl
    · rw [readWrittenIn_table, hentries]
      rfl
    · rw [readWrittenIn_flat harray htable, hflat]
      rfl

/-- Behind the first of several items stands the closing bracket, or a comma and the others. -/
def Continues {α : Type} (close : Char) (read : List Char → Option (List α × List Char)) (a : α)
    (cs : List Char) (as : List α) (rest : List Char) : Prop :=
  (skipBlankLines? cs = some (close :: rest) ∧ as = [a]) ∨
    ∃ more as', skipBlankLines? cs = some (',' :: more) ∧ read more = some (as', rest) ∧
      as = a :: as'

theorem readItemsIn_eq_some_iff {items : List Written} :
    readItemsIn levels (fuel + 1) cs = some (items, rest) ↔
      (skipBlankLines? cs = some (']' :: rest) ∧ items = []) ∨
        ∃ start item past, skipBlankLines? cs = some start ∧ (∀ more, start ≠ ']' :: more) ∧
          readWrittenIn levels fuel start = some (item, past) ∧
          Continues ']' (readItemsIn levels fuel) item past items rest := by
  rw [readItemsIn]
  constructor
  · intro h
    obtain ⟨start, hstart, h⟩ := Option.bind_eq_some_iff.mp h
    split at h
    · obtain ⟨rfl, rfl⟩ := Prod.mk.inj (Option.some.inj h)
      exact Or.inl ⟨hstart, rfl⟩
    · rename_i hclose
      obtain ⟨⟨item, past⟩, hitem, h⟩ := Option.bind_eq_some_iff.mp h
      obtain ⟨next, hnext, h⟩ := Option.bind_eq_some_iff.mp h
      refine Or.inr ⟨start, item, past, hstart, hclose, hitem, ?_⟩
      split at h
      · obtain ⟨rfl, rfl⟩ := Prod.mk.inj (Option.some.inj h)
        exact Or.inl ⟨hnext, rfl⟩
      · rename_i more
        obtain ⟨⟨items', rest'⟩, hitems, h⟩ := Option.bind_eq_some_iff.mp h
        obtain ⟨rfl, rfl⟩ := Prod.mk.inj (Option.some.inj h)
        exact Or.inr ⟨more, items', hnext, hitems, rfl⟩
      · exact nomatch h
  · rintro (⟨hstart, rfl⟩ | ⟨start, item, past, hstart, hclose, hitem, hmore⟩)
    · rw [hstart]
      rfl
    · refine Option.bind_eq_some_iff.mpr ⟨start, hstart, ?_⟩
      split
      · exact absurd rfl (hclose _)
      · refine Option.bind_eq_some_iff.mpr ⟨(item, past), hitem, ?_⟩
        rcases hmore with ⟨hnext, rfl⟩ | ⟨more, items', hnext, hitems, rfl⟩
        · exact Option.bind_eq_some_iff.mpr ⟨_, hnext, rfl⟩
        · exact Option.bind_eq_some_iff.mpr
            ⟨_, hnext, Option.bind_eq_some_iff.mpr ⟨(items', rest), hitems, rfl⟩⟩

theorem readEntriesIn_eq_some_iff {entries : List (List Key × Written)} :
    readEntriesIn levels (fuel + 1) cs = some (entries, rest) ↔
      (skipBlankLines? cs = some ('}' :: rest) ∧ entries = []) ∨
        ∃ start path behind right value past, skipBlankLines? cs = some start ∧
          (∀ more, start ≠ '}' :: more) ∧ readPath? start = some (path, behind) ∧
          skipSpace behind = '=' :: right ∧
          readWrittenIn levels fuel (skipSpace right) = some (value, past) ∧
          Continues '}' (readEntriesIn levels fuel) (path, value) past entries rest := by
  rw [readEntriesIn]
  constructor
  · intro h
    obtain ⟨start, hstart, h⟩ := Option.bind_eq_some_iff.mp h
    split at h
    · obtain ⟨rfl, rfl⟩ := Prod.mk.inj (Option.some.inj h)
      exact Or.inl ⟨hstart, rfl⟩
    · rename_i hclose
      obtain ⟨⟨path, behind⟩, hpath, h⟩ := Option.bind_eq_some_iff.mp h
      dsimp only at h
      split at h
      · rename_i right hright
        obtain ⟨⟨value, past⟩, hvalue, h⟩ := Option.bind_eq_some_iff.mp h
        obtain ⟨next, hnext, h⟩ := Option.bind_eq_some_iff.mp h
        refine Or.inr ⟨start, path, behind, right, value, past, hstart, hclose, hpath, hright,
          hvalue, ?_⟩
        split at h
        · obtain ⟨rfl, rfl⟩ := Prod.mk.inj (Option.some.inj h)
          exact Or.inl ⟨hnext, rfl⟩
        · rename_i more
          obtain ⟨⟨entries', rest'⟩, hentries, h⟩ := Option.bind_eq_some_iff.mp h
          obtain ⟨rfl, rfl⟩ := Prod.mk.inj (Option.some.inj h)
          exact Or.inr ⟨more, entries', hnext, hentries, rfl⟩
        · exact nomatch h
      · exact nomatch h
  · rintro (⟨hstart, rfl⟩ | ⟨start, path, behind, right, value, past, hstart, hclose, hpath,
      hright, hvalue, hmore⟩)
    · rw [hstart]
      rfl
    · refine Option.bind_eq_some_iff.mpr ⟨start, hstart, ?_⟩
      split
      · exact absurd rfl (hclose _)
      · refine Option.bind_eq_some_iff.mpr ⟨(path, behind), hpath, ?_⟩
        dsimp only
        rw [hright]
        refine Option.bind_eq_some_iff.mpr ⟨(value, past), hvalue, ?_⟩
        rcases hmore with ⟨hnext, rfl⟩ | ⟨more, entries', hnext, hentries, rfl⟩
        · exact Option.bind_eq_some_iff.mpr ⟨_, hnext, rfl⟩
        · exact Option.bind_eq_some_iff.mpr
            ⟨_, hnext, Option.bind_eq_some_iff.mpr ⟨(entries', rest), hentries, rfl⟩⟩

theorem Continues.suffix {α : Type} {close : Char}
    {read : List Char → Option (List α × List Char)} {a : α} {as : List α}
    (hread : ∀ more as', read more = some (as', rest) → close :: rest <:+ more)
    (h : Continues close read a cs as rest) : close :: rest <:+ cs := by
  rcases h with ⟨hclose, -⟩ | ⟨more, as', hcomma, hmore, -⟩
  · exact skipBlankLines?_suffix hclose
  · exact (hread more as' hmore).trans
      ((List.suffix_cons _ _).trans (skipBlankLines?_suffix hcomma))

/-- What is left behind a value, and behind the bracket that closes its items, is the end of the
text. -/
theorem readWrittenIn_suffixes (fuel : Nat) :
    (∀ {levels cs w rest}, readWrittenIn levels fuel cs = some (w, rest) → rest <:+ cs) ∧
      (∀ {levels cs items rest}, readItemsIn levels fuel cs = some (items, rest) →
        ']' :: rest <:+ cs) ∧
      ∀ {levels cs entries rest}, readEntriesIn levels fuel cs = some (entries, rest) →
        '}' :: rest <:+ cs := by
  induction fuel with
  | zero => exact ⟨nofun, nofun, nofun⟩
  | succ fuel ih =>
    obtain ⟨hwritten, hitems, hentries⟩ := ih
    refine ⟨fun {levels cs w rest} h => ?_, fun {levels cs items rest} h => ?_,
      fun {levels cs entries rest} h => ?_⟩
    · rcases readWrittenIn_eq_some_iff.mp h with ⟨levels', more, items, -, rfl, hmore, -⟩ |
        ⟨levels', more, entries, -, rfl, hmore, -⟩ | ⟨-, -, chars, hflat, -⟩
      · exact (List.suffix_cons _ _).trans ((hitems hmore).trans (List.suffix_cons _ _))
      · exact (List.suffix_cons _ _).trans ((hentries hmore).trans (List.suffix_cons _ _))
      · exact ⟨chars, splitFlat?_parts hflat⟩
    · rcases readItemsIn_eq_some_iff.mp h with ⟨hstart, -⟩ |
        ⟨start, item, past, hstart, -, hitem, hmore⟩
      · exact skipBlankLines?_suffix hstart
      · exact (hmore.suffix fun _ _ => hitems).trans
          ((hwritten hitem).trans (skipBlankLines?_suffix hstart))
    · rcases readEntriesIn_eq_some_iff.mp h with ⟨hstart, -⟩ |
        ⟨start, path, behind, right, value, past, hstart, -, hpath, hright, hvalue, hmore⟩
      · exact skipBlankLines?_suffix hstart
      · have hbehind : right <:+ behind :=
          (List.suffix_cons _ _).trans (hright ▸ skipSpace_suffix behind)
        exact (hmore.suffix fun _ _ => hentries).trans ((hwritten hvalue).trans
          ((skipSpace_suffix right).trans (hbehind.trans
            ((readPath?_suffix hpath).1.trans (skipBlankLines?_suffix hstart)))))

theorem Continues.append {α : Type} {close : Char}
    {read read' : List Char → Option (List α × List Char)} {a a' : α} {as : List α}
    {move : List α → List α} (hnil : move [] = []) (hcons : ∀ as, move (a :: as) = a' :: move as)
    (hsuffix : ∀ more as', read more = some (as', rest) → close :: rest <:+ more)
    (hread : ∀ more as', read more = some (as', rest) →
      read' (more ++ z) = some (move as', rest ++ z))
    (hends : EndsLine rest) (h : Continues close read a cs as rest) :
    Continues close read' a' (cs ++ z) (move as) (rest ++ z) := by
  have hclose : EndsLine (close :: rest) := hends.mono (List.suffix_cons _ _)
  rcases h with ⟨hstart, rfl⟩ | ⟨more, as', hcomma, hmore, rfl⟩
  · refine Or.inl ⟨skipBlankLines?_append_of_endsLine hstart hclose, ?_⟩
    rw [hcons, hnil]
  · have hmore' : EndsLine (',' :: more) :=
      (hclose.mono (hsuffix more as' hmore)).mono (List.suffix_cons _ _)
    exact Or.inr ⟨more ++ z, move as', skipBlankLines?_append_of_endsLine hcomma hmore',
      hread more as' hmore, hcons as'⟩

/-- What is read in `fuel` steps, and ends in complete lines, is the same with `z` behind them. -/
structure Steady (z : List Char) (fuel : Nat) : Prop where
  written {levels fuel' : Nat} {cs rest : List Char} {w : Written} :
    readWrittenIn levels fuel cs = some (w, rest) → EndsLine rest → fuel ≤ fuel' →
      readWrittenIn levels fuel' (cs ++ z) = some (w.shift z.length, rest ++ z)
  items {levels fuel' : Nat} {cs rest : List Char} {items : List Written} :
    readItemsIn levels fuel cs = some (items, rest) → EndsLine rest → fuel ≤ fuel' →
      readItemsIn levels fuel' (cs ++ z) = some (shiftItems z.length items, rest ++ z)
  entries {levels fuel' : Nat} {cs rest : List Char} {entries : List (List Key × Written)} :
    readEntriesIn levels fuel cs = some (entries, rest) → EndsLine rest → fuel ≤ fuel' →
      readEntriesIn levels fuel' (cs ++ z) = some (shiftEntries z.length entries, rest ++ z)

namespace Steady

variable {fuel' : Nat}

theorem written_succ (ih : Steady z fuel) {w : Written}
    (h : readWrittenIn levels (fuel + 1) cs = some (w, rest)) (hends : EndsLine rest)
    (hfuel : fuel ≤ fuel') :
    readWrittenIn levels (fuel' + 1) (cs ++ z) = some (w.shift z.length, rest ++ z) := by
  have hcs : EndsLine cs := hends.mono ((readWrittenIn_suffixes (fuel + 1)).1 h)
  rw [readWrittenIn_eq_some_iff]
  rcases readWrittenIn_eq_some_iff.mp h with ⟨levels', more, items, rfl, rfl, hmore, rfl⟩ |
    ⟨levels', more, entries, rfl, rfl, hmore, rfl⟩ | ⟨harray, htable, chars, hflat, rfl⟩
  · refine Or.inl ⟨levels', more ++ z, _, rfl, rfl, ih.items hmore hends hfuel, ?_⟩
    rw [Extent.shift_eq]
    rfl
  · refine Or.inr (Or.inl ⟨levels', more ++ z, _, rfl, rfl, ih.entries hmore hends hfuel, ?_⟩)
    rw [Extent.shift_eq]
    rfl
  · refine Or.inr (Or.inr ⟨hcs.append_ne_cons harray, hcs.append_ne_cons htable, chars,
      splitFlat?_append hflat hends, ?_⟩)
    rw [Extent.shift_eq]
    rfl

theorem items_succ (ih : Steady z fuel) {items : List Written}
    (h : readItemsIn levels (fuel + 1) cs = some (items, rest)) (hends : EndsLine rest)
    (hfuel : fuel ≤ fuel') :
    readItemsIn levels (fuel' + 1) (cs ++ z) =
      some (shiftItems z.length items, rest ++ z) := by
  obtain ⟨hwritten, hitems, -⟩ := readWrittenIn_suffixes fuel
  rw [readItemsIn_eq_some_iff]
  rcases readItemsIn_eq_some_iff.mp h with ⟨hstart, rfl⟩ |
    ⟨start, item, past, hstart, hclose, hitem, hmore⟩
  · have hclose : EndsLine (']' :: rest) := hends.mono (List.suffix_cons _ _)
    exact Or.inl ⟨skipBlankLines?_append_of_endsLine hstart hclose, rfl⟩
  · have hpast : EndsLine past :=
      hends.mono ((List.suffix_cons _ _).trans (hmore.suffix fun _ _ => hitems))
    have hstart' : EndsLine start := hpast.mono (hwritten hitem)
    exact Or.inr ⟨start ++ z, _, past ++ z, skipBlankLines?_append_of_endsLine hstart hstart',
      hstart'.append_ne_cons hclose, ih.written hitem hpast hfuel,
      hmore.append rfl (fun _ => rfl) (fun _ _ => hitems)
        (fun _ _ hread => ih.items hread hends hfuel) hends⟩

theorem entries_succ (ih : Steady z fuel) {entries : List (List Key × Written)}
    (h : readEntriesIn levels (fuel + 1) cs = some (entries, rest)) (hends : EndsLine rest)
    (hfuel : fuel ≤ fuel') :
    readEntriesIn levels (fuel' + 1) (cs ++ z) =
      some (shiftEntries z.length entries, rest ++ z) := by
  obtain ⟨hwritten, -, hentries⟩ := readWrittenIn_suffixes fuel
  rw [readEntriesIn_eq_some_iff]
  rcases readEntriesIn_eq_some_iff.mp h with ⟨hstart, rfl⟩ |
    ⟨start, path, behind, right, value, past, hstart, hclose, hpath, hright, hvalue, hmore⟩
  · have hclose : EndsLine ('}' :: rest) := hends.mono (List.suffix_cons _ _)
    exact Or.inl ⟨skipBlankLines?_append_of_endsLine hstart hclose, rfl⟩
  · have hpast : EndsLine past :=
      hends.mono ((List.suffix_cons _ _).trans (hmore.suffix fun _ _ => hentries))
    have hvalue' : EndsLine (skipSpace right) := hpast.mono (hwritten hvalue)
    have hbehind : EndsLine (skipSpace behind) := by
      rw [hright]
      exact (hvalue'.mono (skipSpace_suffix right)).mono (List.suffix_cons _ _)
    have hrest : EndsLine behind := hbehind.mono (skipSpace_suffix behind)
    have hstart' : EndsLine start := hrest.mono (readPath?_suffix hpath).1
    have hright' : skipSpace (behind ++ z) = '=' :: (right ++ z) := by
      rw [skipSpace_append hbehind, hright]
      rfl
    have hvalue'' : readWrittenIn levels fuel' (skipSpace (right ++ z)) =
        some (value.shift z.length, past ++ z) := by
      rw [skipSpace_append hvalue']
      exact ih.written hvalue hpast hfuel
    exact Or.inr ⟨start ++ z, _, behind ++ z, right ++ z, _, past ++ z,
      skipBlankLines?_append_of_endsLine hstart hstart', hstart'.append_ne_cons hclose,
      readPath?_append hpath hrest, hright', hvalue'',
      hmore.append rfl (fun _ => rfl) (fun _ _ => hentries)
        (fun _ _ hread => ih.entries hread hends hfuel) hends⟩

end Steady

theorem steady (z : List Char) (fuel : Nat) : Steady z fuel := by
  induction fuel with
  | zero => exact ⟨nofun, nofun, nofun⟩
  | succ fuel ih =>
    have hsucc : ∀ {fuel'}, fuel + 1 ≤ fuel' → ∃ n, fuel' = n + 1 ∧ fuel ≤ n :=
      fun {fuel'} h => ⟨fuel' - 1, by omega, by omega⟩
    refine ⟨fun h hends hfuel => ?_, fun h hends hfuel => ?_, fun h hends hfuel => ?_⟩
    · obtain ⟨n, rfl, hn⟩ := hsucc hfuel
      exact ih.written_succ h hends hn
    · obtain ⟨n, rfl, hn⟩ := hsucc hfuel
      exact ih.items_succ h hends hn
    · obtain ⟨n, rfl, hn⟩ := hsucc hfuel
      exact ih.entries_succ h hends hn

theorem readWritten?_suffix {w : Written} (h : readWritten? cs = some (w, rest)) : rest <:+ cs :=
  (readWrittenIn_suffixes _).1 h

theorem readWritten?_append {w : Written} (h : readWritten? cs = some (w, rest))
    (hends : EndsLine rest) :
    readWritten? (cs ++ z) = some (w.shift z.length, rest ++ z) :=
  (steady z _).written h hends (by rw [List.length_append]; omega)

/-- A value that ends before the last line break is followed by it. Only a text in quotes can take
the line break along, when it is not closed. -/
theorem readWritten?_endsLine {w : Written} (h : readWritten? cs = some (w, rest))
    (hcs : EndsLine cs) :
    EndsLine rest ∨ (splitText? cs).isSome = true ∧ ∃ extent, w = .scalar cs extent := by
  obtain ⟨-, hitems, hentries⟩ := readWrittenIn_suffixes (2 * cs.length + 1)
  rcases readWrittenIn_eq_some_iff.mp h with ⟨levels', more, items, -, rfl, hmore, -⟩ |
    ⟨levels', more, entries, -, rfl, hmore, -⟩ | ⟨-, -, chars, hflat, rfl⟩
  · have hclose : EndsLine (']' :: rest) :=
      hcs.of_suffix ((hitems hmore).trans (List.suffix_cons _ _)) (List.cons_ne_nil _ _)
    exact Or.inl (hclose.tail_of_ne (by decide))
  · have hclose : EndsLine ('}' :: rest) :=
      hcs.of_suffix ((hentries hmore).trans (List.suffix_cons _ _)) (List.cons_ne_nil _ _)
    exact Or.inl (hclose.tail_of_ne (by decide))
  · have hparts := splitFlat?_parts hflat
    unfold splitFlat? at hflat
    cases hsplit : splitText? cs with
    | some s =>
      by_cases hrest : rest = []
      · subst hrest
        rw [List.append_nil] at hparts
        rw [hparts]
        exact Or.inr ⟨rfl, _, rfl⟩
      · exact Or.inl (hcs.of_suffix ⟨chars, hparts⟩ hrest)
    | none =>
      rw [hsplit] at hflat
      dsimp only at hflat
      split at hflat
      · exact nomatch hflat
      · have hends := hcs.splitScalar
        rw [Option.some.inj hflat] at hends
        exact Or.inl hends

end Written

end Shakedown.Toml
