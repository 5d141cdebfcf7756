import Shakedown.Proofs.Toml.Reading
import Shakedown.Toml.Document

/-!
# The statements of complete lines

A document that begins with complete lines has the statements of these lines, and then those of
what follows. This needs a value behind every key in the lines: three quotes that are opened there
and not closed take what follows along.
-/

namespace Shakedown.Toml

variable {cs rest z : List Char}

/-! ### Headers and pairs -/

/-- Reads the path of a header, with `n` characters left at its start, and its closing brackets. -/
def readHeaderIn? (n : Nat) (ofArray : Bool) (inner close : List Char) :
    Option (Statement × List Char) :=
  (readPath? inner).bind fun p =>
    if close.isPrefixOf p.2 then
      some (.header ofArray p.1 ⟨n, (p.2.drop close.length).length⟩, p.2.drop close.length)
    else none

theorem readHeaderIn?_eq_some_iff {n : Nat} {ofArray : Bool} {inner close : List Char}
    {s : Statement} :
    readHeaderIn? n ofArray inner close = some (s, rest) ↔
      ∃ path, readPath? inner = some (path, close ++ rest) ∧
        s = .header ofArray path ⟨n, rest.length⟩ := by
  constructor
  · intro h
    obtain ⟨⟨path, past⟩, hpath, h⟩ := Option.bind_eq_some_iff.mp h
    split at h
    · rename_i hprefix
      obtain ⟨more, rfl⟩ := List.isPrefixOf_iff_prefix.mp hprefix
      dsimp only at h
      rw [List.drop_left] at h
      obtain ⟨rfl, rfl⟩ := Prod.mk.inj (Option.some.inj h)
      exact ⟨path, hpath, rfl⟩
    · exact nomatch h
  · rintro ⟨path, hpath, rfl⟩
    refine Option.bind_eq_some_iff.mpr ⟨_, hpath, ?_⟩
    dsimp only
    rw [if_pos (List.isPrefixOf_iff_prefix.mpr (List.prefix_append close rest)), List.drop_left]

theorem readHeader?_table {inner : List Char} (h : ∀ more, inner ≠ '[' :: more) :
    readHeader? ('[' :: inner) = readHeaderIn? ('[' :: inner).length false inner [']'] := by
  rw [readHeader?]
  · rfl
  · exact h

theorem readHeader?_eq_some_iff {s : Statement} :
    readHeader? cs = some (s, rest) ↔
      (∃ inner path, cs = '[' :: '[' :: inner ∧
          readPath? inner = some (path, ']' :: ']' :: rest) ∧
          s = .header true path ⟨cs.length, rest.length⟩) ∨
        ∃ inner path, cs = '[' :: inner ∧ (∀ more, inner ≠ '[' :: more) ∧
          readPath? inner = some (path, ']' :: rest) ∧
          s = .header false path ⟨cs.length, rest.length⟩ := by
  constructor
  · intro h
    have hopen : ∃ inner, cs = '[' :: inner := by
      unfold readHeader? at h
      split at h
      · exact ⟨_, rfl⟩
      · exact ⟨_, rfl⟩
      · exact nomatch h
    obtain ⟨inner, rfl⟩ := hopen
    by_cases htables : ∃ more, inner = '[' :: more
    · obtain ⟨more, rfl⟩ := htables
      obtain ⟨path, hpath, rfl⟩ := readHeaderIn?_eq_some_iff.mp h
      exact Or.inl ⟨more, path, rfl, hpath, rfl⟩
    · rw [readHeader?_table (not_exists.mp htables)] at h
      obtain ⟨path, hpath, rfl⟩ := readHeaderIn?_eq_some_iff.mp h
      exact Or.inr ⟨inner, path, rfl, not_exists.mp htables, hpath, rfl⟩
  · rintro (⟨inner, path, rfl, hpath, rfl⟩ | ⟨inner, path, rfl, htable, hpath, rfl⟩)
    · exact readHeaderIn?_eq_some_iff.mpr ⟨path, hpath, rfl⟩
    · rw [readHeader?_table htable]
      exact readHeaderIn?_eq_some_iff.mpr ⟨path, hpath, rfl⟩

theorem readHeader?_suffix {s : Statement} (h : readHeader? cs = some (s, rest)) :
    ']' :: rest <:+ cs := by
  rcases readHeader?_eq_some_iff.mp h with ⟨inner, path, rfl, hpath, -⟩ |
    ⟨inner, path, rfl, -, hpath, -⟩
  · have hinner : ']' :: rest <:+ inner :=
      (List.suffix_cons _ _).trans (readPath?_suffix hpath).1
    exact hinner.trans ⟨['[', '['], rfl⟩
  · exact (readPath?_suffix hpath).1.trans (List.suffix_cons _ _)

theorem readHeader?_append {s : Statement} (h : readHeader? cs = some (s, rest))
    (hends : EndsLine rest) :
    readHeader? (cs ++ z) = some (s.shift z.length, rest ++ z) := by
  rw [readHeader?_eq_some_iff]
  have hclose : EndsLine (']' :: rest) := hends.mono (List.suffix_cons _ _)
  rcases readHeader?_eq_some_iff.mp h with ⟨inner, path, rfl, hpath, rfl⟩ |
    ⟨inner, path, rfl, htable, hpath, rfl⟩
  · have hclose' : EndsLine (']' :: ']' :: rest) := hclose.mono (List.suffix_cons _ _)
    refine Or.inl ⟨inner ++ z, _, rfl, readPath?_append hpath hclose', ?_⟩
    rw [Extent.shift_eq]
    rfl
  · have hinner : EndsLine inner := hclose.mono (readPath?_suffix hpath).1
    refine Or.inr ⟨inner ++ z, _, rfl, hinner.append_ne_cons htable,
      readPath?_append hpath hclose, ?_⟩
    rw [Extent.shift_eq]
    rfl

theorem readPair?_eq_some_iff {s : Statement} :
    readPair? cs = some (s, rest) ↔
      ∃ path right value, readPath? cs = some (path, '=' :: right) ∧
        readWritten? (skipSpace right) = some (value, rest) ∧ s = .pair path value := by
  constructor
  · intro h
    obtain ⟨⟨path, behind⟩, hpath, h⟩ := Option.bind_eq_some_iff.mp h
    dsimp only at h
    split at h
    · rename_i right
      obtain ⟨⟨value, past⟩, hvalue, h⟩ := Option.bind_eq_some_iff.mp h
      obtain ⟨rfl, rfl⟩ := Prod.mk.inj (Option.some.inj h)
      exact ⟨path, right, value, hpath, hvalue, rfl⟩
    · exact nomatch h
  · rintro ⟨path, right, value, hpath, hvalue, rfl⟩
    exact Option.bind_eq_some_iff.mpr
      ⟨_, hpath, Option.bind_eq_some_iff.mpr ⟨(value, rest), hvalue, rfl⟩⟩

theorem readPair?_suffix {s : Statement} (h : readPair? cs = some (s, rest)) :
    rest <:+ cs ∧ rest.length < cs.length := by
  obtain ⟨path, right, value, hpath, hvalue, -⟩ := readPair?_eq_some_iff.mp h
  obtain ⟨hbehind, hshorter⟩ := readPath?_suffix hpath
  have hrest : rest <:+ right := (readWritten?_suffix hvalue).trans (skipSpace_suffix right)
  have hlength := hrest.length_le
  rw [List.length_cons] at hshorter
  exact ⟨hrest.trans ((List.suffix_cons _ _).trans hbehind), by omega⟩

theorem readPair?_append {s : Statement} (h : readPair? cs = some (s, rest))
    (hends : EndsLine rest) :
    readPair? (cs ++ z) = some (s.shift z.length, rest ++ z) := by
  obtain ⟨path, right, value, hpath, hvalue, rfl⟩ := readPair?_eq_some_iff.mp h
  have hright : EndsLine (skipSpace right) := hends.mono (readWritten?_suffix hvalue)
  have hbehind : EndsLine ('=' :: right) :=
    (hright.mono (skipSpace_suffix right)).mono (List.suffix_cons _ _)
  refine readPair?_eq_some_iff.mpr ⟨_, right ++ z, value.shift z.length,
    readPath?_append hpath hbehind, ?_, rfl⟩
  rw [skipSpace_append hright]
  exact readWritten?_append hvalue hends

/-- A header or a pair. -/
def readStatement? (cs : List Char) : Option (Statement × List Char) :=
  match cs with
  | '[' :: _ => readHeader? cs
  | _ => readPair? cs

theorem readStatement?_pair (h : ∀ more, cs ≠ '[' :: more) : readStatement? cs = readPair? cs := by
  unfold readStatement?
  split
  · exact absurd rfl (h _)
  · rfl

theorem readStatement?_suffix {s : Statement} (h : readStatement? cs = some (s, rest)) :
    rest <:+ cs ∧ rest.length < cs.length := by
  by_cases hheader : ∃ more, cs = '[' :: more
  · obtain ⟨more, rfl⟩ := hheader
    have hsuffix := readHeader?_suffix h
    exact ⟨(List.suffix_cons _ _).trans hsuffix, hsuffix.length_le⟩
  · rw [readStatement?_pair (not_exists.mp hheader)] at h
    exact readPair?_suffix h

theorem readStatement?_append {s : Statement} (h : readStatement? cs = some (s, rest))
    (hends : EndsLine rest) :
    readStatement? (cs ++ z) = some (s.shift z.length, rest ++ z) := by
  have hcs : EndsLine cs := hends.mono (readStatement?_suffix h).1
  by_cases hheader : ∃ more, cs = '[' :: more
  · obtain ⟨more, rfl⟩ := hheader
    exact readHeader?_append h hends
  · rw [readStatement?_pair (not_exists.mp hheader)] at h
    rw [readStatement?_pair (hcs.append_ne_cons (not_exists.mp hheader))]
    exact readPair?_append h hends

/-! ### Texts that are not closed -/

theorem unquote?_of_endsLine {quote : Char} {n : Nat} (h : EndsLine cs) (hquote : quote ≠ '\n')
    (hn : 0 < n) : unquote? quote n cs = none := by
  refine if_neg ?_
  rintro ⟨hlength, hmarks⟩
  have hends : EndsLine (List.replicate n quote) := by
    rw [← hmarks]
    refine h.of_suffix (List.drop_suffix _ _) ?_
    rw [Ne, List.drop_eq_nil_iff]
    omega
  exact hquote (List.eq_of_mem_replicate hends.mem).symm

/-- A text with a line break at its end is not closed. -/
theorem text?_of_endsLine (h : EndsLine cs) : text? cs = none := by
  unfold text?
  dsimp only
  split
  · rw [unquote?_of_endsLine h (by decide) (by decide)]
    rfl
  · rw [unquote?_of_endsLine h (by decide) (by decide)]
    rfl
  · rw [unquote?_of_endsLine h (by decide) (by decide)]
    rfl
  · rw [unquote?_of_endsLine h (by decide) (by decide)]
    rfl
  · rfl

theorem scalar?_of_endsLine (h : EndsLine cs) (htext : (splitText? cs).isSome = true) :
    scalar? cs = none := by
  unfold scalar?
  split
  · rw [text?_of_endsLine h]
    rfl
  · rw [text?_of_endsLine h]
    rfl
  · rename_i hbasic hliteral
    rw [splitText?_of_ne hbasic hliteral] at htext
    exact nomatch htext

/-- The values of a statement stand for something. -/
def Statement.HasValue : Statement → Prop
  | .header .. => True
  | .pair _ written => ∃ value, written.value? = .ok value

theorem readStatement?_endsLine {s : Statement} (h : readStatement? cs = some (s, rest))
    (hcs : EndsLine cs) (hvalue : s.HasValue) : EndsLine rest := by
  by_cases hheader : ∃ more, cs = '[' :: more
  · obtain ⟨more, rfl⟩ := hheader
    have hclose : EndsLine (']' :: rest) :=
      hcs.of_suffix (readHeader?_suffix h) (List.cons_ne_nil _ _)
    exact hclose.tail_of_ne (by decide)
  · rw [readStatement?_pair (not_exists.mp hheader)] at h
    obtain ⟨path, right, written, hpath, hwritten, rfl⟩ := readPair?_eq_some_iff.mp h
    have hright : EndsLine (skipSpace right) := by
      have hbehind : EndsLine ('=' :: right) :=
        hcs.of_suffix (readPath?_suffix hpath).1 (List.cons_ne_nil _ _)
      exact (hbehind.tail_of_ne (by decide)).skipSpace
    rcases readWritten?_endsLine hwritten hright with hends | ⟨htext, extent, rfl⟩
    · exact hends
    · -- a text that takes the last line break along has no closing quotes, so it has no value
      obtain ⟨value, hvalue⟩ := hvalue
      rw [Written.value?, scalar?_of_endsLine hright htext] at hvalue
      exact nomatch hvalue

/-! ### One statement after the other -/

/-- Reads the first statement, if there is one, and the others with `read`. -/
def readNext? (read : List Char → Option (List Statement)) (cs : List Char) :
    Option (List Statement) :=
  (skipBlankLines? cs).bind fun start =>
    if start = [] then some []
    else (readStatement? start).bind fun p =>
      (endLine? p.2).bind fun rest => (read rest).map (p.1 :: ·)

theorem readStatementsIn_succ (fuel : Nat) (cs : List Char) :
    readStatementsIn (fuel + 1) cs = readNext? (readStatementsIn fuel) cs := by
  rw [readStatementsIn]
  refine congrArg (Option.bind (skipBlankLines? cs)) (funext fun start => ?_)
  cases start with
  | nil => rfl
  | cons c more =>
    rw [if_neg (List.cons_ne_nil c more)]
    have hlater (p : Statement × List Char) (rest : List Char) :
        (readStatementsIn fuel rest).map (p.1 :: ·) =
          (readStatementsIn fuel rest).bind fun statements => some (p.1 :: statements) :=
      Option.map_eq_bind
    simp only [hlater]
    by_cases hc : c = '['
    · subst hc
      rfl
    · rw [readStatement?_pair fun _ heq => hc (List.cons.inj heq).1]
      split
      · exact absurd (List.cons.inj ‹_›).1 hc
      · rfl

theorem readNext?_congr {read read' : List Char → Option (List Statement)}
    (h : ∀ rest, rest.length < cs.length → read rest = read' rest) :
    readNext? read cs = readNext? read' cs := by
  unfold readNext?
  cases hstart : skipBlankLines? cs with
  | none => rfl
  | some start =>
    have hstart' := (skipBlankLines?_suffix hstart).length_le
    rw [Option.bind_some, Option.bind_some]
    by_cases hnil : start = []
    · rw [if_pos hnil, if_pos hnil]
    · rw [if_neg hnil, if_neg hnil]
      cases hstatement : readStatement? start with
      | none => rfl
      | some p =>
        rw [Option.bind_some, Option.bind_some]
        cases hend : endLine? p.2 with
        | none => rfl
        | some rest =>
          have hpast : p.2.length < start.length := (readStatement?_suffix hstatement).2
          have hrest := (endLine?_suffix hend).length_le
          rw [Option.bind_some, Option.bind_some, h rest (by omega)]

theorem readStatementsIn_of_lt {fuel fuel' : Nat} (h : cs.length < fuel) (h' : cs.length < fuel') :
    readStatementsIn fuel cs = readStatementsIn fuel' cs := by
  induction fuel generalizing fuel' cs with
  | zero => omega
  | succ fuel ih =>
    obtain ⟨fuel', rfl⟩ : ∃ n, fuel' = n + 1 := ⟨fuel' - 1, by omega⟩
    rw [readStatementsIn_succ, readStatementsIn_succ]
    exact readNext?_congr fun rest hrest => ih (by omega) (by omega)

/-- The statements of a document without a byte order mark. -/
def statementsOf? (cs : List Char) : Option (List Statement) :=
  readStatementsIn (cs.length + 1) cs

theorem statementsOf?_eq (cs : List Char) : statementsOf? cs = readNext? statementsOf? cs := by
  rw [statementsOf?, readStatementsIn_succ]
  exact readNext?_congr fun rest hrest => readStatementsIn_of_lt hrest (Nat.lt_succ_self _)

theorem statementsOf?_congr (h : skipBlankLines? cs = skipBlankLines? z) :
    statementsOf? cs = statementsOf? z := by
  rw [statementsOf?_eq, statementsOf?_eq, readNext?, readNext?, h]

/-- Complete lines whose values all stand for something can be read on their own. -/
theorem statementsOf?_append {statements : List Statement} (h : statementsOf? cs = some statements)
    (hcs : cs = [] ∨ EndsLine cs) (hvalues : ∀ s ∈ statements, s.HasValue) (z : List Char) :
    statementsOf? (cs ++ z) =
      (statementsOf? z).map (statements.map (Statement.shift z.length) ++ ·) := by
  induction hlength : cs.length using Nat.strongRecOn generalizing cs statements with
  | ind n ih =>
    subst hlength
    rw [statementsOf?_eq] at h
    obtain ⟨start, hstart, h⟩ := Option.bind_eq_some_iff.mp h
    have hblank := skipBlankLines?_append (z := z) hcs
    rw [hstart, Option.bind_some] at hblank
    by_cases hnil : start = []
    · rw [if_pos hnil] at h hblank
      obtain rfl := Option.some.inj h
      rw [statementsOf?_congr hblank]
      cases statementsOf? z <;> rfl
    · rw [if_neg hnil] at h hblank
      obtain ⟨⟨s, past⟩, hstatement, h⟩ := Option.bind_eq_some_iff.mp h
      obtain ⟨rest, hrest, h⟩ := Option.bind_eq_some_iff.mp h
      obtain ⟨more, hmore, rfl⟩ := Option.map_eq_some_iff.mp h
      have hsuffix := skipBlankLines?_suffix hstart
      have hends : EndsLine start := by
        rcases hcs with rfl | hcs
        · exact absurd (List.eq_nil_of_suffix_nil hsuffix) hnil
        · exact hcs.of_suffix hsuffix hnil
      have hpast : EndsLine past :=
        readStatement?_endsLine hstatement hends (hvalues s List.mem_cons_self)
      have hend : endLine? (past ++ z) = some (rest ++ z) := by
        rw [endLine?_append hpast, hrest]
        rfl
      have hshorter : rest.length < cs.length :=
        calc rest.length ≤ past.length := (endLine?_suffix hrest).length_le
          _ < start.length := (readStatement?_suffix hstatement).2
          _ ≤ cs.length := hsuffix.length_le
      have hrest' : rest = [] ∨ EndsLine rest :=
        (eq_or_ne rest []).imp_right (hpast.of_suffix (endLine?_suffix hrest))
      have hlater := ih rest.length hshorter hmore hrest'
        (fun t ht => hvalues t (List.mem_cons_of_mem s ht)) rfl
      have hne : ¬start ++ z = [] := fun heq => hnil (List.append_eq_nil_iff.mp heq).1
      rw [statementsOf?_eq, readNext?, hblank, Option.bind_some, if_neg hne,
        readStatement?_append hstatement hpast, Option.bind_some]
      dsimp only
      rw [hend, Option.bind_some, hlater, Option.map_map]
      rfl

/-- A document without the byte order mark that may stand before it. -/
def afterMark (cs : List Char) : List Char :=
  if cs.head? = some '\uFEFF' then cs.drop 1 else cs

theorem readStatements?_eq (cs : List Char) : readStatements? cs = statementsOf? (afterMark cs) :=
  rfl

theorem readStatements?_append {statements : List Statement}
    (h : readStatements? cs = some statements) (hcs : EndsLine cs)
    (hvalues : ∀ s ∈ statements, s.HasValue) (z : List Char) :
    readStatements? (cs ++ z) =
      (statementsOf? z).map (statements.map (Statement.shift z.length) ++ ·) := by
  obtain ⟨c, more, rfl⟩ := List.exists_cons_of_ne_nil hcs.ne_nil
  rw [readStatements?_eq] at h
  have happend : afterMark (c :: more ++ z) = afterMark (c :: more) ++ z := by
    by_cases hmark : c = '\uFEFF'
    · subst hmark
      rfl
    · have hhead : ¬some c = some '\uFEFF' := fun heq => hmark (Option.some.inj heq)
      exact (if_neg hhead).trans (congrArg (· ++ z) (if_neg hhead).symm)
  have hends : EndsLine (afterMark (c :: more)) := by
    by_cases hmark : c = '\uFEFF'
    · subst hmark
      exact hcs.tail_of_ne (by decide)
    · have hhead : ¬some c = some '\uFEFF' := fun heq => hmark (Option.some.inj heq)
      rw [show afterMark (c :: more) = c :: more from if_neg hhead]
      exact hcs
  rw [readStatements?_eq, happend]
  exact statementsOf?_append h (Or.inr hends) hvalues z

end Shakedown.Toml
