import Shakedown.Settings.Placeholder

/-!
# Placeholders and what stands between them

A text falls apart, from left to right and in one way only, into literal pieces and placeholders: a
literal piece goes on as long as no placeholder begins, and a placeholder ends at the first closing
brace. Substitution keeps the literal pieces and the placeholders of variables that are not set, and
puts the values of the others in their places.
-/

namespace Shakedown.Placeholder

/-! ### Where placeholders begin -/

/-- A text begins with the placeholder of a name, and a rest follows. -/
def Opens (name rest cs : List Char) : Prop :=
  name ≠ [] ∧ '}' ∉ name ∧ cs = '$' :: '{' :: (name ++ '}' :: rest)

/-- No placeholder begins in a piece of text that a rest follows. -/
def Free (literal rest : List Char) : Prop :=
  ∀ before after, literal = before ++ after → after ≠ [] →
    ∀ name rest', ¬Opens name rest' (after ++ rest)

/-- Every opening of a placeholder has a closing brace behind it. -/
def Closed (cs : List Char) : Prop :=
  ∀ before after, cs = before ++ '$' :: '{' :: after → '}' ∈ after

theorem Opens.nameAt? {name rest cs : List Char} (hopens : Opens name rest cs) :
    nameAt? cs = some name := by
  obtain ⟨hne, hbrace, rfl⟩ := hopens
  have htake : (name ++ '}' :: rest).takeWhile (· ≠ '}') = name := by
    rw [List.takeWhile_append_of_pos]
    · simp
    · intro c hc
      have hother : c ≠ '}' := fun h => hbrace (h ▸ hc)
      simpa using hother
  rw [Placeholder.nameAt?, htake, if_pos ⟨hne, by simp⟩]

theorem exists_opens {name cs : List Char} (hname : nameAt? cs = some name) :
    ∃ rest, Opens name rest cs := by
  unfold Placeholder.nameAt? at hname
  split at hname
  · rename_i inner
    have hsplit := List.takeWhile_append_dropWhile (p := (· ≠ '}')) (l := inner)
    dsimp only at hname
    generalize htake : inner.takeWhile (· ≠ '}') = taken at hname hsplit
    have hdrop : inner.drop taken.length = inner.dropWhile (· ≠ '}') := by
      conv => lhs; rw [← hsplit]
      exact List.drop_left
    obtain ⟨⟨hne, hmore⟩, rfl⟩ : (taken ≠ [] ∧ inner.drop taken.length ≠ []) ∧ taken = name := by
      simpa using hname
    rw [hdrop] at hmore
    obtain ⟨c, rest, hrest⟩ := List.exists_cons_of_ne_nil hmore
    have hc : c = '}' := by
      have hhead := List.head_dropWhile_not (· ≠ '}') hmore
      simp only [hrest, List.head_cons] at hhead
      exact Decidable.of_not_not (of_decide_eq_false hhead)
    have hall : taken.all (· ≠ '}') = true := htake ▸ List.all_takeWhile
    refine ⟨rest, hne, ?_, ?_⟩
    · intro hbrace
      simpa using List.all_eq_true.mp hall _ hbrace
    · rw [← hsplit, hrest, hc]
  · exact nomatch hname

/-! ### The way a text falls apart -/

/-- Literal pieces, each with the name of the placeholder behind it, and the literal piece at the
end. -/
structure Decomposition where
  parts : List (List Char × List Char)
  tail : List Char

/-- What stands in the place of a placeholder: the value of the variable, or the placeholder as it
was. -/
def valueAt (env : Environment) (name : List Char) : List Char :=
  match env (String.ofList name) with
  | some value => value.toList
  | none => '$' :: '{' :: (name ++ ['}'])

namespace Decomposition

def names (d : Decomposition) : List (List Char) :=
  d.parts.map Prod.snd

def resolve (env : Environment) (d : Decomposition) : List Char :=
  (d.parts.flatMap fun p => p.1 ++ valueAt env p.2) ++ d.tail

def pieces (d : Decomposition) : List Piece :=
  (d.parts.flatMap fun p => p.1.map .literal ++ [.variable_ p.2]) ++ d.tail.map .literal

end Decomposition

/-- A text falls apart in a way, from left to right: up to the first placeholder nothing begins one,
and behind it the rest falls apart. -/
inductive Scan : List Char → Decomposition → Prop
  | last {tail : List Char} : Free tail [] → Scan tail ⟨[], tail⟩
  | next {literal name rest : List Char} {d : Decomposition} :
      Free literal ('$' :: '{' :: (name ++ '}' :: rest)) → name ≠ [] → '}' ∉ name → Scan rest d →
      Scan (literal ++ '$' :: '{' :: (name ++ '}' :: rest)) ⟨(literal, name) :: d.parts, d.tail⟩

theorem free_cons_iff {c : Char} {literal rest : List Char} :
    Free (c :: literal) rest ↔
      (∀ name rest', ¬Opens name rest' (c :: (literal ++ rest))) ∧ Free literal rest := by
  constructor
  · intro hfree
    refine ⟨hfree [] (c :: literal) rfl (List.cons_ne_nil c literal), ?_⟩
    rintro before after rfl hne
    exact hfree (c :: before) after rfl hne
  · rintro ⟨hhere, hlater⟩ before after hsplit hne
    cases before with
    | nil =>
      obtain rfl : c :: literal = after := hsplit
      exact hhere
    | cons b before =>
      obtain ⟨rfl, rfl⟩ := List.cons.inj hsplit
      exact hlater before after rfl hne

theorem free_nil (rest : List Char) : Free [] rest := by
  intro before after hsplit hne
  exact absurd (List.append_eq_nil_iff.mp hsplit.symm).2 hne

/-- The placeholder of a variable falls apart into nothing else. -/
theorem scan_variable {name : List Char} (hne : name ≠ []) (hbrace : '}' ∉ name) :
    Scan (Piece.variable_ name).chars ⟨[([], name)], []⟩ :=
  @Scan.next [] name [] ⟨[], []⟩ (free_nil _) hne hbrace (Scan.last (free_nil []))

theorem exists_scan (cs : List Char) : ∃ d, Scan cs d := by
  induction hlength : cs.length using Nat.strongRecOn generalizing cs with
  | ind n ih =>
    cases cs with
    | nil => exact ⟨_, Scan.last (free_nil [])⟩
    | cons c more =>
      by_cases hopens : ∃ name rest, Opens name rest (c :: more)
      · obtain ⟨name, rest, hne, hbrace, htext⟩ := hopens
        have hshorter : rest.length < n := by
          rw [← hlength, htext]
          simp only [List.length_cons, List.length_append]
          omega
        obtain ⟨d, hd⟩ := ih rest.length hshorter rest rfl
        rw [htext]
        exact ⟨_, @Scan.next [] name rest d (free_nil _) hne hbrace hd⟩
      · have hhere : ∀ name rest, ¬Opens name rest (c :: more) := fun name rest h =>
          hopens ⟨name, rest, h⟩
        have hshorter : more.length < n := by
          rw [← hlength, List.length_cons]
          omega
        obtain ⟨d, hd⟩ := ih more.length hshorter more rfl
        cases hd with
        | last hfree =>
          exact ⟨_, Scan.last (free_cons_iff.mpr ⟨by rwa [List.append_nil], hfree⟩)⟩
        | next hfree hne hbrace hrest =>
          exact ⟨_, Scan.next (free_cons_iff.mpr ⟨hhere, hfree⟩) hne hbrace hrest⟩

/-! ### The parts that are found -/

theorem piecesFrom_eq (n : Nat) (cs : List Char) : piecesFrom n cs = pieces (cs.drop n) := by
  induction n generalizing cs with
  | zero => rfl
  | succ n ih =>
    cases cs with
    | nil => rfl
    | cons c rest => exact ih rest

theorem pieces_of_opens {name rest cs : List Char} (hopens : Opens name rest cs) :
    pieces cs = .variable_ name :: pieces rest := by
  have hname := hopens.nameAt?
  obtain ⟨-, -, rfl⟩ := hopens
  rw [pieces, piecesFrom, hname]
  simp only [piecesFrom_eq]
  have hdrop : ('{' :: (name ++ '}' :: rest)).drop (name.length + 2) = rest := by
    simp
  rw [hdrop]

theorem pieces_of_free {literal rest : List Char} (hfree : Free literal rest) :
    pieces (literal ++ rest) = literal.map .literal ++ pieces rest := by
  induction literal with
  | nil => rfl
  | cons c more ih =>
    obtain ⟨hhere, hmore⟩ := free_cons_iff.mp hfree
    have hnone : nameAt? (c :: (more ++ rest)) = none := by
      cases hname : nameAt? (c :: (more ++ rest)) with
      | none => rfl
      | some name =>
        obtain ⟨rest', hopens⟩ := exists_opens hname
        exact absurd hopens (hhere name rest')
    have hstep : pieces (c :: (more ++ rest)) = .literal c :: pieces (more ++ rest) := by
      rw [pieces, piecesFrom, hnone]
      rfl
    rw [List.cons_append, hstep, ih hmore]
    rfl

theorem Scan.pieces_eq {cs : List Char} {d : Decomposition} (hscan : Scan cs d) :
    pieces cs = d.pieces := by
  induction hscan with
  | last hfree =>
    have hpieces := pieces_of_free hfree
    rw [List.append_nil] at hpieces
    rw [hpieces]
    exact List.append_nil _
  | @next literal name rest d hfree hne hbrace _ ih =>
    rw [pieces_of_free hfree, pieces_of_opens ⟨hne, hbrace, rfl⟩, ih]
    simp [Decomposition.pieces]

/-- Where the placeholders stand tells runs of literal characters apart. -/
theorem literals_inj {l l' : List Char} {name name' : List Char} {rest rest' : List Piece}
    (h : l.map Piece.literal ++ .variable_ name :: rest =
      l'.map Piece.literal ++ .variable_ name' :: rest') :
    l = l' ∧ name = name' ∧ rest = rest' := by
  induction l generalizing l' with
  | nil =>
    cases l' with
    | nil => simpa using h
    | cons c' more' => simp at h
  | cons c more ih =>
    cases l' with
    | nil => simp at h
    | cons c' more' =>
      simp only [List.map_cons, List.cons_append, List.cons.injEq, Piece.literal.injEq] at h
      obtain ⟨rfl, h⟩ := h
      obtain ⟨rfl, hrest⟩ := ih h
      exact ⟨rfl, hrest⟩

theorem map_literal_ne {l l' : List Char} {name : List Char} {rest : List Piece} :
    l.map Piece.literal ≠ l'.map Piece.literal ++ .variable_ name :: rest := by
  intro h
  have hmem : Piece.variable_ name ∈ l.map Piece.literal := by
    rw [h]
    exact List.mem_append_right _ List.mem_cons_self
  obtain ⟨c, -, hc⟩ := List.mem_map.mp hmem
  exact nomatch hc

theorem Decomposition.pieces_cons (p : List Char × List Char) (parts : List (List Char × List Char))
    (tail : List Char) :
    (Decomposition.mk (p :: parts) tail).pieces =
      p.1.map .literal ++ .variable_ p.2 :: (Decomposition.mk parts tail).pieces := by
  simp [Decomposition.pieces]

theorem Decomposition.pieces_injective {d d' : Decomposition} (h : d.pieces = d'.pieces) :
    d = d' := by
  obtain ⟨parts, tail⟩ := d
  obtain ⟨parts', tail'⟩ := d'
  induction parts generalizing parts' with
  | nil =>
    cases parts' with
    | nil =>
      have htail : tail.map Piece.literal = tail'.map Piece.literal := h
      rw [(List.map_inj_right fun _ _ => Piece.literal.inj).mp htail]
    | cons p' more' =>
      rw [pieces_cons] at h
      exact absurd h map_literal_ne
  | cons p more ih =>
    rw [pieces_cons] at h
    cases parts' with
    | nil => exact absurd h.symm map_literal_ne
    | cons p' more' =>
      rw [pieces_cons] at h
      obtain ⟨hliteral, hname, hrest⟩ := literals_inj h
      obtain ⟨rfl, rfl⟩ := Decomposition.mk.inj (ih more' hrest)
      rw [Prod.ext hliteral hname]

theorem Scan.unique {cs : List Char} {d d' : Decomposition} (hd : Scan cs d) (hd' : Scan cs d') :
    d = d' :=
  Decomposition.pieces_injective (hd.pieces_eq.symm.trans hd'.pieces_eq)

theorem filterMap_literals {α : Type} {f : Piece → Option α} (hf : ∀ c, f (.literal c) = none)
    (l : List Char) : (l.map Piece.literal).filterMap f = [] := by
  rw [List.filterMap_eq_nil_iff]
  intro p hp
  obtain ⟨c, -, rfl⟩ := List.mem_map.mp hp
  exact hf c

theorem Scan.names_eq {cs : List Char} {d : Decomposition} (hscan : Scan cs d) :
    names cs = d.names := by
  obtain ⟨parts, tail⟩ := d
  rw [names, hscan.pieces_eq]
  clear hscan
  induction parts with
  | nil => exact filterMap_literals (fun _ => rfl) tail
  | cons p more ih =>
    rw [Decomposition.pieces_cons, List.filterMap_append, filterMap_literals fun _ => rfl]
    exact congrArg (p.2 :: ·) ih

/-! ### Substitution -/

variable (env : Environment)

theorem flatMap_resolve_literals (l : List Char) :
    (l.map Piece.literal).flatMap (Piece.resolve env) = l := by
  induction l with
  | nil => rfl
  | cons c more ih => exact congrArg (c :: ·) ih

theorem resolve_variable (name : List Char) :
    Piece.resolve env (.variable_ name) = valueAt env name := by
  simp only [Piece.resolve, valueAt]
  cases env (String.ofList name) <;> rfl

theorem substitute_of_scan {cs : List Char} {d : Decomposition} (hscan : Scan cs d) :
    substitute env cs = d.resolve env := by
  obtain ⟨parts, tail⟩ := d
  rw [substitute, hscan.pieces_eq]
  clear hscan
  induction parts with
  | nil => exact flatMap_resolve_literals env tail
  | cons p more ih =>
    rw [Decomposition.pieces_cons, List.flatMap_append, flatMap_resolve_literals, List.flatMap_cons,
      resolve_variable, ih]
    simp [Decomposition.resolve]

/-- Placeholders of variables that are not set stand for themselves. -/
theorem resolve_of_unset {cs : List Char} {d : Decomposition} (hscan : Scan cs d)
    (hunset : ∀ name ∈ d.names, env (String.ofList name) = none) : d.resolve env = cs := by
  induction hscan with
  | last hfree => rfl
  | @next literal name rest d hfree hne hbrace _ ih =>
    have hname : valueAt env name = '$' :: '{' :: (name ++ ['}']) := by
      rw [valueAt, hunset name List.mem_cons_self]
    have hrest : d.resolve env = rest := ih fun other hother =>
      hunset other (List.mem_cons_of_mem name hother)
    rw [Decomposition.resolve] at hrest
    rw [Decomposition.resolve, List.flatMap_cons, hname, List.append_assoc, hrest]
    simp

/-! ### Text behind text -/

/-- A placeholder cannot end in a text without a closing brace. -/
theorem opens_of_append {x w name rest : List Char} (hw : '}' ∉ w)
    (hopens : Opens name rest (x ++ w)) : ∃ rest', Opens name rest' x := by
  obtain ⟨hne, hbrace, htext⟩ := hopens
  have hsplit : x ++ w = ('$' :: '{' :: (name ++ ['}'])) ++ rest := by
    rw [htext]
    simp
  rcases List.append_eq_append_iff.mp hsplit with ⟨more, hmore, hwmore⟩ | ⟨more, hmore, -⟩
  · cases hends : more.getLast? with
    | none =>
      rw [List.getLast?_eq_none_iff] at hends
      subst hends
      refine ⟨[], hne, hbrace, ?_⟩
      simpa using hmore.symm
    | some c =>
      exfalso
      have hlast := congrArg List.getLast? hmore
      rw [List.getLast?_append, hends, ← List.cons_append, ← List.cons_append,
        List.getLast?_concat] at hlast
      obtain rfl : '}' = c := Option.some.inj hlast
      exact hw (hwmore ▸ List.mem_append_left _ (List.mem_of_getLast? hends))
  · refine ⟨more, hne, hbrace, ?_⟩
    rw [hmore]
    simp

theorem Opens.mem_brace {name rest cs : List Char} (hopens : Opens name rest cs) : '}' ∈ cs := by
  obtain ⟨-, -, rfl⟩ := hopens
  simp

theorem free_append_iff {l l' rest : List Char} :
    Free (l ++ l') rest ↔ Free l (l' ++ rest) ∧ Free l' rest := by
  induction l with
  | nil => exact (and_iff_right (free_nil _)).symm
  | cons c more ih =>
    rw [List.cons_append, free_cons_iff, ih, free_cons_iff, List.append_assoc, and_assoc]

theorem Free.append {literal rest w : List Char} (hw : '}' ∉ w) (hfree : Free literal rest) :
    Free literal (rest ++ w) := by
  intro before after hsplit hne name rest' hopens
  rw [← List.append_assoc] at hopens
  obtain ⟨rest'', hinside⟩ := opens_of_append hw hopens
  exact hfree before after hsplit hne name rest'' hinside

theorem free_of_not_mem {w : List Char} (hw : '}' ∉ w) : Free w [] := by
  rintro before after rfl - name rest hopens
  rw [List.append_nil] at hopens
  exact hw (List.mem_append_right _ hopens.mem_brace)

theorem Scan.append {u w : List Char} {d : Decomposition} (hw : '}' ∉ w) (hscan : Scan u d) :
    Scan (u ++ w) ⟨d.parts, d.tail ++ w⟩ := by
  induction hscan with
  | last hfree =>
    have hlonger := hfree.append hw
    rw [List.nil_append, ← List.append_nil w] at hlonger
    exact Scan.last (free_append_iff.mpr ⟨hlonger, free_of_not_mem hw⟩)
  | @next literal name rest d hfree hne hbrace _ ih =>
    have hlonger : Free literal ('$' :: '{' :: (name ++ '}' :: (rest ++ w))) := by
      simpa using hfree.append hw
    simpa using Scan.next hlonger hne hbrace ih

theorem substitute_append_of_not_mem {u w : List Char} (hw : '}' ∉ w) :
    substitute env (u ++ w) = substitute env u ++ w := by
  obtain ⟨d, hscan⟩ := exists_scan u
  rw [substitute_of_scan env (hscan.append hw), substitute_of_scan env hscan]
  exact (List.append_assoc _ _ _).symm

theorem Closed.of_append {l l' : List Char} (hclosed : Closed (l ++ l')) : Closed l' := by
  rintro before after rfl
  exact hclosed (l ++ before) after (List.append_assoc _ _ _).symm

/-- A placeholder that begins in a text with closed openings ends in it. -/
theorem opens_of_closed {x z name rest : List Char} (hclosed : Closed x) (hx : x ≠ [])
    (hz : z.head? ≠ some '{') (hopens : Opens name rest (x ++ z)) :
    ∃ rest', Opens name rest' x := by
  obtain ⟨hne, hbrace, htext⟩ := hopens
  match x, hx with
  | [c], _ =>
    obtain ⟨-, rfl⟩ := List.cons.inj htext
    exact absurd rfl hz
  | c :: d :: inner, _ =>
    simp only [List.cons_append, List.cons.injEq] at htext
    obtain ⟨rfl, rfl, hinner⟩ := htext
    have hmem : '}' ∈ inner := hclosed [] inner rfl
    rcases List.append_eq_append_iff.mp hinner with ⟨more, rfl, -⟩ | ⟨more, rfl, hmore⟩
    · exact absurd (List.mem_append_left _ hmem) hbrace
    · cases more with
      | nil =>
        rw [List.append_nil] at hmem
        exact absurd hmem hbrace
      | cons b more =>
        obtain ⟨rfl, -⟩ := List.cons.inj hmore
        exact ⟨more, hne, hbrace, rfl⟩

theorem Free.append_of_closed {literal rest z : List Char} (hclosed : Closed (literal ++ rest))
    (hz : z.head? ≠ some '{') (hfree : Free literal rest) : Free literal (rest ++ z) := by
  rintro before after rfl hne name rest' hopens
  rw [List.append_assoc] at hclosed
  rw [← List.append_assoc] at hopens
  have hnonempty : after ++ rest ≠ [] := fun h => hne (List.append_eq_nil_iff.mp h).1
  obtain ⟨rest'', hinside⟩ := opens_of_closed hclosed.of_append hnonempty hz hopens
  exact hfree before after rfl hne name rest'' hinside

theorem Scan.pieces_append {u z : List Char} {d : Decomposition} (hclosed : Closed u)
    (hz : z.head? ≠ some '{') (hscan : Scan u d) : pieces (u ++ z) = d.pieces ++ pieces z := by
  induction hscan with
  | @last tail hfree =>
    rw [← List.append_nil tail] at hclosed
    exact pieces_of_free (hfree.append_of_closed hclosed hz)
  | @next literal name rest d hfree hne hbrace _ ih =>
    have hlater : Closed rest := by
      have hsplit : literal ++ '$' :: '{' :: (name ++ '}' :: rest) =
          (literal ++ '$' :: '{' :: (name ++ ['}'])) ++ rest := by simp
      exact Closed.of_append (hsplit ▸ hclosed)
    have hfree' := hfree.append_of_closed hclosed hz
    simp only [List.cons_append, List.append_assoc] at hfree' ⊢
    rw [pieces_of_free hfree', pieces_of_opens ⟨hne, hbrace, rfl⟩, ih hlater]
    simp [Decomposition.pieces]

theorem pieces_append {u z : List Char} (hclosed : Closed u) (hz : z.head? ≠ some '{') :
    pieces (u ++ z) = pieces u ++ pieces z := by
  obtain ⟨d, hscan⟩ := exists_scan u
  rw [hscan.pieces_append hclosed hz, hscan.pieces_eq]

theorem substitute_append {u z : List Char} (hclosed : Closed u) (hz : z.head? ≠ some '{') :
    substitute env (u ++ z) = substitute env u ++ substitute env z := by
  rw [substitute, pieces_append hclosed hz, List.flatMap_append]
  rfl

/-- Braces with nothing between them are no placeholder. -/
theorem substitute_empty_name (w : List Char) :
    substitute env ('$' :: '{' :: '}' :: w) = '$' :: '{' :: '}' :: substitute env w := by
  have hhere : ∀ name rest, ¬Opens name rest ('$' :: '{' :: '}' :: w) := by
    rintro name rest ⟨hne, hbrace, htext⟩
    obtain ⟨c, more, rfl⟩ := List.exists_cons_of_ne_nil hne
    simp only [List.cons_append, List.cons.injEq, true_and] at htext
    obtain ⟨rfl, -⟩ := htext
    exact hbrace List.mem_cons_self
  have hother : ∀ c, c ≠ '$' → ∀ cs name rest, ¬Opens name rest (c :: cs) := by
    rintro c hc cs name rest ⟨-, -, htext⟩
    exact hc (List.cons.inj htext).1
  have hfree : Free ['$', '{', '}'] w :=
    free_cons_iff.mpr ⟨hhere, free_cons_iff.mpr ⟨hother _ (by decide) _,
      free_cons_iff.mpr ⟨hother _ (by decide) _, free_nil w⟩⟩⟩
  rw [substitute, show '$' :: '{' :: '}' :: w = ['$', '{', '}'] ++ w from rfl,
    pieces_of_free hfree, List.flatMap_append, flatMap_resolve_literals]
  rfl

/-- A text falls apart in one way into literal pieces and placeholders, of which the set ones are
replaced. -/
theorem substitute_of_decomposition (cs : List Char) :
    (∃ d, Scan cs d ∧ (∀ d', Scan cs d' → d' = d) ∧
      ∀ env, substitute env cs = d.resolve env ∧
        ((∀ name ∈ d.names, env (String.ofList name) = none) → substitute env cs = cs)) ∧
      (∀ env u w, cs = u ++ w → '}' ∉ w → substitute env cs = substitute env u ++ w) ∧
      ∀ env u w, cs = u ++ '$' :: '{' :: '}' :: w → Closed u →
        substitute env cs = substitute env u ++ '$' :: '{' :: '}' :: substitute env w := by
  refine ⟨?_, ?_, ?_⟩
  · obtain ⟨d, hscan⟩ := exists_scan cs
    refine ⟨d, hscan, fun d' hd' => hd'.unique hscan, fun env => ⟨substitute_of_scan env hscan, ?_⟩⟩
    intro hunset
    exact (substitute_of_scan env hscan).trans (resolve_of_unset env hscan hunset)
  · rintro env u w rfl hw
    exact substitute_append_of_not_mem env hw
  · rintro env u w rfl hclosed
    rw [substitute_append env hclosed (by simp), substitute_empty_name]

theorem closed_concat (l : List Char) : Closed (l ++ ['}']) := by
  intro before after hsplit
  have hlast := congrArg List.getLast? hsplit
  rw [List.getLast?_concat] at hlast
  cases hends : after.getLast? with
  | none =>
    rw [List.getLast?_eq_none_iff] at hends
    subst hends
    simp at hlast
  | some c =>
    obtain rfl : '}' = c := by simpa [List.getLast?_cons, hends] using hlast
    exact List.mem_of_getLast? hends

/-- A value that looks like a placeholder stays as it is, and so do an empty name and an opening
that is never closed. -/
theorem substitute_of_decomposition_mixed :
    let env : Environment := fun name => if name = "A" then some "$\x7bA\x7d" else none
    let cs := "x$\x7bA\x7d$\x7b\x7d$\x7b$\x7bA\x7d$\x7bB".toList
    '}' ∉ "$\x7bB".toList ∧ Closed "x$\x7bA\x7d".toList ∧
      substitute env cs =
        substitute env "x$\x7bA\x7d$\x7b\x7d$\x7b$\x7bA\x7d".toList ++ "$\x7bB".toList ∧
      substitute env cs = cs := by
  intro env cs
  obtain ⟨-, htail, hempty⟩ := substitute_of_decomposition cs
  have hw : '}' ∉ "$\x7bB".toList := by decide
  have hclosed : Closed "x$\x7bA\x7d".toList := closed_concat "x$\x7bA".toList
  have hcs := hempty env "x$\x7bA\x7d".toList "$\x7b$\x7bA\x7d$\x7bB".toList (by decide) hclosed
  have hvalue : substitute env "x$\x7bA\x7d".toList = "x$\x7bA\x7d".toList := by decide
  refine ⟨hw, hclosed, htail env _ _ (by decide) hw, ?_⟩
  rw [hcs, hvalue]
  decide

end Shakedown.Placeholder
