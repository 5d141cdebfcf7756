import Shakedown.Proofs.Placeholder.Decomposition

/-!
# What is left after a substitution

Where the values are plain, a substitution leaves just the placeholders of the variables that are
not set, in their order. A value is then no part of a placeholder: it has no opening in it, and a
dollar sign in front of it opens nothing with it. And no opening that stood for itself before can
find its end now, since only braces with nothing between them stand for themselves in front of a
placeholder. So the text that is left falls apart as the text before did, with the values in the
literal pieces.
-/

namespace Shakedown.Placeholder

/-- Not empty, and without the characters that placeholders are made of. -/
def Plain (value : String) : Prop :=
  value ≠ "" ∧ '$' ∉ value.toList ∧ '{' ∉ value.toList ∧ '}' ∉ value.toList

instance (value : String) : Decidable (Plain value) :=
  inferInstanceAs (Decidable (_ ∧ _ ∧ _ ∧ _))

theorem Plain.ne_nil {value : String} (hplain : Plain value) : value.toList ≠ [] :=
  fun hnil => hplain.1 (String.toList_eq_nil_iff.mp hnil)

theorem Plain.head?_append_ne {value : String} (hplain : Plain value) (rest : List Char) :
    (value.toList ++ rest).head? ≠ some '{' := by
  obtain ⟨c, more, hvalue⟩ := List.exists_cons_of_ne_nil hplain.ne_nil
  have hmem : '{' ∉ c :: more := hvalue ▸ hplain.2.2.1
  rw [hvalue, List.cons_append, List.head?_cons]
  intro heq
  apply hmem
  rw [Option.some.inj heq]
  exact List.mem_cons_self

/-! ### Pieces in front of another rest -/

theorem free_of_notMem_dollar {literal : List Char} (hdollar : '$' ∉ literal) (rest : List Char) :
    Free literal rest := by
  rintro before after rfl hne name rest' ⟨-, -, htext⟩
  obtain ⟨c, more, rfl⟩ := List.exists_cons_of_ne_nil hne
  apply hdollar
  rw [← (List.cons.inj htext).1]
  simp

/-- In front of a closing brace that does not come at once, every opening is a placeholder. So no
piece that is free there has an opening left that another rest could close. -/
theorem Free.of_brace {literal rest rest' : List Char} (hfree : Free literal rest)
    (hbrace : '}' ∈ rest) (hrest : rest.head? ≠ some '}') (hrest' : rest'.head? ≠ some '{') :
    Free literal rest' := by
  rintro before after rfl hne name tail ⟨hname, hclosed, htext⟩
  match after, hne with
  | [c], _ =>
    have hhead : rest' = '{' :: (name ++ '}' :: tail) := (List.cons.inj htext).2
    apply hrest'
    rw [hhead, List.head?_cons]
  | c :: d :: inner, _ =>
    simp only [List.cons_append, List.cons.injEq] at htext
    obtain ⟨rfl, rfl, hinner⟩ := htext
    have hmem : '}' ∈ inner ++ rest := List.mem_append_right inner hbrace
    obtain ⟨name', tail', hsplit, hclosed'⟩ := List.eq_append_cons_of_mem hmem
    have hname' : name' ≠ [] := by
      rintro rfl
      cases inner with
      | nil =>
        apply hrest
        simp [show rest = '}' :: tail' from hsplit]
      | cons e more =>
        obtain ⟨e', more', rfl⟩ := List.exists_cons_of_ne_nil hname
        have he : e = '}' := (List.cons.inj hsplit).1
        have he' : e = e' := (List.cons.inj hinner).1
        apply hclosed
        simp [← he', he]
    refine hfree before _ rfl (List.cons_ne_nil _ _) name' tail' ⟨hname', hclosed', ?_⟩
    simp [hsplit]

namespace Decomposition

/-- Puts a literal piece in front. -/
def withLiteral (literal : List Char) : Decomposition → Decomposition
  | ⟨[], tail⟩ => ⟨[], literal ++ tail⟩
  | ⟨(first, name) :: parts, tail⟩ => ⟨(literal ++ first, name) :: parts, tail⟩

@[simp]
theorem names_withLiteral (literal : List Char) (d : Decomposition) :
    (d.withLiteral literal).names = d.names := by
  obtain ⟨parts, tail⟩ := d
  cases parts <;> simp [withLiteral, names]

end Decomposition

theorem Scan.withLiteral {literal cs : List Char} {d : Decomposition} (hfree : Free literal cs)
    (hscan : Scan cs d) : Scan (literal ++ cs) (d.withLiteral literal) := by
  cases hscan with
  | last htail =>
    apply Scan.last
    rw [free_append_iff, List.append_nil]
    exact ⟨hfree, htail⟩
  | next hfirst hne hbrace hrest =>
    rw [← List.append_assoc]
    refine Scan.next ?_ hne hbrace hrest
    rw [free_append_iff]
    exact ⟨hfree, hfirst⟩

/-! ### The way a text falls apart after a substitution -/

namespace Decomposition

variable (env : Environment)

/-- The placeholders of variables that are set become literal, with the values in their places. -/
def settleParts (tail : List Char) : List (List Char × List Char) → Decomposition
  | [] => ⟨[], tail⟩
  | (literal, name) :: parts =>
    match env (String.ofList name) with
    | some value => (settleParts tail parts).withLiteral (literal ++ value.toList)
    | none => ⟨(literal, name) :: (settleParts tail parts).parts, (settleParts tail parts).tail⟩

def settle (d : Decomposition) : Decomposition :=
  settleParts env d.tail d.parts

theorem names_settle (d : Decomposition) :
    (d.settle env).names = d.names.filter fun name => (env (String.ofList name)).isNone := by
  obtain ⟨parts, tail⟩ := d
  unfold settle
  induction parts with
  | nil => rfl
  | cons p parts ih =>
    obtain ⟨literal, name⟩ := p
    cases hvalue : env (String.ofList name) with
    | none =>
      simp only [names] at ih ⊢
      simp [settleParts, hvalue, ih]
    | some value =>
      rw [settleParts]
      simp only [hvalue, names_withLiteral]
      rw [ih]
      simp [names, hvalue]

theorem resolve_cons (p : List Char × List Char) (parts : List (List Char × List Char))
    (tail : List Char) :
    (Decomposition.mk (p :: parts) tail).resolve env =
      p.1 ++ (valueAt env p.2 ++ (Decomposition.mk parts tail).resolve env) := by
  simp [resolve]

end Decomposition

section Plain

variable {env : Environment} (hplain : ∀ name value, env name = some value → Plain value)

include hplain

/-- One placeholder with what stands in its place: a value joins the literal pieces around it, and
the placeholder of a variable that is not set stays one. -/
theorem Scan.settle_next {literal name rest : List Char} {parts : List (List Char × List Char)}
    {tail : List Char} (hfree : Free literal ('$' :: '{' :: (name ++ '}' :: rest)))
    (hne : name ≠ []) (hbrace : '}' ∉ name)
    (hscan : Scan ((Decomposition.mk parts tail).resolve env)
      (Decomposition.settleParts env tail parts)) :
    Scan ((Decomposition.mk ((literal, name) :: parts) tail).resolve env)
      (Decomposition.settleParts env tail ((literal, name) :: parts)) := by
  have hends : '}' ∈ '$' :: '{' :: (name ++ '}' :: rest) := by simp
  rw [Decomposition.resolve_cons, valueAt, Decomposition.settleParts]
  cases hvalue : env (String.ofList name) with
  | none =>
    have hkept : Free literal
        ('$' :: '{' :: (name ++ '}' :: (Decomposition.mk parts tail).resolve env)) :=
      hfree.of_brace hends (by simp) (by simp)
    simpa using Scan.next hkept hne hbrace hscan
  | some value =>
    have hvalues := hplain _ _ hvalue
    have hkept : Free literal (value.toList ++ (Decomposition.mk parts tail).resolve env) :=
      hfree.of_brace hends (by simp) (hvalues.head?_append_ne _)
    rw [← List.append_assoc]
    refine Scan.withLiteral ?_ hscan
    rw [free_append_iff]
    exact ⟨hkept, free_of_notMem_dollar hvalues.2.1 _⟩

theorem Scan.settle {cs : List Char} {d : Decomposition} (hscan : Scan cs d) :
    Scan (substitute env cs) (d.settle env) := by
  rw [substitute_of_scan env hscan]
  induction hscan with
  | last hfree => exact Scan.last hfree
  | next hfree hne hbrace _ ih => exact Scan.settle_next hplain hfree hne hbrace ih

end Plain

/-- With plain values, the placeholders that are left are those of the variables that are not set. -/
theorem names_of_substitute (env : Environment) (cs : List Char)
    (hplain : ∀ name value, env name = some value → Plain value) :
    let unset (name : List Char) : Bool := (env (String.ofList name)).isNone
    let after := substitute env cs
    names after = (names cs).filter unset ∧
      (∀ d d', Scan cs d → Scan after d' → d'.names = d.names.filter unset) ∧
      firstUnset? env after = ((names cs).filter unset).head? ∧
      (firstUnset? env after = none ↔ ∀ name ∈ names cs, env (String.ofList name) ≠ none) ∧
      substitute env after = after := by
  intro unset after
  obtain ⟨d, hscan⟩ := exists_scan cs
  have hafter : Scan after (d.settle env) := hscan.settle hplain
  have hnames : names after = (names cs).filter unset := by
    rw [hafter.names_eq, hscan.names_eq, Decomposition.names_settle]
  have hfirst : firstUnset? env after = ((names cs).filter unset).head? := by
    rw [firstUnset?, hnames, ← List.head?_filter, List.filter_filter]
    simp [unset]
  refine ⟨hnames, ?_, hfirst, ?_, ?_⟩
  · intro e e' he he'
    rw [← he'.names_eq, ← he.names_eq, hnames]
  · rw [hfirst, List.head?_eq_none_iff, List.filter_eq_nil_iff]
    simp [unset, Option.isNone_iff_eq_none]
  · rw [substitute_of_scan env hafter]
    apply resolve_of_unset env hafter
    intro name hname
    rw [Decomposition.names_settle, List.mem_filter] at hname
    exact Option.isNone_iff_eq_none.mp hname.2

/-- A value separates a dollar sign from a brace, and stands next to a placeholder that is left. -/
theorem names_of_substitute_between :
    let env : Environment := fun name => if name = "A" then some "x" else none
    let cs := "$$\x7bA\x7d\x7bB\x7d$\x7bC\x7d$\x7bA\x7d".toList
    (∀ name value, env name = some value → Plain value) ∧
      substitute env cs = "$x\x7bB\x7d$\x7bC\x7dx".toList ∧
      names (substitute env cs) = ["C".toList] ∧
      firstUnset? env (substitute env cs) = some "C".toList ∧
      substitute env (substitute env cs) = substitute env cs := by
  intro env cs
  have hplain : ∀ name value, env name = some value → Plain value := by
    intro name value hvalue
    by_cases hname : name = "A"
    · have hx : value = "x" := by simpa [env, hname, eq_comm] using hvalue
      rw [hx]
      decide
    · simp [env, hname] at hvalue
  obtain ⟨hnames, -, hfirst, -, hagain⟩ := names_of_substitute env cs hplain
  have hunset :
      ((names cs).filter fun name => (env (String.ofList name)).isNone) = ["C".toList] := by
    decide
  refine ⟨hplain, by decide, hnames.trans hunset, ?_, hagain⟩
  rw [hfirst, hunset]
  rfl

end Shakedown.Placeholder
