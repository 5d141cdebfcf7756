import Shakedown.Proofs.Json.Reading

/-!
# Passing over a text of a value

Whatever text of a value is passed over, what is left is the text behind it. Each step passes over
one character at least, so the steps never run out.
-/

namespace Shakedown.Json

def Container.opening : Container → Char
  | list => '['
  | object => '{'

/-! ### Scalars and names -/

section Scalars

variable {rest : List Char}

theorem skipScalar?_digits {n : Nat} (hrest : EndsNumber rest) :
    skipScalar? (Decimal.digits n ++ rest) = .ok (some rest) := by
  obtain ⟨c, tail, hcs, hc, -⟩ := digits_eq_cons n hrest
  have hnumber := skipNumber_digits (n := n) hrest
  rw [hcs] at hnumber ⊢
  unfold skipScalar?
  simp [ne_of_isDigit hc, hc, hnumber, Except.map]

theorem skipScalar?_integer (n : Int) (hrest : EndsNumber rest) :
    skipScalar? (Decimal.integer n ++ rest) = .ok (some rest) := by
  cases n with
  | ofNat n => exact skipScalar?_digits hrest
  | negSucc n =>
    have hskip : skipScalar? ('-' :: (Decimal.digits (n + 1) ++ rest)) =
        (skipNumber (Decimal.digits (n + 1) ++ rest)).map some := rfl
    change skipScalar? ('-' :: (Decimal.digits (n + 1) ++ rest)) = _
    rw [hskip, skipNumber_digits hrest]
    rfl

theorem skipScalar?_text {s : String} {text : List Char} (h : WrittenChars s.toList text) :
    skipScalar? ('"' :: (text ++ '"' :: rest)) = .ok (some rest) := by
  have hskip : skipScalar? ('"' :: (text ++ '"' :: rest)) =
      (skipText (text ++ '"' :: rest)).map some := rfl
  rw [hskip, skipText_append h]
  rfl

theorem skipName_object {name : String} {blanks text before : List Char} (hblanks : Blanks blanks)
    (hname : WrittenChars name.toList text) (hbefore : Blanks before) :
    skipName .object (blanks ++ '"' :: (text ++ '"' :: (before ++ ':' :: rest))) = .ok rest := by
  have hskip : skipText (text ++ '"' :: (before ++ ':' :: rest)) = .ok (before ++ ':' :: rest) :=
    skipText_append hname _
  rw [skipName, skipBlanks_mark hblanks rfl]
  change (skipText _ >>= _) = _
  rw [hskip]
  exact readColon_blanks hbefore

end Scalars

/-! ### Steps -/

section Steps

variable {fuel : Nat} {around : List Container} {kind : Container} {blanks cs rest : List Char}

theorem skipValueIn_blanks (h : Blanks blanks) :
    skipValueIn (fuel + 1) around (blanks ++ cs) = skipValueIn (fuel + 1) around cs := by
  unfold skipValueIn
  rw [skipBlanks_append h]

theorem skipValueIn_scalar (h : Opens cs) (hscalar : skipScalar? (cs ++ rest) = .ok (some rest)) :
    skipValueIn (fuel + 1) around (cs ++ rest) = skipRestIn fuel around rest := by
  unfold skipValueIn
  rw [h.skipBlanks]
  dsimp only
  rw [hscalar]
  rfl

theorem skipValueIn_container :
    skipValueIn (fuel + 1) around (kind.opening :: cs) =
      match skipBlanks cs with
      | [] => stopAfter kind.unfinished []
      | c :: rest =>
        if c = kind.closing then skipRestIn fuel around rest
        else skipName kind (c :: rest) >>= skipValueIn fuel (kind :: around) := by
  cases kind <;> rfl

theorem isBlank_closing (kind : Container) : isBlank kind.closing = false := by
  cases kind <;> rfl

/-- Passes over what a container holds, from its opening or behind an item, and what stands around
the container. -/
def skipInside (kind : Container) (first : Bool) (fuel : Nat) (around : List Container)
    (cs : List Char) : Except Stop (List Char) :=
  if first then skipValueIn fuel around (kind.opening :: cs)
  else skipRestIn fuel (kind :: around) cs

theorem skipInside_end (kind : Container) (first : Bool) (h : Blanks blanks) :
    skipInside kind first (fuel + 1) around (blanks ++ kind.closing :: rest) =
      skipRestIn fuel around rest := by
  have hcomma : kind.closing ≠ ',' := by cases kind <;> decide
  cases first with
  | true =>
    rw [skipInside, if_pos rfl, skipValueIn_container, skipBlanks_mark h (isBlank_closing kind)]
    exact if_pos rfl
  | false =>
    rw [skipInside, if_neg Bool.false_ne_true]
    conv =>
      lhs
      unfold skipRestIn
    rw [skipBlanks_mark h (isBlank_closing kind)]
    dsimp only
    rw [if_neg hcomma, if_pos rfl]

theorem skipInside_first (h : Blanks blanks) (hopens : Opens cs) :
    skipInside kind true (fuel + 1) around (blanks ++ cs) =
      skipName kind cs >>= skipValueIn fuel (kind :: around) := by
  obtain ⟨c, tail, rfl, hblank, hbracket, hbrace⟩ := hopens
  have hclosing : c ≠ kind.closing := by cases kind <;> assumption
  rw [skipInside, if_pos rfl, skipValueIn_container, skipBlanks_mark h hblank]
  exact if_neg hclosing

theorem skipInside_later (h : Blanks blanks) :
    skipInside kind false (fuel + 1) around (blanks ++ ',' :: cs) =
      skipName kind cs >>= skipValueIn fuel (kind :: around) := by
  rw [skipInside, if_neg Bool.false_ne_true]
  unfold skipRestIn
  rw [skipBlanks_mark h rfl]
  rfl

theorem skipInside_item {first : Bool} {lead : List Char} (hlead : Lead first lead)
    (hopens : Opens cs) :
    skipInside .list first (fuel + 2) around (lead ++ cs) =
      skipValueIn (fuel + 1) (.list :: around) cs := by
  cases hlead with
  | first hblanks => exact skipInside_first hblanks hopens
  | later hbefore hafter =>
    rw [List.append_assoc, List.cons_append, skipInside_later hbefore]
    exact skipValueIn_blanks hafter

theorem skipInside_member {first : Bool} {name : String} {lead text before : List Char}
    (hlead : Lead first lead) (hname : WrittenChars name.toList text) (hbefore : Blanks before) :
    skipInside .object first (fuel + 1) around
        (lead ++ '"' :: (text ++ '"' :: (before ++ ':' :: cs))) =
      skipValueIn fuel (.object :: around) cs := by
  cases hlead with
  | first hblanks =>
    have hopens : Opens ('"' :: (text ++ '"' :: (before ++ ':' :: cs))) := ⟨_, _, rfl, by decide⟩
    rw [skipInside_first hblanks hopens]
    exact congrArg (· >>= _) (skipName_object blanks_nil hname hbefore)
  | later hbefore' hafter =>
    rw [List.append_assoc, List.cons_append, skipInside_later hbefore',
      skipName_object hafter hname hbefore]
    rfl

end Steps

/-! ### Whole texts -/

-- What follows a value is passed over with the steps that are left, so each part says how many it
-- used: never more than it has characters. The opening character of a container pays for its first
-- item, which has no comma before it.

mutual

theorem Written.skipValueIn {j : Json} {cs rest : List Char} (h : Written j cs) {fuel : Nat}
    (around : List Container) (hrest : EndsNumber rest) (hfuel : cs.length ≤ fuel) :
    ∃ left, fuel ≤ left + cs.length ∧
      skipValueIn fuel around (cs ++ rest) = skipRestIn left around rest := by
  have hopens := h.opens
  have hpos := hopens.length_pos
  obtain ⟨less, rfl⟩ := Nat.exists_eq_add_one_of_ne_zero (by omega : fuel ≠ 0)
  match h with
  | .null => exact ⟨less, by omega, skipValueIn_scalar hopens rfl⟩
  | .true => exact ⟨less, by omega, skipValueIn_scalar hopens rfl⟩
  | .false => exact ⟨less, by omega, skipValueIn_scalar hopens rfl⟩
  | .int n => exact ⟨less, by omega, skipValueIn_scalar hopens (skipScalar?_integer n hrest)⟩
  | .str h =>
    refine ⟨less, by omega, skipValueIn_scalar hopens ?_⟩
    rw [List.cons_append, List.append_assoc]
    exact skipScalar?_text h
  | @Written.arr items body blanks h hblanks =>
    simp only [List.length_cons, List.length_append, List.length_nil] at hfuel ⊢
    have hinside : body.length + 1 + true.toNat ≤ less + 1 := by
      rw [Bool.toNat_true]
      omega
    obtain ⟨left, hleft, hskip⟩ := h.skipInside around rest hblanks hinside
    rw [Bool.toNat_true] at hleft
    refine ⟨left, by omega, ?_⟩
    rw [List.cons_append, List.append_assoc, List.append_assoc]
    exact hskip
  | @Written.obj members body blanks h hblanks =>
    simp only [List.length_cons, List.length_append, List.length_nil] at hfuel ⊢
    have hinside : body.length + 1 + true.toNat ≤ less + 1 := by
      rw [Bool.toNat_true]
      omega
    obtain ⟨left, hleft, hskip⟩ := h.skipInside around rest hblanks hinside
    rw [Bool.toNat_true] at hleft
    refine ⟨left, by omega, ?_⟩
    rw [List.cons_append, List.append_assoc, List.append_assoc]
    exact hskip

theorem WrittenItems.skipInside {first : Bool} {items : List Json} {body blanks : List Char}
    (h : WrittenItems first items body) {fuel : Nat} (around : List Container) (rest : List Char)
    (hblanks : Blanks blanks) (hfuel : body.length + 1 + first.toNat ≤ fuel) :
    ∃ left, fuel ≤ left + (body.length + 1 + first.toNat) ∧
      skipInside .list first fuel around (body ++ (blanks ++ ']' :: rest)) =
        skipRestIn left around rest := by
  obtain ⟨less, rfl⟩ := Nat.exists_eq_add_one_of_ne_zero (by omega : fuel ≠ 0)
  match h with
  | .nil => exact ⟨less, by omega, skipInside_end .list first hblanks⟩
  | @WrittenItems.cons _ j items lead cs body hlead h hitems =>
    have hpos := h.opens.length_pos
    have hfirst := hlead.length_pos
    simp only [List.length_append] at hfuel ⊢
    have hend : EndsNumber (body ++ (blanks ++ ']' :: rest)) :=
      hitems.endsNumber (endsNumber_append hblanks (endsNumber_mark (by decide)))
    obtain ⟨less, rfl⟩ := Nat.exists_eq_add_one_of_ne_zero (by omega : less ≠ 0)
    obtain ⟨left, hleft, hvalue⟩ :=
      h.skipValueIn (.list :: around) hend (by omega : cs.length ≤ less + 1)
    have hlater : body.length + 1 + false.toNat ≤ left := by
      rw [Bool.toNat_false]
      omega
    obtain ⟨left', hleft', hbody⟩ := hitems.skipInside around rest hblanks hlater
    rw [Bool.toNat_false] at hleft'
    refine ⟨left', by omega, ?_⟩
    rw [List.append_assoc, List.append_assoc, skipInside_item hlead (h.opens.append _), hvalue]
    exact hbody

theorem WrittenMembers.skipInside {first : Bool} {members : List (String × Json)}
    {body blanks : List Char} (h : WrittenMembers first members body) {fuel : Nat}
    (around : List Container) (rest : List Char) (hblanks : Blanks blanks)
    (hfuel : body.length + 1 + first.toNat ≤ fuel) :
    ∃ left, fuel ≤ left + (body.length + 1 + first.toNat) ∧
      skipInside .object first fuel around (body ++ (blanks ++ '}' :: rest)) =
        skipRestIn left around rest := by
  obtain ⟨less, rfl⟩ := Nat.exists_eq_add_one_of_ne_zero (by omega : fuel ≠ 0)
  match h with
  | .nil => exact ⟨less, by omega, skipInside_end .object first hblanks⟩
  | @WrittenMembers.cons _ name j members lead text before after cs body hlead hname hbefore
      hafter h hmembers =>
    have hpos := h.opens.length_pos
    have hfirst := hlead.length_pos
    simp only [List.length_append, List.length_cons] at hfuel ⊢
    have hend : EndsNumber (body ++ (blanks ++ '}' :: rest)) :=
      hmembers.endsNumber (endsNumber_append hblanks (endsNumber_mark (by decide)))
    obtain ⟨less, rfl⟩ := Nat.exists_eq_add_one_of_ne_zero (by omega : less ≠ 0)
    obtain ⟨left, hleft, hvalue⟩ :=
      h.skipValueIn (.object :: around) hend (by omega : cs.length ≤ less + 1)
    have hlater : body.length + 1 + false.toNat ≤ left := by
      rw [Bool.toNat_false]
      omega
    obtain ⟨left', hleft', hbody⟩ := hmembers.skipInside around rest hblanks hlater
    rw [Bool.toNat_false] at hleft'
    refine ⟨left', by omega, ?_⟩
    simp only [List.append_assoc, List.cons_append]
    rw [skipInside_member hlead hname hbefore, skipValueIn_blanks hafter, hvalue]
    exact hbody

end

/-- Behind a value nothing is left to close, so the rest is what stood behind it. -/
theorem Written.skipValue {j : Json} {blanks cs rest : List Char} (h : Written j cs)
    (hblanks : Blanks blanks) (hrest : EndsNumber rest) :
    skipValue (blanks ++ (cs ++ rest)) = .ok rest := by
  have hfuel : cs.length ≤ steps (blanks ++ (cs ++ rest)) := by
    simp only [steps, List.length_append]
    omega
  obtain ⟨left, hleft, hskip⟩ := h.skipValueIn [] hrest hfuel
  have hpos : left ≠ 0 := by
    simp only [steps, List.length_append] at hleft
    omega
  obtain ⟨left, rfl⟩ := Nat.exists_eq_add_one_of_ne_zero hpos
  rw [Json.skipValue]
  calc Json.skipValueIn (steps (blanks ++ (cs ++ rest))) [] (blanks ++ (cs ++ rest))
      = Json.skipValueIn (steps (blanks ++ (cs ++ rest))) [] (cs ++ rest) :=
        skipValueIn_blanks hblanks
    _ = skipRestIn (left + 1) [] rest := hskip
    _ = .ok rest := by rw [skipRestIn]

end Shakedown.Json
