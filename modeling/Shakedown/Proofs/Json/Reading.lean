import Shakedown.Proofs.Entries.Reading
import Shakedown.Proofs.Json.Written

/-!
# Reading a text of a value

Whatever text of a value is read, the result is the value with the members of its objects in order.
-/

namespace Shakedown.Json

mutual

/-- What reading makes of a value: every object has its members in order of their names, and of
several members with one name the last. -/
def sorted : Json → Json
  | .arr items => .arr (sortedItems items)
  | .obj members => ofMembers (sortedMembers members)
  | j => j

def sortedItems : List Json → List Json
  | [] => []
  | j :: rest => sorted j :: sortedItems rest

def sortedMembers : List (String × Json) → List (String × Json)
  | [] => []
  | (name, j) :: rest => (name, sorted j) :: sortedMembers rest

end

theorem sortedItems_eq_map (items : List Json) : sortedItems items = items.map sorted := by
  induction items with
  | nil => rfl
  | cons j rest ih => rw [sortedItems, List.map_cons, ih]

theorem sortedMembers_eq_map (members : List (String × Json)) :
    sortedMembers members = members.map fun m => (m.1, m.2.sorted) := by
  induction members with
  | nil => rfl
  | cons m rest ih => rw [sortedMembers, List.map_cons, ih]

/-- Under a name stands the last of the members that have it. -/
theorem member?_sorted (name : String) (members : List (String × Json)) :
    (sorted (.obj members)).member? name = (lastValue? name members).map sorted := by
  rw [sorted, sortedMembers_eq_map]
  calc valueAt? name ((members.map fun m => (m.1, m.2.sorted)).foldl
        (fun l m => putSorted m.1 m.2 l) [])
      = (lastValue? name (members.map fun m => (m.1, m.2.sorted))).or none := valueAt?_putAll _
    _ = (lastValue? name members).map sorted := by rw [Option.or_none, lastValue?_map]

/-! ### Scalars -/

section Scalars

variable {rest : List Char}

theorem readScalar?_digit {c : Char} (h : c.isDigit = true) (cs : List Char) :
    readScalar? (c :: cs) = (readNumber false (c :: cs)).map fun r => some (r.1.toJson, r.2) := by
  unfold readScalar?
  simp [ne_of_isDigit h, h]

/-- The digits of a number start with one of them. -/
theorem readScalar?_digits {n : Nat} (hn : n < 2 ^ 64) (hrest : EndsNumber rest) :
    readScalar? (Decimal.digits n ++ rest) = .ok (some (.int n, rest)) := by
  obtain ⟨c, tail, hcs, hc, -⟩ := digits_eq_cons n hrest
  have hnumber := readNumber_digits false hn hrest
  rw [hcs] at hnumber ⊢
  rw [readScalar?_digit hc, hnumber]
  rfl

theorem readScalar?_integer {n : Int} (hlow : -2 ^ 63 ≤ n) (hhigh : n < 2 ^ 64)
    (hrest : EndsNumber rest) :
    readScalar? (Decimal.integer n ++ rest) = .ok (some (.int n, rest)) := by
  cases n with
  | ofNat n =>
    rw [Int.ofNat_eq_natCast] at hhigh
    exact readScalar?_digits (by omega) hrest
  | negSucc n =>
    have hsize : 1 ≤ n + 1 ∧ n + 1 ≤ 2 ^ 63 := by omega
    have hread : readScalar? ('-' :: (Decimal.digits (n + 1) ++ rest)) =
        (readNumber true (Decimal.digits (n + 1) ++ rest)).map
          fun r => some (r.1.toJson, r.2) := rfl
    change readScalar? ('-' :: (Decimal.digits (n + 1) ++ rest)) = _
    rw [hread, readNumber_digits true (by omega) hrest, wholeNumber, if_pos rfl, if_pos hsize]
    rfl

theorem readScalar?_text {s : String} {text : List Char} (h : WrittenChars s.toList text) :
    readScalar? ('"' :: (text ++ '"' :: rest)) = .ok (some (.str s, rest)) := by
  have hread : readScalar? ('"' :: (text ++ '"' :: rest)) =
      (readText (text ++ '"' :: rest)).map fun r => some (.str r.1, r.2) := rfl
  rw [hread, readText_append h]
  rfl

end Scalars

/-! ### What stands around items and members -/

section Around

variable {first : Bool} {lead blanks cs rest : List Char}

theorem nextItem_lead (hlead : Lead first lead) (h : Opens cs) :
    nextItem first (lead ++ cs) = .ok (some cs, cs) := by
  obtain ⟨c, tail, rfl, hblank, hbracket, -⟩ := h
  cases hlead with
  | first hblanks => simp [nextItem, skipBlanks_mark hblanks hblank]
  | later hbefore hafter =>
    rw [nextItem, List.append_assoc, List.cons_append, skipBlanks_mark hbefore rfl]
    simp [skipBlanks_mark hafter hblank, hbracket]

theorem nextItem_end (h : Blanks blanks) :
    nextItem first (blanks ++ ']' :: rest) = .ok (none, ']' :: rest) := by
  rw [nextItem, skipBlanks_mark h rfl]
  rfl

theorem nextMember_lead (hlead : Lead first lead) :
    nextMember first (lead ++ '"' :: rest) = .ok (some rest, rest) := by
  cases hlead with
  | first hblanks =>
    rw [nextMember, skipBlanks_mark hblanks rfl]
    rfl
  | later hbefore hafter =>
    rw [nextMember, List.append_assoc, List.cons_append, skipBlanks_mark hbefore rfl]
    simp [skipBlanks_mark hafter (c := '"') rfl]

theorem nextMember_end (h : Blanks blanks) :
    nextMember first (blanks ++ '}' :: rest) = .ok (none, '}' :: rest) := by
  rw [nextMember, skipBlanks_mark h rfl]
  rfl

theorem readColon_blanks (h : Blanks blanks) : readColon (blanks ++ ':' :: rest) = .ok rest := by
  rw [readColon, skipBlanks_mark h rfl]
  rfl

end Around

/-! ### Values -/

section Values

variable {levels fuel : Nat} {cs rest : List Char}

theorem readValueIn_blanks {blanks : List Char} (h : Blanks blanks) :
    readValueIn levels (fuel + 1) (blanks ++ cs) = readValueIn levels (fuel + 1) cs := by
  unfold readValueIn
  rw [skipBlanks_append h]

theorem readValueIn_scalar {r : Json × List Char} (h : Opens cs)
    (hscalar : readScalar? (cs ++ rest) = .ok (some r)) :
    readValueIn levels (fuel + 1) (cs ++ rest) = .ok r := by
  unfold readValueIn
  rw [h.skipBlanks]
  dsimp only
  rw [hscalar]
  rfl

theorem readValueIn_list :
    readValueIn (levels + 1) (fuel + 1) ('[' :: cs) =
      (do let (items, rest) ← readItemsIn levels fuel true cs
          let rest ← endList rest
          .ok (.arr items, rest)) := by
  rfl

theorem readValueIn_object :
    readValueIn (levels + 1) (fuel + 1) ('{' :: cs) =
      (do let (members, rest) ← readMembersIn levels fuel true cs
          let rest ← endObject rest
          .ok (ofMembers members, rest)) := by
  rfl

theorem readItemsIn_end {first : Bool} {blanks : List Char} (h : Blanks blanks) :
    readItemsIn levels (fuel + 1) first (blanks ++ ']' :: rest) = .ok ([], ']' :: rest) := by
  unfold readItemsIn
  rw [nextItem_end h]
  rfl

theorem readItemsIn_lead {first : Bool} {lead : List Char} (hlead : Lead first lead)
    (h : Opens cs) :
    readItemsIn levels (fuel + 1) first (lead ++ cs) =
      (do let (j, rest) ← readValueIn levels fuel cs
          let (js, rest) ← readItemsIn levels fuel false rest
          .ok (j :: js, rest)) := by
  conv =>
    lhs
    unfold readItemsIn
  rw [nextItem_lead hlead h]
  rfl

theorem readMembersIn_end {first : Bool} {blanks : List Char} (h : Blanks blanks) :
    readMembersIn levels (fuel + 1) first (blanks ++ '}' :: rest) = .ok ([], '}' :: rest) := by
  unfold readMembersIn
  rw [nextMember_end h]
  rfl

theorem readMembersIn_lead {first : Bool} {name : String} {lead text before : List Char}
    (hlead : Lead first lead) (hname : WrittenChars name.toList text) (hbefore : Blanks before) :
    readMembersIn levels (fuel + 1) first
        (lead ++ '"' :: (text ++ '"' :: (before ++ ':' :: cs))) =
      (do let (j, rest) ← readValueIn levels fuel cs
          let (members, rest) ← readMembersIn levels fuel false rest
          .ok ((name, j) :: members, rest)) := by
  have hread : readText (text ++ '"' :: (before ++ ':' :: cs)) = .ok (name, before ++ ':' :: cs) :=
    readText_append hname _
  have hcolon : readColon (before ++ ':' :: cs) = .ok cs := readColon_blanks hbefore
  conv =>
    lhs
    unfold readMembersIn
  rw [nextMember_lead hlead]
  change (readText _ >>= _) = _
  rw [hread]
  change (readColon _ >>= _) = _
  rw [hcolon]
  rfl

end Values

/-! ### Whole texts -/

-- The recursion is on how the text is written. What a step goes on with is shorter than what it was
-- given, by a character at least; the end of a container takes one step more, and its closing
-- character pays for that.

mutual

theorem Written.readValueIn {j : Json} {cs rest : List Char} (h : Written j cs)
    {levels fuel : Nat} (hfits : Fits levels j) (hfuel : cs.length < fuel)
    (hrest : EndsNumber rest) :
    readValueIn levels fuel (cs ++ rest) = .ok (j.sorted, rest) := by
  obtain ⟨fuel, rfl⟩ := Nat.exists_eq_add_one_of_ne_zero (Nat.ne_zero_of_lt hfuel)
  have hopens := h.opens
  match h, hfits with
  | .null, _ => exact readValueIn_scalar hopens rfl
  | .true, _ => exact readValueIn_scalar hopens rfl
  | .false, _ => exact readValueIn_scalar hopens rfl
  | .int n, .int hlow hhigh =>
    exact readValueIn_scalar hopens (readScalar?_integer hlow hhigh hrest)
  | .str h, _ =>
    apply readValueIn_scalar hopens
    rw [List.cons_append, List.append_assoc]
    exact readScalar?_text h
  | @Written.arr items body blanks h hblanks, .arr hfits =>
    have hbody : body.length + 1 < fuel := by
      simp only [List.length_cons, List.length_append, List.length_nil] at hfuel
      omega
    rw [List.cons_append, List.append_assoc, List.append_assoc, readValueIn_list]
    change (readItemsIn _ _ _ (body ++ (blanks ++ ']' :: rest)) >>= _) = _
    rw [h.readItemsIn hfits hbody hblanks]
    rfl
  | @Written.obj members body blanks h hblanks, .obj hfits =>
    have hbody : body.length + 1 < fuel := by
      simp only [List.length_cons, List.length_append, List.length_nil] at hfuel
      omega
    rw [List.cons_append, List.append_assoc, List.append_assoc, readValueIn_object]
    change (readMembersIn _ _ _ (body ++ (blanks ++ '}' :: rest)) >>= _) = _
    rw [h.readMembersIn hfits hbody hblanks]
    rfl

theorem WrittenItems.readItemsIn {first : Bool} {items : List Json} {body blanks rest : List Char}
    (h : WrittenItems first items body) {levels fuel : Nat}
    (hfits : ∀ j ∈ items, Fits levels j) (hfuel : body.length + 1 < fuel)
    (hblanks : Blanks blanks) :
    readItemsIn levels fuel first (body ++ (blanks ++ ']' :: rest)) =
      .ok (sortedItems items, ']' :: rest) := by
  obtain ⟨fuel, rfl⟩ := Nat.exists_eq_add_one_of_ne_zero (Nat.ne_zero_of_lt hfuel)
  match h with
  | .nil => exact readItemsIn_end hblanks
  | @WrittenItems.cons _ j items lead cs body hlead h hrest =>
    have hpos := h.opens.length_pos
    simp only [List.length_append] at hfuel
    have hend : EndsNumber (body ++ (blanks ++ ']' :: rest)) :=
      hrest.endsNumber (endsNumber_append hblanks (endsNumber_mark (by decide)))
    rw [List.append_assoc, List.append_assoc, readItemsIn_lead hlead (h.opens.append _),
      h.readValueIn (hfits j List.mem_cons_self) (by omega) hend]
    change (readItemsIn _ _ _ _ >>= _) = _
    rw [hrest.readItemsIn (fun k hk => hfits k (List.mem_cons_of_mem j hk)) (by omega) hblanks]
    rfl

theorem WrittenMembers.readMembersIn {first : Bool} {members : List (String × Json)}
    {body blanks rest : List Char} (h : WrittenMembers first members body) {levels fuel : Nat}
    (hfits : ∀ m ∈ members, Fits levels m.2) (hfuel : body.length + 1 < fuel)
    (hblanks : Blanks blanks) :
    readMembersIn levels fuel first (body ++ (blanks ++ '}' :: rest)) =
      .ok (sortedMembers members, '}' :: rest) := by
  obtain ⟨fuel, rfl⟩ := Nat.exists_eq_add_one_of_ne_zero (Nat.ne_zero_of_lt hfuel)
  match h with
  | .nil => exact readMembersIn_end hblanks
  | @WrittenMembers.cons _ name j members lead text before after cs body hlead hname hbefore
      hafter h hrest =>
    have hpos := h.opens.length_pos
    simp only [List.length_append, List.length_cons] at hfuel
    have hend : EndsNumber (body ++ (blanks ++ '}' :: rest)) :=
      hrest.endsNumber (endsNumber_append hblanks (endsNumber_mark (by decide)))
    simp only [List.append_assoc, List.cons_append]
    rw [readMembersIn_lead hlead hname hbefore]
    -- the value of a member is read from behind the colon, so with the blanks before it
    obtain ⟨fuel, rfl⟩ := Nat.exists_eq_add_one_of_ne_zero (by omega : fuel ≠ 0)
    rw [readValueIn_blanks hafter, h.readValueIn (hfits _ List.mem_cons_self) (by omega) hend]
    change (readMembersIn _ _ _ _ >>= _) = _
    rw [hrest.readMembersIn (fun m hm => hfits m (List.mem_cons_of_mem _ hm)) (by omega) hblanks]
    rfl

end

theorem skipBlanks_eq_nil {blanks : List Char} (h : Blanks blanks) : skipBlanks blanks = [] := by
  have happend := skipBlanks_append h []
  rwa [List.append_nil] at happend

/-- A text of a value is read with any blanks around it. -/
theorem Written.ofChars? {j : Json} {cs before after : List Char} (h : Written j cs)
    {levels : Nat} (hfits : Fits levels j) (hbefore : Blanks before) (hafter : Blanks after) :
    ofChars? levels (before ++ (cs ++ after)) = .ok j.sorted := by
  have hlength : cs.length < 2 * (before ++ (cs ++ after)).length + 2 := by
    simp only [List.length_append]
    omega
  have hend : EndsNumber (after ++ []) := endsNumber_append hafter endsNumber_nil
  rw [List.append_nil] at hend
  rw [Json.ofChars?, readValue, steps, readValueIn_blanks hbefore,
    h.readValueIn hfits hlength hend]
  simp only [readEnd, skipBlanks_eq_nil hafter]

end Shakedown.Json
