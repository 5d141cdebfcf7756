import Shakedown.Proofs.Json.Token

/-!
# Texts of a value

A value has many texts: blanks may stand around every token, and a character of a name or a text can
be written in several ways. Both printers write one of these texts.
-/

namespace Shakedown.Json

def Blanks (cs : List Char) : Prop :=
  ∀ c ∈ cs, isBlank c = true

/-- What stands before an item or a member: blanks, with a comma among them after the first. -/
inductive Lead : Bool → List Char → Prop
  | first {blanks : List Char} (h : Blanks blanks) : Lead true blanks
  | later {before after : List Char} (hbefore : Blanks before) (hafter : Blanks after) :
      Lead false (before ++ ',' :: after)

mutual

inductive Written : Json → List Char → Prop
  | null : Written .null "null".toList
  | true : Written (.bool true) "true".toList
  | false : Written (.bool false) "false".toList
  | int (n : Int) : Written (.int n) (Decimal.integer n)
  | str {s : String} {text : List Char} (h : WrittenChars s.toList text) :
      Written (.str s) ('"' :: (text ++ ['"']))
  | arr {items : List Json} {body blanks : List Char} (h : WrittenItems true items body)
      (hblanks : Blanks blanks) : Written (.arr items) ('[' :: (body ++ (blanks ++ [']'])))
  | obj {members : List (String × Json)} {body blanks : List Char}
      (h : WrittenMembers true members body) (hblanks : Blanks blanks) :
      Written (.obj members) ('{' :: (body ++ (blanks ++ ['}'])))

/-- The items of a list, from the first or behind others. -/
inductive WrittenItems : Bool → List Json → List Char → Prop
  | nil {first : Bool} : WrittenItems first [] []
  | cons {first : Bool} {j : Json} {items : List Json} {lead cs body : List Char}
      (hlead : Lead first lead) (h : Written j cs) (hrest : WrittenItems false items body) :
      WrittenItems first (j :: items) (lead ++ (cs ++ body))

/-- The members of an object, from the first or behind others. -/
inductive WrittenMembers : Bool → List (String × Json) → List Char → Prop
  | nil {first : Bool} : WrittenMembers first [] []
  | cons {first : Bool} {name : String} {j : Json} {members : List (String × Json)}
      {lead text before after cs body : List Char} (hlead : Lead first lead)
      (hname : WrittenChars name.toList text) (hbefore : Blanks before) (hafter : Blanks after)
      (h : Written j cs) (hrest : WrittenMembers false members body) :
      WrittenMembers first ((name, j) :: members)
        (lead ++ '"' :: (text ++ '"' :: (before ++ ':' :: (after ++ (cs ++ body)))))

end

/-! ### Blanks -/

section Blanks

variable {blanks cs rest : List Char}

theorem blanks_nil : Blanks [] :=
  nofun

theorem blanks_singleton {c : Char} (h : isBlank c = true) : Blanks [c] := by
  intro d hd
  rwa [List.mem_singleton.mp hd]

theorem Lead.comma (h : Blanks blanks) : Lead false (',' :: blanks) :=
  .later blanks_nil h

theorem blanks_newline (level : Nat) : Blanks (newline level) := by
  intro c hc
  rcases List.mem_cons.mp hc with rfl | hc
  · rfl
  · rw [List.eq_of_mem_replicate hc]
    rfl

theorem skipBlanks_append (h : Blanks blanks) (cs : List Char) :
    skipBlanks (blanks ++ cs) = skipBlanks cs :=
  List.dropWhile_append_of_pos h

theorem skipBlanks_cons {c : Char} (h : isBlank c = false) (cs : List Char) :
    skipBlanks (c :: cs) = c :: cs := by
  rw [skipBlanks, List.dropWhile_cons_of_neg (ne_true_of_eq_false h)]

theorem skipBlanks_mark {c : Char} (h : Blanks blanks) (hc : isBlank c = false)
    (cs : List Char) : skipBlanks (blanks ++ c :: cs) = c :: cs := by
  rw [skipBlanks_append h, skipBlanks_cons hc]

theorem endsNumber_append (h : Blanks blanks) (hrest : EndsNumber rest) :
    EndsNumber (blanks ++ rest) := by
  cases blanks with
  | nil => exact hrest
  | cons c blanks =>
    intro d hd
    obtain rfl : c = d := Option.some.inj hd
    have hc := h c List.mem_cons_self
    simp only [isBlank, Bool.or_eq_true, decide_eq_true_eq] at hc
    rcases hc with ((rfl | rfl) | rfl) | rfl <;> decide

theorem endsNumber_mark {c : Char} (h : c = ',' ∨ c = ']' ∨ c = '}') :
    EndsNumber (c :: rest) := by
  intro d hd
  obtain rfl : c = d := Option.some.inj hd
  rcases h with rfl | rfl | rfl <;> decide

theorem Lead.length_pos {first : Bool} {lead : List Char} (h : Lead first lead) :
    0 < lead.length + first.toNat := by
  cases h with
  | first _ => exact Nat.succ_pos _
  | later _ _ =>
    rw [List.length_append, List.length_cons]
    omega

theorem Lead.endsNumber {lead : List Char} (h : Lead false lead) (rest : List Char) :
    EndsNumber (lead ++ rest) := by
  cases h with
  | later hbefore _ =>
    rw [List.append_assoc]
    exact endsNumber_append hbefore (endsNumber_mark (.inl rfl))

end Blanks

/-! ### How a text begins -/

/-- A value begins with something that is neither blank nor the end of a container. -/
def Opens (cs : List Char) : Prop :=
  ∃ c tail, cs = c :: tail ∧ isBlank c = false ∧ c ≠ ']' ∧ c ≠ '}'

theorem Written.opens {j : Json} {cs : List Char} (h : Written j cs) : Opens cs := by
  cases h with
  | int n =>
    obtain ⟨c, ds, hcs, hne⟩ := integer_eq_cons n
    exact ⟨c, ds, hcs, by simp [isBlank, hne], hne _ (by decide) rfl, hne _ (by decide) rfl⟩
  | _ => exact ⟨_, _, rfl, by decide⟩

theorem Opens.length_pos {cs : List Char} (h : Opens cs) : 0 < cs.length := by
  obtain ⟨c, tail, rfl, -⟩ := h
  exact Nat.succ_pos _

theorem Opens.append {cs : List Char} (h : Opens cs) (rest : List Char) : Opens (cs ++ rest) := by
  obtain ⟨c, tail, rfl, hopens⟩ := h
  exact ⟨c, tail ++ rest, rfl, hopens⟩

theorem Opens.skipBlanks {cs : List Char} (h : Opens cs) (rest : List Char) :
    skipBlanks (cs ++ rest) = cs ++ rest := by
  obtain ⟨c, tail, rfl, hblank, -⟩ := h
  exact skipBlanks_cons hblank _

theorem WrittenItems.endsNumber {items : List Json} {body rest : List Char}
    (h : WrittenItems false items body) (hrest : EndsNumber rest) : EndsNumber (body ++ rest) := by
  cases h with
  | nil => exact hrest
  | cons hlead _ _ =>
    rw [List.append_assoc]
    exact hlead.endsNumber _

theorem WrittenMembers.endsNumber {members : List (String × Json)} {body rest : List Char}
    (h : WrittenMembers false members body) (hrest : EndsNumber rest) :
    EndsNumber (body ++ rest) := by
  cases h with
  | nil => exact hrest
  | cons hlead _ _ _ _ _ =>
    rw [List.append_assoc]
    exact hlead.endsNumber _

theorem WrittenMembers.length_le {first : Bool} {members : List (String × Json)}
    {body : List Char} (h : WrittenMembers first members body) : members.length ≤ body.length := by
  induction members generalizing first body with
  | nil => exact Nat.zero_le _
  | cons m members ih =>
    cases h with
    | cons _ _ _ _ _ hrest =>
      have hle := ih hrest
      simp only [List.length_cons, List.length_append]
      omega

/-! ### What the printers write -/

/-- Lists and objects lie at most `levels` deep, and every number is an integer of 64 bits. -/
inductive Fits : Nat → Json → Prop
  | null {levels : Nat} : Fits levels .null
  | bool {levels : Nat} (b : Bool) : Fits levels (.bool b)
  | int {levels : Nat} {n : Int} (hlow : -2 ^ 63 ≤ n) (hhigh : n < 2 ^ 64) : Fits levels (.int n)
  | str {levels : Nat} (s : String) : Fits levels (.str s)
  | arr {levels : Nat} {items : List Json} (h : ∀ j ∈ items, Fits levels j) :
      Fits (levels + 1) (.arr items)
  | obj {levels : Nat} {members : List (String × Json)} (h : ∀ m ∈ members, Fits levels m.2) :
      Fits (levels + 1) (.obj members)

theorem fits_int {levels : Nat} {n : Int} :
    Fits levels (.int n) ↔ -2 ^ 63 ≤ n ∧ n < 2 ^ 64 := by
  constructor
  · rintro (_ | _ | ⟨hlow, hhigh⟩)
    exact ⟨hlow, hhigh⟩
  · exact fun h => .int h.1 h.2

theorem fits_arr {levels : Nat} {items : List Json} :
    Fits (levels + 1) (.arr items) ↔ ∀ j ∈ items, Fits levels j := by
  constructor
  · rintro (_ | _ | _ | _ | h)
    exact h
  · exact .arr

theorem fits_obj {levels : Nat} {members : List (String × Json)} :
    Fits (levels + 1) (.obj members) ↔ ∀ m ∈ members, Fits levels m.2 := by
  constructor
  · rintro (_ | _ | _ | _ | _ | h)
    exact h
  · exact .obj

theorem Fits.mono {levels more : Nat} {j : Json} (h : Fits levels j) (hle : levels ≤ more) :
    Fits more j := by
  induction h generalizing more with
  | null => exact .null
  | bool b => exact .bool b
  | int hlow hhigh => exact .int hlow hhigh
  | str s => exact .str s
  | arr _ ih =>
    obtain ⟨more, rfl⟩ := Nat.exists_eq_add_one_of_ne_zero (Nat.ne_zero_of_lt hle)
    exact .arr fun j hj => ih j hj (Nat.le_of_succ_le_succ hle)
  | obj _ ih =>
    obtain ⟨more, rfl⟩ := Nat.exists_eq_add_one_of_ne_zero (Nat.ne_zero_of_lt hle)
    exact .obj fun m hm => ih m hm (Nat.le_of_succ_le_succ hle)

theorem written_textChars (s : String) : Written (.str s) (textChars s) :=
  .str (writtenChars_flatMap s.toList)

theorem written_bool (b : Bool) : Written (.bool b) (scalarChars (.bool b)) := by
  cases b
  · exact .false
  · exact .true

/-- One member as both printers write it, with blanks behind its colon. -/
theorem writtenMembers_cons {first : Bool} {m : String × Json} {members : List (String × Json)}
    {lead after cs body : List Char} (hlead : Lead first lead) (hafter : Blanks after)
    (hm : Written m.2 cs) (hbody : WrittenMembers false members body) :
    WrittenMembers first (m :: members)
      (lead ++ (textChars m.1 ++ ':' :: (after ++ (cs ++ body)))) := by
  have hwritten := WrittenMembers.cons hlead (writtenChars_flatMap m.1.toList) blanks_nil hafter
    hm hbody
  simpa [textChars] using hwritten

section Compact

theorem writtenItems_compact {first : Bool} {lead : List Char} (hlead : Lead first lead)
    (j : Json) (items : List Json) (h : ∀ k ∈ j :: items, Written k (compactChars k)) :
    WrittenItems first (j :: items) (lead ++ compactItems (j :: items)) := by
  induction items generalizing first lead j with
  | nil =>
    rw [compactItems]
    exact .cons hlead (h j List.mem_cons_self) .nil
  | cons k items ih =>
    rw [compactItems]
    refine .cons hlead (h j List.mem_cons_self) ?_
    exact ih (Lead.comma blanks_nil) k fun k hk => h k (List.mem_cons_of_mem j hk)

theorem writtenMembers_compact {first : Bool} {lead : List Char} (hlead : Lead first lead)
    (m : String × Json) (members : List (String × Json))
    (h : ∀ p ∈ m :: members, Written p.2 (compactChars p.2)) :
    WrittenMembers first (m :: members) (lead ++ compactMembers (m :: members)) := by
  induction members generalizing first lead m with
  | nil =>
    rw [compactMembers]
    simpa using writtenMembers_cons hlead blanks_nil (h m List.mem_cons_self) .nil
  | cons k members ih =>
    have hbody := ih (Lead.comma blanks_nil) k fun p hp => h p (List.mem_cons_of_mem m hp)
    rw [compactMembers]
    simpa using writtenMembers_cons hlead blanks_nil (h m List.mem_cons_self) hbody

theorem written_compactChars {levels : Nat} {j : Json} (h : Fits levels j) :
    Written j (compactChars j) := by
  induction h with
  | null => exact .null
  | bool b => exact written_bool b
  | int _ _ => exact .int _
  | str s => exact written_textChars s
  | @arr levels items _ ih =>
    cases items with
    | nil => exact .arr .nil blanks_nil
    | cons j items =>
      rw [compactChars]
      exact .arr (writtenItems_compact (.first blanks_nil) j items ih) blanks_nil
  | @obj levels members _ ih =>
    cases members with
    | nil => exact .obj .nil blanks_nil
    | cons m members =>
      rw [compactChars]
      exact .obj (writtenMembers_compact (.first blanks_nil) m members ih) blanks_nil

end Compact

section Pretty

variable {level : Nat}

theorem writtenItems_pretty {items : List Json} (h : ∀ j ∈ items, Written j (prettyChars level j)) :
    WrittenItems false items (prettyItems level items) := by
  induction items with
  | nil =>
    rw [prettyItems]
    exact .nil
  | cons j items ih =>
    rw [prettyItems, List.append_assoc]
    refine .cons (Lead.comma (blanks_newline level)) (h j List.mem_cons_self) ?_
    exact ih fun k hk => h k (List.mem_cons_of_mem j hk)

theorem writtenMembers_pretty {members : List (String × Json)}
    (h : ∀ m ∈ members, Written m.2 (prettyChars level m.2)) :
    WrittenMembers false members (prettyMembers level members) := by
  induction members with
  | nil =>
    rw [prettyMembers]
    exact .nil
  | cons m members ih =>
    have hspace : Blanks [' '] := blanks_singleton rfl
    have hbody := ih fun p hp => h p (List.mem_cons_of_mem m hp)
    rw [prettyMembers]
    simpa using writtenMembers_cons (Lead.comma (blanks_newline level)) hspace
      (h m List.mem_cons_self) hbody

theorem written_prettyChars {levels : Nat} {j : Json} (h : Fits levels j) (level : Nat) :
    Written j (prettyChars level j) := by
  induction h generalizing level with
  | null => exact .null
  | bool b => exact written_bool b
  | int _ _ => exact .int _
  | str s => exact written_textChars s
  | @arr levels items _ ih =>
    cases items with
    | nil => exact .arr .nil blanks_nil
    | cons j items =>
      have hrest := writtenItems_pretty fun k hk => ih k (List.mem_cons_of_mem j hk) (level + 1)
      have hitems := WrittenItems.cons (.first (blanks_newline (level + 1)))
        (ih j List.mem_cons_self (level + 1)) hrest
      have hwritten := Written.arr hitems (blanks_newline level)
      rw [prettyChars]
      simpa using hwritten
  | @obj levels members _ ih =>
    cases members with
    | nil => exact .obj .nil blanks_nil
    | cons m members =>
      have hrest := writtenMembers_pretty fun p hp => ih p (List.mem_cons_of_mem m hp) (level + 1)
      have hspace : Blanks [' '] := blanks_singleton rfl
      have hmembers := writtenMembers_cons (.first (blanks_newline (level + 1))) hspace
        (ih m List.mem_cons_self (level + 1)) hrest
      have hwritten := Written.obj hmembers (blanks_newline level)
      rw [prettyChars]
      simpa using hwritten

end Pretty

end Shakedown.Json
