import Shakedown.Proofs.Envelope.Fields

/-!
# Reading an envelope

An object is an envelope when it has each of the two required members once, each of the two optional
ones at most once, and each with a value of its kind. Other members do not matter. A list is one
when it has these values in order, the required ones at least.
-/

namespace Shakedown.Envelope

open Json (Stop Blanks Written WrittenItems WrittenMembers Fits EndsNumber)

variable {α : Type} {meaning : Json → Option α}

/-! ### What a text describes -/

/-- The values of the members with a name, in their order. -/
def valuesOf (name : String) (members : List (String × Json)) : List Json :=
  (members.filter fun m => m.1 == name).map (·.2)

theorem valuesOf_cons (name : String) (m : String × Json) (members : List (String × Json)) :
    valuesOf name (m :: members) =
      if m.1 = name then m.2 :: valuesOf name members else valuesOf name members := by
  unfold valuesOf
  by_cases h : m.1 = name <;> simp [h]

/-- An optional field has at most one value; `null` says as little as none. -/
inductive Optionally (meaning : Json → Option α) : List Json → Option α → Prop
  | absent : Optionally meaning [] none
  | null : Optionally meaning [.null] none
  | given {j : Json} {x : α} (hj : j ≠ .null) (h : meaning j = some x) :
      Optionally meaning [j] (some x)

/-- The envelope that a value describes. -/
inductive Describes : Json → Envelope → Prop
  | object {members : List (String × Json)} {ok : Bool} {code : UInt16} {appdata : Option Json}
      {message : Option String} (hok : valuesOf "ok" members = [.bool ok])
      (hcode : valuesOf "code" members = [.int code.toNat])
      (happdata : Optionally (fun j => some j.sorted) (valuesOf "appdata" members) appdata)
      (hmessage : Optionally Json.text? (valuesOf "message" members) message) :
      Describes (.obj members) ⟨ok, code, appdata, message⟩
  | list {ok : Bool} {code : UInt16} {rest : List Json} {appdata : Option Json}
      {message : Option String} (hlength : rest.length ≤ 2)
      (happdata : Optionally (fun j => some j.sorted) (rest.take 1) appdata)
      (hmessage : Optionally Json.text? (rest.drop 1) message) :
      Describes (.arr (.bool ok :: .int code.toNat :: rest)) ⟨ok, code, appdata, message⟩

theorem okOf?_eq_some_iff {j : Json} {ok : Bool} : okOf? j = some ok ↔ j = .bool ok := by
  cases j <;> simp [okOf?]

theorem codeOf?_eq_some_iff {j : Json} {code : UInt16} :
    codeOf? j = some code ↔ j = .int code.toNat := by
  constructor
  · intro h
    cases j with
    | int n =>
      rw [codeOf?] at h
      split at h
      · rename_i hrange
        obtain rfl := Option.some.inj h
        have hsize : n.toNat < UInt16.size := by
          change n.toNat < 65536
          omega
        rw [UInt16.toNat_ofNat_of_lt' hsize, Int.toNat_of_nonneg hrange.1]
      · simp at h
    | _ => simp [codeOf?] at h
  · rintro rfl
    have hlt := code.toNat_lt
    rw [codeOf?, if_pos (by omega)]
    simp

/-! ### Members -/

/-- A field that is filled at most once: with the only value for it, if there is one. -/
inductive Filled (meaning : Json → Option α) : Option α → List Json → Option α → Prop
  | none {seen : Option α} : Filled meaning seen [] seen
  | once {j : Json} {x : α} (h : meaning j = some x) : Filled meaning none [j] (some x)

theorem filled_nil_iff {seen after : Option α} : Filled meaning seen [] after ↔ seen = after := by
  constructor
  · rintro ⟨⟩
    rfl
  · rintro rfl
    exact .none

theorem filled_cons_iff {seen after : Option α} {j : Json} {values : List Json} :
    Filled meaning seen (j :: values) after ↔
      seen = none ∧ ∃ x, meaning j = some x ∧ Filled meaning (some x) values after := by
  constructor
  · rintro (_ | h)
    exact ⟨rfl, _, h, .none⟩
  · rintro ⟨rfl, x, h, hafter⟩
    cases hafter
    exact .once h

theorem optionally_iff {values : List Json} {x : Option α} :
    Optionally meaning values x ↔
      ∃ seen, Filled (nullable meaning) none values seen ∧ seen.getD none = x := by
  constructor
  · rintro (_ | _ | ⟨hj, h⟩)
    · exact ⟨none, .none, rfl⟩
    · exact ⟨some none, .once rfl, rfl⟩
    · refine ⟨some (some _), .once ?_, rfl⟩
      rw [nullable_of_ne hj, h]
      rfl
  · rintro ⟨seen, hfilled, rfl⟩
    cases hfilled with
    | none => exact .absent
    | @once j y h =>
      by_cases hj : j = .null
      · subst hj
        obtain rfl := Option.some.inj h
        exact .null
      · rw [nullable_of_ne hj, Option.map_eq_some_iff] at h
        obtain ⟨x, h, rfl⟩ := h
        exact .given hj h

namespace Draft

variable {d d' : Draft}

/-- The value of a field that was not there before. -/
def once (seen : Option α) (meaning : Json → Option α) (j : Json) : Option α :=
  if seen.isSome then none else meaning j

/-- What a member does to a draft. -/
def take (d : Draft) (m : String × Json) : Option Draft :=
  if m.1 = "ok" then (once d.ok okOf? m.2).map fun x => { d with ok := some x }
  else if m.1 = "code" then (once d.code codeOf? m.2).map fun x => { d with code := some x }
  else if m.1 = "appdata" then
    (once d.appdata appdataOf? m.2).map fun x => { d with appdata := some x }
  else if m.1 = "message" then
    (once d.message messageOf? m.2).map fun x => { d with message := some x }
  else some d

section Take

variable (d : Draft) (j : Json)

theorem take_ok : d.take ("ok", j) = (once d.ok okOf? j).map fun x => { d with ok := some x } :=
  rfl

theorem take_code :
    d.take ("code", j) = (once d.code codeOf? j).map fun x => { d with code := some x } :=
  rfl

theorem take_appdata :
    d.take ("appdata", j) =
      (once d.appdata appdataOf? j).map fun x => { d with appdata := some x } :=
  rfl

theorem take_message :
    d.take ("message", j) =
      (once d.message messageOf? j).map fun x => { d with message := some x } :=
  rfl

end Take

section Text

variable (name : String) {j : Json} {before after cs rest : List Char}

theorem toOption_readOnce {read : List Char → Except Stop (α × List Char)}
    (hread : Takes read meaning) (seen : Option α) (hbefore : Blanks before)
    (hafter : Blanks after) (h : Written j cs) (hfits : Fits (Json.roomForLevels - 1) j)
    (hrest : EndsNumber rest) :
    (readOnce seen name read (before ++ ':' :: (after ++ (cs ++ rest)))).toOption =
      (once seen meaning j).map fun x => (x, rest) := by
  unfold readOnce once
  split
  · rfl
  · rw [Json.readColon_blanks hbefore]
    exact hread hafter h hfits hrest

theorem toOption_readMember (d : Draft) (hbefore : Blanks before) (hafter : Blanks after)
    (h : Written j cs) (hfits : Fits (Json.roomForLevels - 1) j) (hrest : EndsNumber rest) :
    (d.readMember name (before ++ ':' :: (after ++ (cs ++ rest)))).toOption =
      (d.take (name, j)).map fun d => (d, rest) := by
  unfold readMember take
  split_ifs
  · rw [toOption_map, toOption_readOnce _ takes_readOk d.ok hbefore hafter h hfits hrest,
      Option.map_map, Option.map_map]
    rfl
  · rw [toOption_map, toOption_readOnce _ takes_readCode d.code hbefore hafter h hfits hrest,
      Option.map_map, Option.map_map]
    rfl
  · rw [toOption_map, toOption_readOnce _ takes_readAppdata d.appdata hbefore hafter h hfits hrest,
      Option.map_map, Option.map_map]
    rfl
  · rw [toOption_map, toOption_readOnce _ takes_readMessage d.message hbefore hafter h hfits hrest,
      Option.map_map, Option.map_map]
    rfl
  · rw [Json.readColon_blanks hbefore]
    change ((Json.skipValue _).map _).toOption = _
    rw [h.skipValue hafter hrest]
    rfl

end Text

theorem toOption_readMembers {first : Bool} {members : List (String × Json)}
    {body blanks rest : List Char} (h : WrittenMembers first members body) {fuel : Nat}
    (d : Draft) (hfits : ∀ m ∈ members, Fits (Json.roomForLevels - 1) m.2)
    (hfuel : members.length < fuel) (hblanks : Blanks blanks) :
    (readMembers fuel first d (body ++ (blanks ++ '}' :: rest))).toOption =
      (members.foldlM take d).map fun d => (d, '}' :: rest) := by
  induction members generalizing first body fuel d with
  | nil =>
    obtain ⟨fuel, rfl⟩ := Nat.exists_eq_add_one_of_ne_zero (Nat.ne_zero_of_lt hfuel)
    cases h
    rw [List.nil_append, readMembers, Json.nextMember_end hblanks]
    rfl
  | cons m members ih =>
    obtain ⟨fuel, rfl⟩ := Nat.exists_eq_add_one_of_ne_zero (Nat.ne_zero_of_lt hfuel)
    cases h with
    | @cons _ name j _ lead text before after cs body hlead hname hbefore hafter h hmembers =>
      have hend : EndsNumber (body ++ (blanks ++ '}' :: rest)) :=
        hmembers.endsNumber (Json.endsNumber_append hblanks (Json.endsNumber_mark (by decide)))
      have hread : Json.readText (text ++ '"' :: (before ++ ':' :: (after ++ (cs ++ (body ++
          (blanks ++ '}' :: rest)))))) = .ok (name, before ++ ':' :: (after ++ (cs ++ (body ++
          (blanks ++ '}' :: rest))))) := Json.readText_append hname _
      have hmember := toOption_readMember name d hbefore hafter h
        (hfits _ List.mem_cons_self) hend
      simp only [List.append_assoc, List.cons_append]
      rw [readMembers, Json.nextMember_lead hlead]
      change (Json.readText _ >>= _).toOption = _
      rw [hread]
      change (d.readMember name _ >>= _).toOption = _
      rw [toOption_bind, hmember, List.foldlM_cons]
      cases d.take (name, j) with
      | none => rfl
      | some d =>
        exact ih hmembers d (fun p hp => hfits p (List.mem_cons_of_mem _ hp))
          (Nat.lt_of_succ_lt_succ hfuel)

theorem bind_once_eq_some_iff {seen : Option α} {j : Json} {put : α → Draft}
    {next : Draft → Option Draft} :
    ((once seen meaning j).map put).bind next = some d' ↔
      seen = none ∧ ∃ x, meaning j = some x ∧ next (put x) = some d' := by
  cases seen with
  | none => cases h : meaning j <;> simp [once, h]
  | some x => simp [once]

/-- Each field is filled from the members with its name, and from no others. -/
theorem foldlM_take_iff {members : List (String × Json)} :
    members.foldlM take d = some d' ↔
      Filled okOf? d.ok (valuesOf "ok" members) d'.ok ∧
        Filled codeOf? d.code (valuesOf "code" members) d'.code ∧
        Filled appdataOf? d.appdata (valuesOf "appdata" members) d'.appdata ∧
        Filled messageOf? d.message (valuesOf "message" members) d'.message := by
  induction members generalizing d with
  | nil =>
    obtain ⟨ok, code, appdata, message⟩ := d
    obtain ⟨ok', code', appdata', message'⟩ := d'
    simp [valuesOf, filled_nil_iff]
  | cons m members ih =>
    obtain ⟨name, j⟩ := m
    rw [List.foldlM_cons]
    change (d.take (name, j)).bind _ = _ ↔ _
    -- the value goes to the field with its name, the other three have one value less to look at
    by_cases hok : name = "ok"
    · subst hok
      rw [take_ok, bind_once_eq_some_iff]
      simp only [valuesOf_cons, filled_cons_iff, ih, String.reduceEq, reduceIte]
      constructor
      · rintro ⟨hseen, x, hx, h₁, h₂, h₃, h₄⟩
        exact ⟨⟨hseen, x, hx, h₁⟩, h₂, h₃, h₄⟩
      · rintro ⟨⟨hseen, x, hx, h₁⟩, h₂, h₃, h₄⟩
        exact ⟨hseen, x, hx, h₁, h₂, h₃, h₄⟩
    by_cases hcode : name = "code"
    · subst hcode
      rw [take_code, bind_once_eq_some_iff]
      simp only [valuesOf_cons, filled_cons_iff, ih, String.reduceEq, reduceIte]
      constructor
      · rintro ⟨hseen, x, hx, h₁, h₂, h₃, h₄⟩
        exact ⟨h₁, ⟨hseen, x, hx, h₂⟩, h₃, h₄⟩
      · rintro ⟨h₁, ⟨hseen, x, hx, h₂⟩, h₃, h₄⟩
        exact ⟨hseen, x, hx, h₁, h₂, h₃, h₄⟩
    by_cases happdata : name = "appdata"
    · subst happdata
      rw [take_appdata, bind_once_eq_some_iff]
      simp only [valuesOf_cons, filled_cons_iff, ih, String.reduceEq, reduceIte]
      constructor
      · rintro ⟨hseen, x, hx, h₁, h₂, h₃, h₄⟩
        exact ⟨h₁, h₂, ⟨hseen, x, hx, h₃⟩, h₄⟩
      · rintro ⟨h₁, h₂, ⟨hseen, x, hx, h₃⟩, h₄⟩
        exact ⟨hseen, x, hx, h₁, h₂, h₃, h₄⟩
    by_cases hmessage : name = "message"
    · subst hmessage
      rw [take_message, bind_once_eq_some_iff]
      simp only [valuesOf_cons, filled_cons_iff, ih, String.reduceEq, reduceIte]
      constructor
      · rintro ⟨hseen, x, hx, h₁, h₂, h₃, h₄⟩
        exact ⟨h₁, h₂, h₃, ⟨hseen, x, hx, h₄⟩⟩
      · rintro ⟨h₁, h₂, h₃, ⟨hseen, x, hx, h₄⟩⟩
        exact ⟨hseen, x, hx, h₁, h₂, h₃, h₄⟩
    simp [take, valuesOf_cons, hok, hcode, happdata, hmessage, ih]

def envelope? (d : Draft) : Option Envelope :=
  match d.ok, d.code with
  | some ok, some code => some ⟨ok, code, d.appdata.getD none, d.message.getD none⟩
  | _, _ => none

theorem toOption_finish (d : Draft) (rest : List Char) :
    (d.finish rest).toOption = d.envelope? := by
  obtain ⟨ok, code, appdata, message⟩ := d
  cases ok <;> cases code <;> rfl

end Draft

theorem toOption_readObject {members : List (String × Json)} {body blanks rest : List Char}
    (h : WrittenMembers true members body)
    (hfits : ∀ m ∈ members, Fits (Json.roomForLevels - 1) m.2) (hblanks : Blanks blanks) :
    (readObject (body ++ (blanks ++ '}' :: rest))).toOption =
      ((members.foldlM Draft.take {}).bind Draft.envelope?).map fun e => (e, rest) := by
  have hfuel : members.length < (body ++ (blanks ++ '}' :: rest)).length + 1 := by
    have hle := h.length_le
    rw [List.length_append]
    omega
  rw [readObject, toOption_bind, Draft.toOption_readMembers h {} hfits hfuel hblanks]
  cases members.foldlM Draft.take {} with
  | none => rfl
  | some d =>
    change (d.finish _ >>= _).toOption = (d.envelope?).map _
    rw [toOption_bind, Draft.toOption_finish]
    cases d.envelope? <;> rfl

theorem filled_none_some_iff {values : List Json} {x : α} :
    Filled meaning none values (some x) ↔ ∃ j, values = [j] ∧ meaning j = some x := by
  constructor
  · rintro (_ | h)
    exact ⟨_, rfl, h⟩
  · rintro ⟨j, rfl, h⟩
    exact .once h

theorem describes_obj_iff {members : List (String × Json)} {e : Envelope} :
    (members.foldlM Draft.take {}).bind Draft.envelope? = some e ↔ Describes (.obj members) e := by
  rw [Option.bind_eq_some_iff]
  constructor
  · rintro ⟨⟨ok, code, appdata, message⟩, hmembers, he⟩
    obtain ⟨hok, hcode, happdata, hmessage⟩ := Draft.foldlM_take_iff.mp hmembers
    cases ok with
    | none => exact nomatch he
    | some ok =>
      cases code with
      | none => exact nomatch he
      | some code =>
        obtain rfl := Option.some.inj he
        obtain ⟨j, hok, hj⟩ := filled_none_some_iff.mp hok
        obtain ⟨k, hcode, hk⟩ := filled_none_some_iff.mp hcode
        obtain rfl := okOf?_eq_some_iff.mp hj
        obtain rfl := codeOf?_eq_some_iff.mp hk
        exact .object hok hcode (optionally_iff.mpr ⟨appdata, happdata, rfl⟩)
          (optionally_iff.mpr ⟨message, hmessage, rfl⟩)
  · rintro ⟨hok, hcode, happdata, hmessage⟩
    rename_i ok code _ _
    obtain ⟨appdata, hfirst, rfl⟩ := optionally_iff.mp happdata
    obtain ⟨message, hsecond, rfl⟩ := optionally_iff.mp hmessage
    refine ⟨⟨some ok, some code, appdata, message⟩, ?_, rfl⟩
    rw [Draft.foldlM_take_iff]
    exact ⟨filled_none_some_iff.mpr ⟨_, hok, okOf?_eq_some_iff.mpr rfl⟩,
      filled_none_some_iff.mpr ⟨_, hcode, codeOf?_eq_some_iff.mpr rfl⟩, hfirst, hsecond⟩

/-! ### Lists -/

/-- What the first of some values says, if there is one. -/
def firstOf (meaning : Json → Option α) : List Json → Option (Option α)
  | [] => some none
  | j :: _ => (meaning j).map some

theorem firstOf_cons (j : Json) (items : List Json) :
    firstOf meaning (j :: items) = (meaning j).map some :=
  rfl

theorem toOption_readItem {read : List Char → Except Stop (α × List Char)}
    (hread : Takes read meaning) {first : Bool} {items : List Json} {body blanks : List Char}
    (h : WrittenItems first items body) (hfits : ∀ j ∈ items, Fits (Json.roomForLevels - 1) j)
    (hblanks : Blanks blanks) (rest : List Char) :
    ∃ body' blanks', WrittenItems false items.tail body' ∧ Blanks blanks' ∧
      (readItem first read (body ++ (blanks ++ ']' :: rest))).toOption =
        (firstOf meaning items).map fun x => (x, body' ++ (blanks' ++ ']' :: rest)) := by
  cases h with
  | nil =>
    refine ⟨[], [], .nil, Json.blanks_nil, ?_⟩
    rw [List.nil_append, readItem, Json.nextItem_end hblanks]
    rfl
  | @cons _ j items lead cs body hlead h hitems =>
    have hend : EndsNumber (body ++ (blanks ++ ']' :: rest)) :=
      hitems.endsNumber (Json.endsNumber_append hblanks (Json.endsNumber_mark (by decide)))
    have hvalue := hread Json.blanks_nil h (hfits j List.mem_cons_self) hend
    refine ⟨body, blanks, hitems, hblanks, ?_⟩
    rw [List.append_assoc, List.append_assoc, readItem, Json.nextItem_lead hlead (h.opens.append _)]
    change (read _ >>= _).toOption = _
    rw [List.nil_append] at hvalue
    rw [toOption_bind, hvalue]
    change _ = ((meaning j).map some).map _
    cases meaning j <;> rfl

theorem toOption_endList {items : List Json} {body blanks : List Char}
    (h : WrittenItems false items body) (hblanks : Blanks blanks) (rest : List Char) :
    (Json.endList (body ++ (blanks ++ ']' :: rest))).toOption =
      if items = [] then some rest else none := by
  cases h with
  | nil =>
    rw [List.nil_append, Json.endList, Json.skipBlanks_mark hblanks rfl]
    rfl
  | @cons _ j items lead cs body hlead h _ =>
    obtain ⟨c, tail, hcs, hblank, hbracket, -⟩ :=
      h.opens.append (body ++ (blanks ++ ']' :: rest))
    cases hlead with
    | @later before after hbefore hafter =>
      have hcomma : Json.skipBlanks (before ++ ',' :: (after ++ c :: tail)) =
          ',' :: (after ++ c :: tail) := Json.skipBlanks_mark hbefore rfl _
      simp only [List.append_assoc, List.cons_append]
      rw [hcs, Json.endList, hcomma]
      simp [Json.skipBlanks_mark hafter hblank, hbracket]
      rfl

/-- An envelope behind which no further items stand. -/
def endingWith (e : Envelope) : List Json → Option Envelope
  | [] => some e
  | _ :: _ => none

/-- What a list says as an envelope. -/
def ofItems? (items : List Json) : Option Envelope := do
  let ok ← (← firstOf okOf? items)
  let code ← (← firstOf codeOf? items.tail)
  let appdata ← firstOf appdataOf? items.tail.tail
  let message ← firstOf messageOf? items.tail.tail.tail
  endingWith ⟨ok, code, appdata.getD none, message.getD none⟩ items.tail.tail.tail.tail

theorem toOption_readList {items : List Json} {body blanks rest : List Char}
    (h : WrittenItems true items body) (hfits : ∀ j ∈ items, Fits (Json.roomForLevels - 1) j)
    (hblanks : Blanks blanks) :
    (readList (body ++ (blanks ++ ']' :: rest))).toOption =
      (ofItems? items).map fun e => (e, rest) := by
  have hfits₁ : ∀ j ∈ items.tail, Fits (Json.roomForLevels - 1) j :=
    fun j hj => hfits j (List.mem_of_mem_tail hj)
  have hfits₂ : ∀ j ∈ items.tail.tail, Fits (Json.roomForLevels - 1) j :=
    fun j hj => hfits₁ j (List.mem_of_mem_tail hj)
  have hfits₃ : ∀ j ∈ items.tail.tail.tail, Fits (Json.roomForLevels - 1) j :=
    fun j hj => hfits₂ j (List.mem_of_mem_tail hj)
  obtain ⟨body₁, blanks₁, h₁, hblanks₁, hok⟩ := toOption_readItem takes_readOk h hfits hblanks rest
  obtain ⟨body₂, blanks₂, h₂, hblanks₂, hcode⟩ :=
    toOption_readItem takes_readCode h₁ hfits₁ hblanks₁ rest
  obtain ⟨body₃, blanks₃, h₃, hblanks₃, happdata⟩ :=
    toOption_readItem takes_readAppdata h₂ hfits₂ hblanks₂ rest
  obtain ⟨body₄, blanks₄, h₄, hblanks₄, hmessage⟩ :=
    toOption_readItem takes_readMessage h₃ hfits₃ hblanks₃ rest
  have hend := toOption_endList h₄ hblanks₄ rest
  -- each reader either stops or leaves a list without the item that it read
  rw [readList, toOption_bind, hok, ofItems?]
  rcases firstOf okOf? items with _ | _ | ok
  · rfl
  · rfl
  change (readItem _ _ _ >>= _).toOption = _
  rw [toOption_bind, hcode]
  rcases firstOf codeOf? items.tail with _ | _ | code
  · rfl
  · rfl
  change (readItem _ _ _ >>= _).toOption = _
  rw [toOption_bind, happdata]
  rcases firstOf appdataOf? items.tail.tail with _ | appdata
  · rfl
  change (readItem _ _ _ >>= _).toOption = _
  rw [toOption_bind, hmessage]
  rcases firstOf messageOf? items.tail.tail.tail with _ | message
  · rfl
  change (Json.endList _ >>= _).toOption = _
  rw [toOption_bind, hend]
  cases items.tail.tail.tail.tail <;> rfl

theorem endingWith_eq_some_iff {items : List Json} {e e' : Envelope} :
    endingWith e items = some e' ↔ items = [] ∧ e = e' := by
  cases items <;> simp [endingWith]

theorem filled_take_iff {items : List Json} {seen : Option α} :
    Filled meaning none (items.take 1) seen ↔ firstOf meaning items = some seen := by
  cases items with
  | nil => simp [firstOf, filled_nil_iff]
  | cons j items =>
    simp only [List.take_succ_cons, List.take_zero, filled_cons_iff, filled_nil_iff, firstOf,
      Option.map_eq_some_iff, true_and]

theorem ofItems?_cons_iff {j k : Json} {rest : List Json} {e : Envelope} :
    ofItems? (j :: k :: rest) = some e ↔
      ∃ ok, okOf? j = some ok ∧ ∃ code, codeOf? k = some code ∧
        ∃ appdata, firstOf appdataOf? rest = some appdata ∧
          ∃ message, firstOf messageOf? rest.tail = some message ∧
            rest.tail.tail = [] ∧ ⟨ok, code, appdata.getD none, message.getD none⟩ = e := by
  simp only [ofItems?, firstOf_cons, List.tail_cons, Option.bind_eq_bind, Option.bind_eq_some_iff,
    Option.map_eq_some_iff, exists_exists_and_eq_and, Option.some.injEq, exists_eq_left',
    endingWith_eq_some_iff]

/-- With two items at most, the second is what is left behind the first. -/
theorem length_le_two_iff {rest : List Json} :
    rest.length ≤ 2 ↔ rest.tail.tail = [] := by
  rcases rest with _ | ⟨j, _ | ⟨k, _ | ⟨l, rest⟩⟩⟩ <;> simp

theorem take_tail {rest : List Json} (h : rest.tail.tail = []) :
    rest.tail.take 1 = rest.drop 1 := by
  rcases rest with _ | ⟨j, _ | ⟨k, _ | ⟨l, rest⟩⟩⟩
  · rfl
  · rfl
  · rfl
  · exact nomatch h

theorem describes_arr_iff {items : List Json} {e : Envelope} :
    ofItems? items = some e ↔ Describes (.arr items) e := by
  constructor
  · intro h
    rcases items with _ | ⟨j, _ | ⟨k, rest⟩⟩
    · exact nomatch h
    · cases hok : okOf? j <;> simp [ofItems?, firstOf, hok] at h
    · obtain ⟨ok, hok, code, hcode, appdata, happdata, message, hmessage, hlast, rfl⟩ :=
        ofItems?_cons_iff.mp h
      obtain rfl := okOf?_eq_some_iff.mp hok
      obtain rfl := codeOf?_eq_some_iff.mp hcode
      have hdata := optionally_iff.mpr ⟨appdata, filled_take_iff.mpr happdata, rfl⟩
      have htext := optionally_iff.mpr ⟨message, filled_take_iff.mpr hmessage, rfl⟩
      rw [take_tail hlast] at htext
      exact .list (length_le_two_iff.mpr hlast) hdata htext
  · intro h
    cases h with
    | @list ok code rest appdata message hlength happdata hmessage =>
      have hlast := length_le_two_iff.mp hlength
      rw [← take_tail hlast] at hmessage
      obtain ⟨appdata, hdata, rfl⟩ := optionally_iff.mp happdata
      obtain ⟨message, htext, rfl⟩ := optionally_iff.mp hmessage
      exact ofItems?_cons_iff.mpr ⟨ok, rfl, code, codeOf?_eq_some_iff.mpr rfl, appdata,
        filled_take_iff.mp hdata, message, filled_take_iff.mp htext, hlast, rfl⟩

end Shakedown.Envelope
