import Shakedown.Proofs.Envelope.Reading
import Shakedown.Proofs.Text.Blank

/-!
# What is accepted as an answer

A server's output is accepted exactly when it is, between blanks, a text of a value that describes
an envelope. Everything else is a failure of the interface.
-/

namespace Shakedown

namespace Json

variable {j : Json} {cs : List Char}

theorem isBlank_integer {n : Int} {c : Char} (h : c ∈ Decimal.integer n) :
    Text.isBlank c = false := by
  cases n with
  | ofNat n => exact Text.isBlank_of_isDigit (Decimal.isDigit_of_mem_digits h)
  | negSucc n =>
    rcases List.mem_cons.mp h with rfl | h
    · rfl
    · exact Text.isBlank_of_isDigit (Decimal.isDigit_of_mem_digits h)

theorem isBlank_head (h : Written j cs) : ∀ c ∈ cs.head?, Text.isBlank c = false := by
  intro c hc
  cases h with
  | int n => exact isBlank_integer (List.mem_of_mem_head? hc)
  | _ =>
    obtain rfl := Option.some.inj hc
    rfl

theorem isBlank_getLast (h : Written j cs) : ∀ c ∈ cs.getLast?, Text.isBlank c = false := by
  intro c hc
  cases h with
  | int n => exact isBlank_integer (List.mem_of_getLast? hc)
  | str => 
    rw [← List.cons_append, List.getLast?_concat] at hc
    obtain rfl := Option.some.inj hc
    rfl
  | arr => 
    rw [← List.append_assoc, ← List.cons_append, List.getLast?_concat] at hc
    obtain rfl := Option.some.inj hc
    rfl
  | obj => 
    rw [← List.append_assoc, ← List.cons_append, List.getLast?_concat] at hc
    obtain rfl := Option.some.inj hc
    rfl
  | _ =>
    obtain rfl := Option.some.inj hc
    rfl

end Json

namespace Envelope

open Json (Stop Blanks Written WrittenItems WrittenMembers Fits EndsNumber)

def ofJson? : Json → Option Envelope
  | .obj members => (members.foldlM Draft.take {}).bind Draft.envelope?
  | .arr items => ofItems? items
  | _ => none

theorem ofJson?_eq_some_iff {j : Json} {e : Envelope} : ofJson? j = some e ↔ Describes j e := by
  cases j with
  | obj members => exact describes_obj_iff
  | arr items => exact describes_arr_iff
  | _ => exact ⟨nofun, nofun⟩

theorem toOption_read {j : Json} {cs : List Char} (h : Written j cs)
    (hfits : Fits Json.roomForLevels j) :
    (read cs).toOption = (ofJson? j).map fun e => (e, []) := by
  have hopens : Json.skipBlanks cs = cs := by
    simpa using h.opens.skipBlanks []
  rw [read, hopens]
  cases h with
  | @obj members body blanks h hblanks =>
    exact toOption_readObject h (Json.fits_obj.mp hfits) hblanks
  | @arr items body blanks h hblanks =>
    exact toOption_readList h (Json.fits_arr.mp hfits) hblanks
  | int n =>
    obtain ⟨c, ds, hcs, hne⟩ := Json.integer_eq_cons n
    simp [hcs, hne, ofJson?, toOption_refuse]
  | _ => exact toOption_refuse ..

theorem toOption_ofChars? {j : Json} {cs : List Char} (h : Written j cs)
    (hfits : Fits Json.roomForLevels j) : (ofChars? cs).toOption = ofJson? j := by
  have hread := toOption_read h hfits
  unfold ofChars?
  cases hjson : ofJson? j with
  | none =>
    rw [hjson] at hread
    cases hresult : read cs with
    | error stop => rfl
    | ok r =>
      rw [hresult] at hread
      exact nomatch hread
  | some e =>
    rw [hjson] at hread
    rw [toOption_eq_some_iff.mp hread]
    rfl

theorem ofOutput_written {j : Json} {before cs after : List Char} (h : Written j cs)
    (hfits : Fits Json.roomForLevels j) (hbefore : ∀ c ∈ before, Text.isBlank c = true)
    (hafter : ∀ c ∈ after, Text.isBlank c = true) {e : Envelope} :
    ofOutput (before ++ (cs ++ after)) = .ok e ↔ Describes j e := by
  have hne : cs ≠ [] := List.ne_nil_of_length_pos h.opens.length_pos
  have htrim : Text.trimChars (before ++ (cs ++ after)) = cs :=
    Text.trimChars_append hbefore hafter hne (Json.isBlank_head h) (Json.isBlank_getLast h)
  have hread := toOption_ofChars? h hfits
  rw [← ofJson?_eq_some_iff, ← hread, toOption_eq_some_iff, ofOutput, htrim]
  cases ofChars? cs with
  | error fault => exact ⟨nofun, nofun⟩
  | ok e => simp

/-- A failure to read an answer is a failure of the interface. -/
theorem ofOutput_eq_error_iff {cs : List Char} {failure : Failure} :
    ofOutput cs = .error failure ↔ ∃ fault, ofChars? (Text.trimChars cs) = .error fault ∧
      failure = .transport (unreadable fault (Text.trimChars cs)) := by
  rw [ofOutput]
  cases ofChars? (Text.trimChars cs) with
  | ok e => simp
  | error fault => simp [eq_comm]

theorem ofOutput_eq_error {cs : List Char} {failure : Failure} (h : ofOutput cs = .error failure) :
    ∃ message, failure = .transport message := by
  obtain ⟨fault, -, rfl⟩ := ofOutput_eq_error_iff.mp h
  exact ⟨_, rfl⟩

/-! ### Numbers that are no integers -/

/-- An envelope starts with a brace or a bracket. -/
theorem toOption_read_of_notMem {cs : List Char} (hbrace : '{' ∉ cs) (hbracket : '[' ∉ cs) :
    (read cs).toOption = none := by
  have hmem : ∀ c ∈ Json.skipBlanks cs, c ∈ cs := fun c hc =>
    (List.dropWhile_suffix Json.isBlank).mem hc
  unfold read
  split
  · rename_i heq
    exact absurd (hmem _ (heq ▸ List.mem_cons_self)) hbrace
  · rename_i heq
    exact absurd (hmem _ (heq ▸ List.mem_cons_self)) hbracket
  · exact toOption_refuse ..

theorem ofOutput_of_notMem {cs : List Char} (hbrace : '{' ∉ cs) (hbracket : '[' ∉ cs)
    (e : Envelope) : ofOutput cs ≠ .ok e := by
  have hread := toOption_read_of_notMem (fun h => hbrace (Text.mem_of_mem_trimChars h))
    fun h => hbracket (Text.mem_of_mem_trimChars h)
  intro h
  unfold ofOutput at h
  dsimp only at h
  unfold ofChars? at h
  rcases hresult : read (Text.trimChars cs) with stop | r
  · rw [hresult] at h
    exact nomatch h
  · rw [hresult] at hread
    exact nomatch hread

theorem notMem_real (x : Float) {c : Char} (hc : Decimal.isPart c = false)
    (hnull : c ∉ "null".toList) : c ∉ Json.compactChars (.real x) := by
  intro h
  change c ∈ (if x.isFinite then Decimal.concise x else "null".toList) at h
  split at h
  · exact ne_true_of_eq_false hc (Decimal.isPart_concise x c h)
  · exact hnull h

theorem ofOutput_real {before after : List Char} (x : Float)
    (hbefore : ∀ c ∈ before, Text.isBlank c = true) (hafter : ∀ c ∈ after, Text.isBlank c = true)
    (e : Envelope) : ofOutput (before ++ (Json.compactChars (.real x) ++ after)) ≠ .ok e := by
  have hnotMem {c : Char} (hblank : Text.isBlank c = false) (hpart : Decimal.isPart c = false)
      (hnull : c ∉ "null".toList) : c ∉ before ++ (Json.compactChars (.real x) ++ after) := by
    rw [List.mem_append, List.mem_append]
    rintro (h | h | h)
    · exact ne_true_of_eq_false hblank (hbefore c h)
    · exact notMem_real x hpart hnull h
    · exact ne_true_of_eq_false hblank (hafter c h)
  exact ofOutput_of_notMem (hnotMem rfl rfl (by decide)) (hnotMem rfl rfl (by decide)) e

/-! ### Envelopes that are printed -/

/-- The members of an envelope, of which the optional ones are null when they are left open. -/
def members (e : Envelope) : List (String × Json) :=
  [("ok", .bool e.ok), ("code", .int e.code.toNat), ("appdata", e.appdata.getD .null),
    ("message", Json.ofText? e.message)]

/-- What is read back for data: no data for null, else the data in order. -/
def kept : Json → Option Json
  | .null => none
  | j => some j.sorted

theorem bind_kept {appdata : Option Json} (h : ∀ j ∈ appdata, j ≠ .null ∧ j.sorted = j) :
    appdata.bind kept = appdata := by
  rcases appdata with _ | j
  · rfl
  · obtain ⟨hnull, hsorted⟩ := h j rfl
    cases j with
    | null => exact absurd rfl hnull
    | _ => exact congrArg some hsorted

theorem valuesOf_perm {members members' : List (String × Json)} (h : members.Perm members')
    {name : String} {j : Json} (hvalues : valuesOf name members' = [j]) :
    valuesOf name members = [j] := by
  have hperm : (valuesOf name members).Perm (valuesOf name members') :=
    (h.filter _).map _
  rw [hvalues] at hperm
  exact List.perm_singleton.mp hperm

/-- The members of an envelope describe it, in whatever order they stand. -/
theorem describes_of_perm {e : Envelope} {members : List (String × Json)}
    (h : members.Perm e.members) :
    Describes (.obj members) { e with appdata := e.appdata.bind kept } := by
  have happdata : valuesOf "appdata" members = [e.appdata.getD .null] := valuesOf_perm h rfl
  have hmessage : valuesOf "message" members = [Json.ofText? e.message] := valuesOf_perm h rfl
  refine .object (valuesOf_perm h rfl) (valuesOf_perm h rfl) ?_ ?_
  · rw [happdata]
    obtain ⟨ok, code, appdata, message⟩ := e
    rcases appdata with _ | j
    · exact .null
    · cases j with
      | null => exact .null
      | _ => exact .given nofun rfl
  · rw [hmessage]
    obtain ⟨ok, code, appdata, message⟩ := e
    cases message with
    | none => exact .null
    | some s => exact .given nofun rfl

theorem fits_members {e : Envelope} {members : List (String × Json)}
    (h : members.Perm e.members) (hfits : ∀ j ∈ e.appdata, Fits (Json.roomForLevels - 1) j) :
    Fits Json.roomForLevels (.obj members) := by
  have hcode : Fits (Json.roomForLevels - 1) (.int e.code.toNat) := by
    have hlt := e.code.toNat_lt
    exact .int (by omega) (by omega)
  have happdata : Fits (Json.roomForLevels - 1) (e.appdata.getD .null) := by
    cases happdata : e.appdata with
    | none => exact .null
    | some j => exact hfits j happdata
  have hmessage : Fits (Json.roomForLevels - 1) (Json.ofText? e.message) := by
    cases e.message with
    | none => exact .null
    | some s => exact .str s
  apply Json.fits_obj.mpr
  intro m hm
  have hmem : m ∈ e.members := h.mem_iff.mp hm
  simp only [Envelope.members, List.mem_cons, List.not_mem_nil, or_false] at hmem
  rcases hmem with rfl | rfl | rfl | rfl
  · exact .bool e.ok
  · exact hcode
  · exact happdata
  · exact hmessage

/-- Just the objects that describe an envelope are accepted, with the last of the members of one
name. -/
theorem ofOutput_compactChars {before after : List Char}
    (hbefore : ∀ c ∈ before, Text.isBlank c = true) (hafter : ∀ c ∈ after, Text.isBlank c = true) :
    (∀ j, (Fits Json.roomForLevels j ∨ ∃ x, j = .real x) →
      (∀ e, ofOutput (before ++ (j.compactChars ++ after)) = .ok e ↔ Describes j e) ∧
        ((∀ e, ¬Describes j e) → ∃ message,
          ofOutput (before ++ (j.compactChars ++ after)) = .error (.transport message))) ∧
      (∀ name members, (Json.sorted (.obj members)).member? name =
        (lastValue? name members).map Json.sorted) ∧
      ∀ (e : Envelope) (members : List (String × Json)),
        (∀ j ∈ e.appdata, Fits (Json.roomForLevels - 1) j) → members.Perm e.members →
          ofOutput (before ++ ((Json.obj members).compactChars ++ after)) =
              .ok { e with appdata := e.appdata.bind kept } ∧
            ((∀ j ∈ e.appdata, j ≠ .null ∧ j.sorted = j) →
              ofOutput (before ++ ((Json.obj members).compactChars ++ after)) = .ok e) := by
  have haccept (j : Json) (hj : Fits Json.roomForLevels j ∨ ∃ x, j = .real x) (e : Envelope) :
      ofOutput (before ++ (j.compactChars ++ after)) = .ok e ↔ Describes j e := by
    rcases hj with hfits | ⟨x, rfl⟩
    · exact ofOutput_written (Json.written_compactChars hfits) hfits hbefore hafter
    · exact ⟨fun h => absurd h (ofOutput_real x hbefore hafter e), nofun⟩
  refine ⟨fun j hj => ⟨haccept j hj, fun hnone => ?_⟩, Json.member?_sorted,
    fun e members hfits hperm => ?_⟩
  · cases hresult : ofOutput (before ++ (j.compactChars ++ after)) with
    | ok e => exact absurd ((haccept j hj e).mp hresult) (hnone e)
    | error failure =>
      obtain ⟨message, rfl⟩ := ofOutput_eq_error hresult
      exact ⟨message, rfl⟩
  · have hread := (haccept _ (.inl (fits_members hperm hfits)) _).mpr (describes_of_perm hperm)
    refine ⟨hread, fun hsorted => ?_⟩
    rw [hread, bind_kept hsorted]

/-- Unknown members do not matter, and of two members with one name the data keeps the last. -/
theorem ofOutput_compactChars_unknown_members :
    let before := ['\u3000', ' ']
    let after := ['\n']
    let j : Json := .obj [("x", .null), ("code", .int 404), ("x", .arr [.int (-1)]),
      ("ok", .bool false), ("appdata", .obj [("a", .int 1), ("a", .int 2)])]
    ((∀ c ∈ before, Text.isBlank c = true) ∧ ∀ c ∈ after, Text.isBlank c = true) ∧
      ofOutput (before ++ (j.compactChars ++ after)) =
        .ok ⟨false, 404, some (.obj [("a", .int 2)]), none⟩ := by
  have hbefore : ∀ c ∈ ['\u3000', ' '], Text.isBlank c = true := List.all_eq_true.mp rfl
  have hafter : ∀ c ∈ ['\n'], Text.isBlank c = true := List.all_eq_true.mp rfl
  intro before after j
  have hfits : Fits 2 j := by
    simp [j, Json.fits_obj, Json.fits_arr, Json.fits_int, Fits.null, Fits.bool]
  refine ⟨⟨hbefore, hafter⟩, ?_⟩
  have haccept := (ofOutput_compactChars hbefore hafter).1 j (.inl (hfits.mono (by decide)))
  exact (haccept.1 _).mpr (.object rfl rfl (.given nofun rfl) .absent)

end Envelope

end Shakedown
