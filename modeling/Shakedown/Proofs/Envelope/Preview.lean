import Shakedown.Proofs.Envelope.Acceptance
import Shakedown.Proofs.Text.Slice

/-!
# What a failure quotes of an output

The failure to read an output quotes the start of it, with a limit on the characters. In the bytes
of the output the cut can be anywhere, since a character has up to four of them; it always lies
between two characters.
-/

namespace Shakedown.Envelope

/-- The start of a text, cut off at the place in its bytes where the first character begins that is
not shown. There is none if that place lay in a character. -/
def slicedPreview? (cs : List Char) : Option (List Char) :=
  match (Text.charPlaces 0 cs)[previewLength]? with
  | some (place, _) => (Text.before? cs place).map (· ++ "...".toList)
  | none => some cs

/-! ### The length of a preview -/

section Length

variable {cs : List Char}

theorem preview_of_le (h : cs.length ≤ previewLength) : preview cs = cs :=
  if_pos h

theorem preview_append {shown rest : List Char} (hshown : shown.length = previewLength)
    (hrest : rest ≠ []) : preview (shown ++ rest) = shown ++ "...".toList := by
  have hlong : ¬(shown ++ rest).length ≤ previewLength := by
    have hpos := List.length_pos_iff.mpr hrest
    rw [List.length_append]
    omega
  calc
    preview (shown ++ rest) = (shown ++ rest).take previewLength ++ "...".toList := if_neg hlong
    _ = shown ++ "...".toList := by rw [List.take_left' hshown]

theorem length_preview_le (cs : List Char) : (preview cs).length ≤ 203 := by
  have hlength : previewLength = 200 := rfl
  by_cases h : cs.length ≤ previewLength
  · rw [preview_of_le h]
    omega
  · have hshown : (cs.take previewLength).length = previewLength := by
      rw [List.length_take]
      omega
    have hrest : cs.drop previewLength ≠ [] := by
      rw [Ne, List.drop_eq_nil_iff]
      exact h
    have hpreview := preview_append hshown hrest
    rw [List.take_append_drop] at hpreview
    rw [hpreview, List.length_append, hshown, hlength]
    decide

/-- The cut by the bytes is there, and gives the same preview. -/
theorem slicedPreview?_eq (cs : List Char) : slicedPreview? cs = some (preview cs) := by
  unfold slicedPreview? preview
  by_cases h : cs.length ≤ previewLength
  · have hplace : (Text.charPlaces 0 cs)[previewLength]? = none := by
      rw [Text.getElem?_charPlaces, List.getElem?_eq_none h]
      rfl
    rw [hplace, if_pos h]
  · have hplace : (Text.charPlaces 0 cs)[previewLength]? =
        some (0 + (Text.utf8 (cs.take previewLength)).length, cs[previewLength]) := by
      rw [Text.getElem?_charPlaces, List.getElem?_eq_getElem (Nat.lt_of_not_le h)]
      rfl
    rw [hplace, if_neg h]
    dsimp only
    rw [(Text.before?_charPlaces hplace).2]
    rfl

end Length

/-- An output that is no envelope is refused with its first 200 characters, however it is cut. -/
theorem failure_of_output (cs : List Char) :
    ∃ body, Text.Trims cs body ∧
      (∀ f, ofOutput cs = .error f ↔ ∃ fault, ofChars? body = .error fault ∧
        f = .transport ("invalid response envelope (" ++ fault.text ++ "): " ++
          String.ofList (preview body))) ∧
      (body.length ≤ 200 → preview body = body) ∧
      (∀ shown rest, body = shown ++ rest → shown.length = 200 → rest ≠ [] →
        preview body = shown ++ "...".toList) ∧
      (∀ place c, (Text.charPlaces 0 body)[200]? = some (place, c) →
        Text.isBoundary (Text.utf8 body) place = true ∧
          Text.before? body place = some (body.take 200)) ∧
      slicedPreview? body = some (preview body) ∧ (preview body).length ≤ 203 := by
  refine ⟨_, Text.trims_trimChars cs, fun f => ofOutput_eq_error_iff, preview_of_le, ?_, ?_,
    slicedPreview?_eq _, length_preview_le _⟩
  · intro shown rest hsplit hshown hrest
    rw [hsplit]
    exact preview_append hshown hrest
  · intro place c h
    exact Text.before?_charPlaces h

/-- Of 201 characters the last is left out, and the cut comes after 600 bytes. -/
theorem failure_of_output_long :
    let shown := List.replicate 200 '€'
    let body := shown ++ ['x']
    let cs := '\n' :: body
    Text.Trims cs body ∧ shown.length = 200 ∧
      (∃ fault, ofOutput cs = .error (.transport ("invalid response envelope (" ++
        Json.Fault.text fault ++ "): " ++ String.ofList (shown ++ "...".toList)))) ∧
      Text.isBoundary (Text.utf8 body) 600 = true ∧ Text.before? body 600 = some shown := by
  intro shown body cs
  have hshown : shown.length = 200 := List.length_replicate
  have hbody : Text.Trims cs body := by
    have hbefore : ∀ c ∈ ['\n'], Text.isBlank c = true := List.all_eq_true.mp rfl
    refine ⟨⟨['\n'], [], by simp [cs], hbefore, nofun⟩, ?_, ?_⟩
    · intro c hc
      obtain rfl := Option.some.inj hc
      rfl
    · intro c hc
      rw [List.getLast?_concat] at hc
      obtain rfl := Option.some.inj hc
      rfl
  obtain ⟨body', hbody', herror, -, hlong, hcut, -⟩ := failure_of_output cs
  obtain rfl : body' = body := hbody'.eq.symm.trans hbody.eq
  have hpreview := hlong shown ['x'] rfl hshown (List.cons_ne_nil _ _)
  have hplace : (Text.charPlaces 0 body)[200]? = some (600, 'x') := by
    decide +kernel
  refine ⟨hbody, hshown, ?_, ?_⟩
  · cases hresult : ofOutput cs with
    | ok e =>
      have hmem (c : Char) (hc : c ∈ cs) : c = '\n' ∨ c = '€' ∨ c = 'x' := by
        rcases List.mem_cons.mp hc with hc | hc
        · exact Or.inl hc
        rcases List.mem_append.mp hc with hc | hc
        · exact Or.inr (Or.inl (List.eq_of_mem_replicate hc))
        · exact Or.inr (Or.inr (List.mem_singleton.mp hc))
      have hbrace : '{' ∉ cs := fun hc => absurd (hmem _ hc) (by decide)
      have hbracket : '[' ∉ cs := fun hc => absurd (hmem _ hc) (by decide)
      exact absurd hresult (ofOutput_of_notMem hbrace hbracket e)
    | error f =>
      obtain ⟨fault, -, rfl⟩ := (herror f).mp hresult
      exact ⟨fault, by rw [hpreview]⟩
  · have hbefore := hcut 600 'x' hplace
    rwa [List.take_left' hshown] at hbefore

end Shakedown.Envelope
