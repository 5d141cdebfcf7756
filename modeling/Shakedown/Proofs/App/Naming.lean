import Shakedown.Arguments
import Shakedown.Proofs.Result
import Shakedown.Proofs.Settings.Reading
import Shakedown.Proofs.Text.Blank

/-!
# The names of apps

An app has one exact name, which settings and calls use. On the command line there may be blanks
around it, and its letters may be capitals. Letters and blanks are told differently: a blank is any
that Unicode knows, and a capital is one of ASCII only.
-/

namespace Shakedown

/-! ### Capitals -/

namespace Text

/-- A letter, or its capital. -/
def IsLetter (c l : Char) : Prop :=
  c = l ∨ c = l.toUpper

theorem isLower_iff {l : Char} : l.isLower = true ↔ 97 ≤ l.toNat ∧ l.toNat ≤ 122 := by
  have ha : 'a'.val.toNat = 97 := rfl
  have hz : 'z'.val.toNat = 122 := rfl
  unfold Char.isLower
  simp only [ge_iff_le, Bool.and_eq_true, decide_eq_true_eq,
    UInt32.le_iff_toNat_le, ha, hz]
  rfl

theorem toNat_toLower (c : Char) :
    c.toLower.toNat = if 65 ≤ c.toNat ∧ c.toNat ≤ 90 then c.toNat + 32 else c.toNat := by
  have ha : 'A'.val.toNat = 65 := rfl
  have hz : 'Z'.val.toNat = 90 := rfl
  unfold Char.toLower Char.toNat
  simp only [ge_iff_le, UInt32.le_iff_toNat_le, ha, hz]
  split
  · have hstep : ('a'.val - 'A'.val).toNat = 32 := rfl
    change (c.val + ('a'.val - 'A'.val)).toNat = _
    rw [UInt32.toNat_add, hstep]
    omega
  · rfl

theorem toNat_toUpper (c : Char) :
    c.toUpper.toNat = if 97 ≤ c.toNat ∧ c.toNat ≤ 122 then c.toNat - 32 else c.toNat := by
  have ha : 'a'.val.toNat = 97 := rfl
  have hz : 'z'.val.toNat = 122 := rfl
  unfold Char.toUpper Char.toNat
  simp only [UInt32.le_iff_toNat_le, ha, hz]
  split
  · have hstep : ('A'.val - 'a'.val).toNat = 2 ^ 32 - 32 := rfl
    change (c.val + ('A'.val - 'a'.val)).toNat = _
    rw [UInt32.toNat_add, hstep]
    omega
  · rfl

theorem toLower_eq_iff {c l : Char} (h : l.isLower = true) : c.toLower = l ↔ IsLetter c l := by
  rw [isLower_iff] at h
  rw [IsLetter, ← Char.toNat_inj, ← Char.toNat_inj, ← Char.toNat_inj, toNat_toLower,
    toNat_toUpper, if_pos h]
  split <;> omega

theorem map_toLower_eq_iff {cs ls : List Char} (h : ∀ l ∈ ls, l.isLower = true) :
    cs.map Char.toLower = ls ↔ List.Forall₂ IsLetter cs ls := by
  induction ls generalizing cs with
  | nil => simp
  | cons l ls ih =>
    obtain ⟨hl, hls⟩ := List.forall_mem_cons.mp h
    cases cs with
    | nil => simp
    | cons c cs => simp [toLower_eq_iff hl, ih hls]

end Text

namespace App

/-- A text spells the name of an app: it is the name between blanks, if any, and letters of it may
be capitals. -/
def Spells (cs : List Char) (a : App) : Prop :=
  ∃ body, Text.Trims cs body ∧ List.Forall₂ Text.IsLetter body a.name.toList

variable {s : String} {a b : App}

theorem isLower_of_mem_name (a : App) : ∀ l ∈ a.name.toList, l.isLower = true := by
  rw [← List.all_eq_true]
  cases a <;> decide

theorem ofText?_eq_some_iff : ofText? s = some a ↔ Spells s.toList a := by
  have hexact : String.ofList ((Text.trimChars s.toList).map Char.toLower) = a.name ↔
      (Text.trimChars s.toList).map Char.toLower = a.name.toList := by
    rw [← String.toList_inj, String.toList_ofList]
  rw [ofText?, ofName?_eq_some_iff, hexact, Text.map_toLower_eq_iff a.isLower_of_mem_name]
  simp only [Spells, Text.trims_iff, exists_eq_left']

theorem ofText_eq_ok_iff : ofText s = .ok a ↔ Spells s.toList a := by
  rw [← ofText?_eq_some_iff, ofText]
  cases ofText? s <;> simp

theorem ofText_eq_error_iff {f : Failure} :
    ofText s = .error f ↔ f = .unknownApp s ∧ ∀ a, ¬Spells s.toList a := by
  simp only [← ofText?_eq_some_iff, ofText]
  cases ofText? s <;> simp [eq_comm]

theorem Spells.unique (ha : Spells s.toList a) (hb : Spells s.toList b) : a = b := by
  rw [← ofText?_eq_some_iff] at ha hb
  exact Option.some.inj (ha.symm.trans hb)

theorem isBlank_of_letter {c l : Char} (hl : l ∈ a.name.toList) (hc : Text.IsLetter c l) :
    Text.isBlank c = false := by
  have hletters : (a.name.toList.all fun l => !Text.isBlank l && !Text.isBlank l.toUpper) = true := by
    cases a <;> decide
  have hl := List.all_eq_true.mp hletters l hl
  rw [Bool.and_eq_true, Bool.not_eq_true', Bool.not_eq_true'] at hl
  rcases hc with rfl | rfl
  · exact hl.1
  · exact hl.2

/-- The letters of a name are no blanks, so only what is around them is taken away. -/
theorem spells_of_letters {before body after : List Char}
    (hbefore : ∀ c ∈ before, Text.isBlank c = true) (hafter : ∀ c ∈ after, Text.isBlank c = true)
    (hbody : List.Forall₂ Text.IsLetter body a.name.toList) :
    Spells (before ++ (body ++ after)) a := by
  have hvisible : ∀ c ∈ body, Text.isBlank c = false := by
    intro c hc
    obtain ⟨l, hl, hletter⟩ := exists_mem_of_forall₂ hbody hc
    exact isBlank_of_letter hl hletter
  refine ⟨body, ⟨⟨before, after, rfl, hbefore, hafter⟩, ?_, ?_⟩, hbody⟩
  · exact fun c hc => hvisible c (List.mem_of_mem_head? hc)
  · exact fun c hc => hvisible c (List.mem_of_mem_getLast? hc)

theorem spells_name (a : App) : Spells a.name.toList a := by
  have hletters : List.Forall₂ Text.IsLetter a.name.toList a.name.toList :=
    List.forall₂_same.mpr fun l _ => Or.inl rfl
  have hspells : Spells ([] ++ (a.name.toList ++ [])) a := spells_of_letters nofun nofun hletters
  rwa [List.nil_append, List.append_nil] at hspells

theorem readApp_text_eq_ok_iff {extent : Toml.Extent} :
    Settings.readApp extent (.text s) = .ok a ↔ s = a.name := by
  rw [← ofName?_eq_some_iff, Settings.readApp, Toml.readChoice_eq_ok_iff]
  constructor
  · rintro (⟨_, ⟨rfl⟩, h⟩ | ⟨_, _, _, _, h, _⟩)
    · exact h
    · exact nomatch h
  · exact fun h => Or.inl ⟨s, rfl, h⟩

/-- A text is read as an app just if it spells its name, which settings and calls take exactly. -/
theorem namings_agree (s : String) :
    (∀ a, ofText s = .ok a ↔ Spells s.toList a) ∧
      (∀ f, ofText s = .error f ↔ f = .unknownApp s ∧ ∀ a, ¬Spells s.toList a) ∧
      (∀ a before body after, (∀ c ∈ before, Text.isBlank c = true) →
        (∀ c ∈ after, Text.isBlank c = true) → List.Forall₂ Text.IsLetter body a.name.toList →
          s.toList = before ++ (body ++ after) → ofText s = .ok a) ∧
      (∀ a extent, Settings.readApp extent (.text s) = .ok a ↔ s = a.name) ∧
      (∀ a action params, (Call.mk s action params).isFor a = true ↔ s = a.name) ∧
      (∀ a extent, Settings.readApp extent (.text s) = .ok a → ofText s = .ok a) ∧
      ∀ a b, Spells s.toList a → Spells s.toList b → a = b := by
  refine ⟨fun a => ofText_eq_ok_iff, fun f => ofText_eq_error_iff, ?_,
    fun a extent => readApp_text_eq_ok_iff, ?_, ?_, fun a b => Spells.unique⟩
  · intro a before body after hbefore hafter hbody hs
    rw [ofText_eq_ok_iff, hs]
    exact spells_of_letters hbefore hafter hbody
  · intro a action params
    rw [Call.isFor, beq_iff_eq]
  · intro a extent h
    obtain rfl := readApp_text_eq_ok_iff.mp h
    exact ofText_eq_ok_iff.mpr a.spells_name

/-- An ideographic space and a tabulator are blanks. With them, or with capitals, the name does for
the command line only. -/
theorem namings_agree_padded :
    let s := "\u3000FiLeS\t"
    let extent : Toml.Extent := ⟨0, 0⟩
    (∀ c ∈ ['\u3000'], Text.isBlank c = true) ∧ (∀ c ∈ ['\t'], Text.isBlank c = true) ∧
      List.Forall₂ Text.IsLetter "FiLeS".toList App.files.name.toList ∧
      s.toList = ['\u3000'] ++ ("FiLeS".toList ++ ['\t']) ∧ ofText s = .ok .files ∧
      Settings.readApp extent (.text s) ≠ .ok .files ∧
      Settings.readApp extent (.text "files") = .ok .files ∧ ofText "files" = .ok .files := by
  intro s extent
  have hbefore : ∀ c ∈ ['\u3000'], Text.isBlank c = true := List.all_eq_true.mp rfl
  have hafter : ∀ c ∈ ['\t'], Text.isBlank c = true := List.all_eq_true.mp rfl
  have hletters : List.Forall₂ Text.IsLetter "FiLeS".toList App.files.name.toList :=
    (Text.map_toLower_eq_iff App.files.isLower_of_mem_name).mp (by decide)
  obtain ⟨-, -, hpadded, hexact, -⟩ := namings_agree s
  obtain ⟨-, -, -, hread, -, hsame, -⟩ := namings_agree "files"
  have hfiles := (hread .files extent).mpr rfl
  have hs : s.toList = ['\u3000'] ++ ("FiLeS".toList ++ ['\t']) := by decide
  refine ⟨hbefore, hafter, hletters, hs, hpadded _ _ _ _ hbefore hafter hletters hs, ?_, hfiles,
    hsame .files extent hfiles⟩
  rw [Ne, hexact]
  decide

/-- A long `s` and a space of no width only look like a letter and a blank. -/
example :
    (ofText "file\u017F").toOption = none ∧ (ofText "\u200Bcore").toOption = none := by
  decide

end App

end Shakedown
