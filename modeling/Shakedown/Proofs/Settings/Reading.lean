import Shakedown.Proofs.Toml.Difference
import Shakedown.Settings.Decode

/-!
# Settings that differ in the password

Where values stand in a document matters for complaints only. Two tables that are the same but for
the password of the administrator give settings that are the same but for it.
-/

namespace Shakedown

open Toml (Extent Slip Value)

/-! ### Readings that do not depend on extents -/

namespace Toml

/-- A value with no values in it has no extents. -/
theorem Value.Same.eq_of_flat {v v' : Value} (h : v.Same v')
    (harray : ∀ ofTables items, v ≠ .array ofTables items)
    (htable : ∀ origin t, v ≠ .table origin t) : v' = v := by
  cases v with
  | array ofTables items => exact absurd rfl (harray ofTables items)
  | table origin t => exact absurd rfl (htable origin t)
  | _ =>
    cases v' with
    | array ofTables items => exact nomatch h
    | table origin t => exact nomatch h
    | _ => exact h.symm

mutual

theorem Value.isSound_outline : ∀ v : Value, v.outline.isSound = v.isSound
  | .array ofTables items => by
    rw [Value.outline, Value.isSound, Value.isSound, itemsAreSound_outlines items]
  | .table origin t => by
    rw [Value.outline, Value.isSound, Value.isSound, entriesAreSound_outlines t]
  | .text _ | .integer _ | .real _ | .boolean _ | .datetime | .overflow => rfl

theorem itemsAreSound_outlines : ∀ items, itemsAreSound (itemOutlines items) = itemsAreSound items
  | [] => rfl
  | (_, v) :: rest => by
    rw [itemOutlines, itemsAreSound, itemsAreSound, Value.isSound_outline v,
      itemsAreSound_outlines rest]

theorem entriesAreSound_outlines : ∀ t, entriesAreSound (entryOutlines t) = entriesAreSound t
  | [] => rfl
  | (_, _, v) :: rest => by
    rw [entryOutlines, entriesAreSound, entriesAreSound, Value.isSound_outline v,
      entriesAreSound_outlines rest]

end

/-- What is read from a value is read from it wherever it stands. -/
def Placeless {α : Type} (read : Extent → Value → Except Slip α) : Prop :=
  ∀ ⦃e e' v v' a⦄, v.Same v' → read e v = .ok a → read e' v' = .ok a

namespace Placeless

variable {α β : Type} {read read' : Extent → Value → Except Slip α}

theorem map (h : Placeless read) (f : α → β) : Placeless fun e v => (read e v).map f := by
  intro e e' v v' b hsame hb
  obtain ⟨a, ha, rfl⟩ := map_eq_ok_iff.mp hb
  exact map_eq_ok_iff.mpr ⟨a, h hsame ha, rfl⟩

theorem ite {c : Prop} [Decidable c] (h : Placeless read) (h' : Placeless read') :
    Placeless fun e v => if c then read e v else read' e v := by
  intro e e' v v' a hsame ha
  dsimp only at ha ⊢
  split at ha
  · rw [if_pos ‹c›]
    exact h hsame ha
  · rw [if_neg ‹¬c›]
    exact h' hsame ha

end Placeless

theorem placeless_passOver : Placeless passOver := by
  intro e e' v v' a hsame h
  have hsound : v.isSound = v'.isSound := by
    rw [← v.isSound_outline, hsame, v'.isSound_outline]
  unfold passOver at h ⊢
  rw [← hsound]
  split at h
  · rename_i hv
    rw [if_pos hv]
  · exact nomatch h

theorem mistype_ne_ok {α : Type} {wanted : String} {e : Extent} {v : Value} {a : α} :
    mistype wanted e v ≠ .ok a := by
  unfold mistype
  split <;> exact nofun

theorem readText_eq_ok_iff {e : Extent} {v : Value} {s : String} :
    readText e v = .ok s ↔ v = .text s := by
  constructor
  · intro h
    unfold readText at h
    split at h
    · rw [Except.ok.inj h]
    · exact absurd h mistype_ne_ok
  · rintro rfl
    rfl

theorem placeless_readText : Placeless readText := by
  intro e e' v v' a hsame h
  obtain rfl := readText_eq_ok_iff.mp h
  obtain rfl := hsame.eq_of_flat nofun nofun
  rfl

theorem readCount_eq_ok_iff {e : Extent} {v : Value} {n : Nat} :
    readCount e v = .ok n ↔ v = .integer n ∧ n < 2 ^ 64 := by
  constructor
  · intro h
    unfold readCount at h
    split at h
    · split at h
      · rename_i hrange
        obtain rfl := Except.ok.inj h
        rw [Int.toNat_of_nonneg hrange.1]
        exact ⟨rfl, by omega⟩
      · split at h <;> exact nomatch h
    · exact absurd h mistype_ne_ok
  · rintro ⟨rfl, hn⟩
    have hrange : 0 ≤ (n : Int) ∧ (n : Int) < 2 ^ 64 := by omega
    rw [readCount, if_pos hrange]
    rfl

theorem placeless_readCount : Placeless readCount := by
  intro e e' v v' a hsame h
  obtain ⟨rfl, ha⟩ := readCount_eq_ok_iff.mp h
  obtain rfl := hsame.eq_of_flat nofun nofun
  exact readCount_eq_ok_iff.mpr ⟨rfl, ha⟩

section Choice

variable {α : Type} {names : List String} {ofName? : String → Option α}

theorem readChoice_eq_ok_iff {e : Extent} {v : Value} {a : α} :
    readChoice names ofName? e v = .ok a ↔
      (∃ s, v = .text s ∧ ofName? s = some a) ∨
        ∃ origin name inner content, v = .table origin [(name, inner, content)] ∧
          ofName? name = some a ∧
          ((∃ inside, content = .table inside []) ∨ ∃ ofTables, content = .array ofTables []) := by
  have hchoose (name : String) (extent : Extent) :
      readChoice names ofName? extent (.text name) = .ok a ↔ ofName? name = some a := by
    unfold readChoice
    dsimp only
    cases ofName? name <;> simp [refuse]
  constructor
  · intro h
    unfold readChoice at h
    dsimp only at h
    split at h
    · exact Or.inl ⟨_, rfl, (hchoose _ e).mp h⟩
    · cases h
    · obtain ⟨b, hb, h⟩ := bind_eq_ok_iff.mp h
      split at h
      · obtain rfl := Except.ok.inj h
        exact Or.inr ⟨_, _, _, _, rfl, (hchoose _ e).mp hb, Or.inl ⟨_, rfl⟩⟩
      · obtain rfl := Except.ok.inj h
        exact Or.inr ⟨_, _, _, _, rfl, (hchoose _ e).mp hb, Or.inr ⟨_, rfl⟩⟩
      all_goals cases h
    · cases h
    · cases h
  · rintro (⟨s, rfl, hs⟩ | ⟨origin, name, inner, content, rfl, hname, hempty⟩)
    · exact (hchoose s e).mpr hs
    · refine bind_eq_ok_iff.mpr ⟨a, (hchoose name e).mpr hname, ?_⟩
      rcases hempty with ⟨inside, rfl⟩ | ⟨ofTables, rfl⟩ <;> rfl

theorem placeless_readChoice : Placeless (readChoice names ofName?) := by
  intro e e' v v' a hsame h
  refine readChoice_eq_ok_iff.mpr ?_
  rcases readChoice_eq_ok_iff.mp h with ⟨s, rfl, hs⟩ |
    ⟨origin, name, inner, content, rfl, hname, hcontent⟩
  · obtain rfl := hsame.eq_of_flat nofun nofun
    exact Or.inl ⟨s, rfl, hs⟩
  · obtain ⟨t', rfl, hrel⟩ := Value.same_table_iff.mp hsame
    obtain ⟨⟨name', inner', content'⟩, rest, ⟨rfl, hsame'⟩, hrest, rfl⟩ :=
      List.forall₂_cons_left_iff.mp hrel
    obtain rfl := List.forall₂_nil_left_iff.mp hrest
    refine Or.inr ⟨origin, _, inner', content', rfl, hname, ?_⟩
    rcases hcontent with ⟨origin', rfl⟩ | ⟨ofTables, rfl⟩
    · obtain ⟨inside, rfl, hinside⟩ := Value.same_table_iff.mp hsame'
      obtain rfl := List.forall₂_nil_left_iff.mp hinside
      exact Or.inl ⟨origin', rfl⟩
    · obtain ⟨items', rfl, hitems⟩ := Value.same_array_iff.mp hsame'
      obtain rfl := List.forall₂_nil_left_iff.mp hitems
      exact Or.inr ⟨ofTables, rfl⟩

end Choice

theorem placeless_readItems {α : Type} {read : Extent → Value → Except Slip α}
    (hread : Placeless read) : Placeless (readItems read) := by
  intro e e' v v' as hsame h
  unfold readItems at h
  split at h
  · rename_i ofTables items
    obtain ⟨items', rfl, hitems⟩ := Value.same_array_iff.mp hsame
    change items'.mapM (fun p => read p.1 p.2) = .ok as
    clear hsame
    induction hitems generalizing as with
    | nil => exact h
    | @cons p p' rest rest' hp _ ih =>
      rw [List.mapM_cons] at h ⊢
      obtain ⟨a, ha, h⟩ := bind_eq_ok_iff.mp h
      obtain ⟨more, hmore, h⟩ := bind_eq_ok_iff.mp h
      exact bind_eq_ok_iff.mpr ⟨a, hread hp ha, bind_eq_ok_iff.mpr ⟨more, ih hmore, h⟩⟩
  · exact absurd h mistype_ne_ok

end Toml

namespace Settings

open Toml (Placeless placeless_passOver placeless_readText placeless_readCount mistype_ne_ok)

theorem placeless_readKind : Placeless readKind :=
  Toml.placeless_readChoice

theorem placeless_readApps : Placeless readApps :=
  Toml.placeless_readItems Toml.placeless_readChoice

/-- Entries are added one by one. When related entries keep what was read related, so do all the
entries of related tables. -/
theorem foldlM_of_rel {α : Type} {add : α → String → Extent → Value → Except Slip α}
    {R : α → α → Prop} {F : String → Value → Value → Prop}
    (hadd : ∀ {d d' r : α} {key : String} {e e' : Extent} {v v' : Value}, R d d' → F key v v' →
      add d key e v = .ok r → ∃ r', add d' key e' v' = .ok r' ∧ R r r')
    {t t' : Toml.Table} (h : Toml.Table.Rel F t t') {d d' r : α} (hd : R d d')
    (hr : t.foldlM (fun d p => add d p.1 p.2.1 p.2.2) d = .ok r) :
    ∃ r', t'.foldlM (fun d p => add d p.1 p.2.1 p.2.2) d' = .ok r' ∧ R r r' := by
  induction h generalizing d d' with
  | nil =>
    obtain rfl := Except.ok.inj hr
    exact ⟨d', rfl, hd⟩
  | @cons p p' rest rest' hp _ ih =>
    obtain ⟨hkey, hvalue⟩ := hp
    rw [List.foldlM_cons] at hr
    obtain ⟨next, hnext, hr⟩ := bind_eq_ok_iff.mp hr
    obtain ⟨next', hnext', hagree⟩ :
        ∃ next', add d' p'.1 p'.2.1 p'.2.2 = .ok next' ∧ R next next' :=
      hkey ▸ hadd hd hvalue hnext
    obtain ⟨r', hr', hlast⟩ := ih hagree hr
    rw [List.foldlM_cons]
    exact ⟨r', bind_eq_ok_iff.mpr ⟨next', hnext', hr'⟩, hlast⟩

theorem foldlM_of_same {α : Type} {add : α → String → Extent → Value → Except Slip α}
    (hadd : ∀ d key, Placeless (add d key)) {t t' : Toml.Table}
    (h : Toml.Table.Rel (fun _ => Value.Same) t t') {d r : α}
    (hr : t.foldlM (fun d p => add d p.1 p.2.1 p.2.2) d = .ok r) :
    t'.foldlM (fun d p => add d p.1 p.2.1 p.2.2) d = .ok r := by
  have hsteps : ∀ {d d' r : α} {key : String} {e e' : Extent} {v v' : Value}, d = d' →
      v.Same v' → add d key e v = .ok r → ∃ r', add d' key e' v' = .ok r' ∧ r = r' := by
    rintro d d' r key e e' v v' rfl hsame h
    exact ⟨r, hadd d key hsame h, rfl⟩
  obtain ⟨r', hr', rfl⟩ := foldlM_of_rel hsteps h rfl hr
  exact hr'

/-! ### The groups of settings -/

theorem placeless_addInterface (d : InterfaceDraft) (key : String) :
    Placeless (InterfaceDraft.add d key) :=
  .ite (placeless_readKind.map _) <| .ite (placeless_readText.map _) <|
    .ite (placeless_readText.map _) <| .ite (placeless_readCount.map _) <|
      .ite (placeless_readText.map _) (placeless_passOver.map _)

theorem placeless_addRunEntry (apps : List App) (key : String) :
    Placeless (addRunEntry apps key) :=
  .ite placeless_readApps (placeless_passOver.map _)

theorem interfaceOfItems_of_same {e e' : Extent} {items items' : List (Extent × Value)}
    (h : List.Forall₂ (fun p p' => p.2.Same p'.2) items items') {r : InterfaceSettings}
    (hr : interfaceOfItems e items = .ok r) : interfaceOfItems e' items' = .ok r := by
  cases h with
  | nil => exact nomatch hr
  | cons hkind h =>
    obtain ⟨kind, hread, hr⟩ := bind_eq_ok_iff.mp hr
    refine bind_eq_ok_iff.mpr ⟨kind, placeless_readKind hkind hread, ?_⟩
    cases h with
    | nil => exact nomatch hr
    | cons hphp h =>
      obtain ⟨php, hread, hr⟩ := bind_eq_ok_iff.mp hr
      refine bind_eq_ok_iff.mpr ⟨php, placeless_readText hphp hread, ?_⟩
      cases h with
      | nil => exact nomatch hr
      | cons hroot h =>
        obtain ⟨root, hread, hr⟩ := bind_eq_ok_iff.mp hr
        refine bind_eq_ok_iff.mpr ⟨root, placeless_readText hroot hread, ?_⟩
        cases h with
        | nil => exact nomatch hr
        | cons hurl h =>
          obtain ⟨url, hread, hr⟩ := bind_eq_ok_iff.mp hr
          refine bind_eq_ok_iff.mpr ⟨url, placeless_readText hurl hread, ?_⟩
          cases h with
          | nil => exact nomatch hr
          | cons htimeout _ =>
            obtain ⟨timeout, hread, hr⟩ := bind_eq_ok_iff.mp hr
            exact bind_eq_ok_iff.mpr ⟨timeout, placeless_readCount htimeout hread, hr⟩

theorem present_eq_ok_iff {α : Type} {field : String} {e : Extent} {o : Option α} {a : α} :
    present field e o = .ok a ↔ o = some a := by
  cases o <;> simp [present, Toml.refuse]

theorem InterfaceDraft.finish_of_ok {d : InterfaceDraft} {e e' : Extent} {r : InterfaceSettings}
    (hr : d.finish e = .ok r) : d.finish e' = .ok r := by
  obtain ⟨kind, hkind, rfl⟩ := map_eq_ok_iff.mp hr
  exact map_eq_ok_iff.mpr ⟨kind, present_eq_ok_iff.mpr (present_eq_ok_iff.mp hkind), rfl⟩

theorem placeless_readInterface : Placeless readInterface := by
  intro e e' v v' r hsame h
  unfold readInterface at h
  split at h
  · obtain ⟨t', rfl, hrel⟩ := Toml.Value.same_table_iff.mp hsame
    obtain ⟨d, hd, hr⟩ := bind_eq_ok_iff.mp h
    exact bind_eq_ok_iff.mpr
      ⟨d, foldlM_of_same placeless_addInterface hrel hd, InterfaceDraft.finish_of_ok hr⟩
  · obtain rfl := hsame.eq_of_flat nofun nofun
    exact InterfaceDraft.finish_of_ok h
  · obtain ⟨items', rfl, hitems⟩ := Toml.Value.same_array_iff.mp hsame
    exact interfaceOfItems_of_same hitems h
  · exact absurd h mistype_ne_ok

theorem placeless_readRun : Placeless readRun := by
  intro e e' v v' apps hsame h
  unfold readRun at h
  split at h
  · obtain ⟨t', rfl, hrel⟩ := Toml.Value.same_table_iff.mp hsame
    exact foldlM_of_same placeless_addRunEntry hrel h
  · obtain rfl := hsame.eq_of_flat nofun nofun
    exact h
  · obtain ⟨items', rfl, hitems⟩ := Toml.Value.same_array_iff.mp hsame
    obtain rfl := List.forall₂_nil_left_iff.mp hitems
    exact h
  · obtain ⟨items', rfl, hitems⟩ := Toml.Value.same_array_iff.mp hsame
    obtain ⟨p', rest', hp, -, rfl⟩ := List.forall₂_cons_left_iff.mp hitems
    exact placeless_readApps hp h
  · exact absurd h mistype_ne_ok

/-! ### The password -/

/-- The settings with another password. -/
def withPassword (s : Settings) (w : String) : Settings :=
  { s with accounts := { s.accounts with password := w } }

def AccountsDraft.withPassword (d : AccountsDraft) (w : String) : AccountsDraft :=
  { d with password := d.password.map fun _ => w }

def Draft.withPassword (d : Draft) (w : String) : Draft :=
  { d with accounts := d.accounts.map fun c => { c with password := w } }

section Password

variable {w : String}

/-- The text that is exchanged is the password of the administrator. -/
theorem addAccounts_of_agree {d r : AccountsDraft} {key : String} {e e' : Extent} {v v' : Value}
    (hv : v.Agree w (Toml.Spot.under (some ["admin_password"]) key) v')
    (hr : d.add key e v = .ok r) :
    (d.withPassword w).add key e' v' = .ok (r.withPassword w) := by
  rw [Toml.Spot.under_cons] at hv
  unfold AccountsDraft.add at hr ⊢
  by_cases hpassword : key = "admin_password"
  · rw [if_pos hpassword] at hv hr ⊢
    obtain ⟨⟨s, rfl⟩, rfl⟩ := hv
    obtain rfl := Except.ok.inj hr
    rfl
  · rw [if_neg hpassword] at hv hr ⊢
    by_cases husername : key = "admin_username"
    · rw [if_pos husername] at hr ⊢
      obtain ⟨username, hread, rfl⟩ := map_eq_ok_iff.mp hr
      exact map_eq_ok_iff.mpr ⟨username, placeless_readText hv hread, rfl⟩
    · rw [if_neg husername] at hr ⊢
      obtain ⟨u, hpass, rfl⟩ := map_eq_ok_iff.mp hr
      exact map_eq_ok_iff.mpr ⟨u, placeless_passOver hv hpass, rfl⟩

theorem AccountsDraft.finish_of_ok {d : AccountsDraft} {e e' : Extent} {c : Credentials}
    (hc : d.finish e = .ok c) : (d.withPassword w).finish e' = .ok { c with password := w } := by
  obtain ⟨username, husername, hc⟩ := bind_eq_ok_iff.mp hc
  obtain ⟨password, hpassword, hc⟩ := bind_eq_ok_iff.mp hc
  obtain rfl := Except.ok.inj hc
  have hw : (d.withPassword w).password = some w := by
    rw [AccountsDraft.withPassword, present_eq_ok_iff.mp hpassword, Option.map_some]
  exact bind_eq_ok_iff.mpr ⟨username, present_eq_ok_iff.mpr (present_eq_ok_iff.mp husername),
    bind_eq_ok_iff.mpr ⟨w, present_eq_ok_iff.mpr hw, rfl⟩⟩

theorem readAccounts_of_agree {e e' : Extent} {v v' : Value} {c : Credentials}
    (hv : v.Agree w (some ["admin_password"]) v') (hc : readAccounts e v = .ok c) :
    readAccounts e' v' = .ok { c with password := w } := by
  obtain ⟨origin, t, rfl⟩ : ∃ origin t, v = .table origin t := by
    obtain ⟨origin, t, -, hv, -⟩ := hv
    exact ⟨origin, t, hv⟩
  obtain ⟨t', rfl, hagree⟩ := Toml.Value.agree_table_iff.mp hv
  obtain ⟨d, hd, hc⟩ := bind_eq_ok_iff.mp hc
  obtain ⟨d', hd', rfl⟩ := foldlM_of_rel (R := fun d d' : AccountsDraft => d.withPassword w = d')
    (fun hR hF hr => hR ▸ ⟨_, addAccounts_of_agree hF hr, rfl⟩) hagree.rel rfl hd
  exact bind_eq_ok_iff.mpr ⟨_, hd', AccountsDraft.finish_of_ok hc⟩

theorem add_of_agree {d r : Draft} {key : String} {e e' : Extent} {v v' : Value}
    (hv : v.Agree w (Toml.Spot.under (some ["accounts", "admin_password"]) key) v')
    (hr : d.add key e v = .ok r) : (d.withPassword w).add key e' v' = .ok (r.withPassword w) := by
  rw [Toml.Spot.under_cons] at hv
  unfold Draft.add at hr ⊢
  by_cases haccounts : key = "accounts"
  · rw [if_pos haccounts] at hv hr ⊢
    obtain ⟨c, hread, rfl⟩ := map_eq_ok_iff.mp hr
    exact map_eq_ok_iff.mpr ⟨_, readAccounts_of_agree hv hread, rfl⟩
  rw [if_neg haccounts] at hv hr ⊢
  by_cases hinterface : key = "interface"
  · rw [if_pos hinterface] at hr ⊢
    obtain ⟨interface, hread, rfl⟩ := map_eq_ok_iff.mp hr
    exact map_eq_ok_iff.mpr ⟨interface, placeless_readInterface hv hread, rfl⟩
  rw [if_neg hinterface] at hr ⊢
  by_cases hrun : key = "run"
  · rw [if_pos hrun] at hr ⊢
    obtain ⟨apps, hread, rfl⟩ := map_eq_ok_iff.mp hr
    exact map_eq_ok_iff.mpr ⟨apps, placeless_readRun hv hread, rfl⟩
  · rw [if_neg hrun] at hr ⊢
    obtain ⟨u, hpass, rfl⟩ := map_eq_ok_iff.mp hr
    exact map_eq_ok_iff.mpr ⟨u, placeless_passOver hv hpass, rfl⟩

/-- Tables that agree but for the password of the administrator give settings that do so. -/
theorem ofTable_of_agree {t t' : Toml.Table} {e e' : Extent} {s : Settings}
    (ht : Toml.Table.Agree w (some ["accounts", "admin_password"]) t t')
    (hs : ofTable e t = .ok s) : ofTable e' t' = .ok (s.withPassword w) := by
  obtain ⟨d, hd, hs⟩ := bind_eq_ok_iff.mp hs
  obtain ⟨d', hd', rfl⟩ := foldlM_of_rel (R := fun d d' : Draft => d.withPassword w = d')
    (fun hR hF hr => hR ▸ ⟨_, add_of_agree hF hr, rfl⟩) ht.rel rfl hd
  obtain ⟨interface, hinterface, hs⟩ := bind_eq_ok_iff.mp hs
  obtain ⟨accounts, haccounts, hs⟩ := bind_eq_ok_iff.mp hs
  obtain rfl := Except.ok.inj hs
  have hw : (d.withPassword w).accounts = some { accounts with password := w } := by
    rw [Draft.withPassword, present_eq_ok_iff.mp haccounts, Option.map_some]
  exact bind_eq_ok_iff.mpr ⟨_, hd', bind_eq_ok_iff.mpr ⟨interface,
    present_eq_ok_iff.mpr (present_eq_ok_iff.mp hinterface),
    bind_eq_ok_iff.mpr ⟨_, present_eq_ok_iff.mpr hw, rfl⟩⟩⟩

end Password

end Settings

end Shakedown
