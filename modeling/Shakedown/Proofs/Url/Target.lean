import Mathlib.Data.List.TakeWhile
import Shakedown.Proofs.Result
import Shakedown.Proofs.Url.Form
import Shakedown.Url.Reader

/-!
# The target of a URL

A question mark begins the query of a target: the path in front of it never holds one, since the
reader ends the path there and encodes what is left. A URL with a special scheme names a host.
-/

namespace Shakedown.Url

/-- What stands behind the first question mark of a target. -/
def queryOfTarget (target : List Char) : List Char :=
  (target.dropWhile (· ≠ '?')).drop 1

/-! ### Paths -/

theorem question_notMem_percentByte (b : UInt8) : '?' ∉ percentByte b := by
  have hdigit {n : Nat} (hn : n < 16) : '?' ≠ (Nat.digitChar n).toUpper := by
    intro heq
    have hvalue := (hexValue?_digit hn).1
    rw [← heq] at hvalue
    exact nomatch hvalue
  have hhigh := hdigit (n := b.toNat / 16) (by have := b.toNat_lt; omega)
  have hlow := hdigit (n := b.toNat % 16) (by omega)
  simp [percentByte, Text.twoHexDigits, hhigh, hlow]

theorem question_notMem_percentEncode {also cs : List Char} (h : '?' ∈ also ∨ '?' ∉ cs) :
    '?' ∉ percentEncode also cs := by
  intro hmem
  obtain ⟨c, hc, hmem⟩ := List.mem_flatMap.mp hmem
  split at hmem
  · obtain ⟨b, -, hb⟩ := List.mem_flatMap.mp hmem
    exact question_notMem_percentByte b hb
  · rename_i hplain
    obtain rfl := List.mem_singleton.mp hmem
    rcases h with halso | hcs
    · exact hplain (.inr (.inr halso))
    · exact hcs hc

theorem question_notMem_resolve {done : List (List Char)} (hdone : ∀ s ∈ done, '?' ∉ s)
    (pieces : List (List Char)) : ∀ s ∈ resolve done pieces, '?' ∉ s := by
  have hempty : '?' ∉ ([] : List Char) := List.not_mem_nil
  have hconcat {done : List (List Char)} {s : List Char} (hdone : ∀ s ∈ done, '?' ∉ s)
      (hs : '?' ∉ s) : ∀ t ∈ done ++ [s], '?' ∉ t := by
    rw [List.forall_mem_append, List.forall_mem_singleton]
    exact ⟨hdone, hs⟩
  induction pieces generalizing done with
  | nil => exact hdone
  | cons piece rest ih =>
    have hbefore : ∀ s ∈ done.dropLast, '?' ∉ s := fun s hs =>
      hdone s ((List.dropLast_sublist done).subset hs)
    rw [resolve]
    split
    · apply ih
      split
      · exact hconcat hbefore hempty
      · exact hbefore
    · split
      · apply ih
        split
        · exact hconcat hdone hempty
        · exact hdone
      · apply ih
        exact hconcat hdone (question_notMem_percentEncode (.inl (by decide)))

theorem path_readTail (special : Bool) (u : Url) (cs : List Char) :
    (readTail special u cs).path = u.path := rfl

theorem question_notMem_readPath (special : Bool) (u : Url) (cs : List Char) :
    '?' ∉ (readPath special u cs).path.chars := by
  intro hmem
  unfold readPath at hmem
  rw [path_readTail] at hmem
  obtain ⟨segment, hsegment, hmem⟩ := List.mem_flatMap.mp hmem
  rcases List.mem_cons.mp hmem with heq | hmem
  · exact absurd heq (by decide)
  split at hsegment
  · split at hsegment
    · rw [List.mem_singleton.mp hsegment] at hmem
      exact nomatch hmem
    · exact nomatch hsegment
  · exact question_notMem_resolve (List.forall_mem_nil _) _ segment hsegment hmem

/-! ### Hosts -/

theorem bracketed?_ne {cs name : List Char} : bracketed? cs ≠ some (.ok (.name name)) := by
  unfold bracketed?
  split
  · split
    · split <;> exact nofun
    · exact nofun
  · exact nofun

theorem domainHost_ne_empty {cs : List Char} : domainHost cs ≠ .ok (.name []) := by
  intro h
  unfold domainHost at h
  split at h
  · rename_i hbracketed
    exact bracketed?_ne (h ▸ hbracketed)
  · split at h
    · exact nomatch h
    · exact nomatch h
    · rename_i name hname _
      split at h
      · split at h <;> exact nomatch h
      · exact hname (Host.name.inj (Except.ok.inj h))

/-! ### Reading -/

/-- What the reader of an authority passes on to the reader of the path. -/
structure Authority (scheme : List Char) (u : Url) : Prop where
  scheme_eq : u.scheme = scheme
  host : ∃ host, u.host = some host ∧ (isSpecial scheme = true → host ≠ .name [])
  question_notMem : '?' ∉ u.path.chars

theorem authority_of_readAuthority {scheme cs : List Char} {u : Url}
    (h : readAuthority scheme cs = .ok u) : Authority scheme u := by
  unfold readAuthority at h
  extract_lets special at h
  generalize splitUser special cs = parts at h
  obtain ⟨user, behind⟩ := parts
  dsimp -zeta only at h
  extract_lets n rest afterHost afterLength afterUser at h
  clear_value rest
  -- from the host on, nothing but the port can be refused
  have hhost (host : Host) (hname : special = true → host ≠ .name [])
      (hok : afterHost host = .ok u) : Authority scheme u := by
    dsimp -zeta only [afterHost] at hok
    extract_lets v withPort afterPort at hok
    have hport (hok : afterPort () = .ok u) :
        ∃ port rest, readPath special { v with port := port } rest = u := by
      dsimp -zeta only [afterPort] at hok
      split at hok
      · obtain ⟨⟨port, rest⟩, -, hok⟩ := bind_eq_ok_iff.mp hok
        exact ⟨port, rest, Except.ok.inj hok⟩
      · exact ⟨none, _, Except.ok.inj hok⟩
    split at hok
    · exact nomatch hok
    · obtain ⟨port, rest, rfl⟩ := hport hok
      exact ⟨rfl, ⟨host, rfl, hname⟩, question_notMem_readPath _ _ _⟩
  have hlength (hok : afterLength () = .ok u) : Authority scheme u := by
    dsimp -zeta only [afterLength] at hok
    split at hok
    · obtain ⟨host, hread, hok⟩ := bind_eq_ok_iff.mp hok
      exact hhost host (fun _ heq => domainHost_ne_empty (heq ▸ hread)) hok
    · rename_i hspecial
      obtain ⟨host, -, hok⟩ := bind_eq_ok_iff.mp hok
      exact hhost host (fun h => absurd h hspecial) hok
  split at h
  · exact nomatch h
  · dsimp -zeta only [afterUser] at h
    split at h
    · exact nomatch h
    · exact hlength h

theorem file_of_readFile {cs : List Char} {u : Url} (h : readFile cs = .ok u) :
    '?' ∉ u.path.chars ∧ u.scheme = "file".toList := by
  have hpath {v : Url} {rest : List Char} (hscheme : v.scheme = "file".toList)
      (hok : (pure (readPath true v rest) : Except Fault Url) = .ok u) :
      '?' ∉ u.path.chars ∧ u.scheme = "file".toList := by
    obtain rfl := Except.ok.inj hok
    exact ⟨question_notMem_readPath _ _ _, hscheme⟩
  unfold readFile at h
  extract_lets isSlash v at h
  split at h
  · split at h
    · generalize splitBefore (endsAuthority true) _ = parts at h
      obtain ⟨name, rest⟩ := parts
      dsimp -zeta only at h
      extract_lets afterHost at h
      have hhost (host : Host) (hok : afterHost host = .ok u) :
          '?' ∉ u.path.chars ∧ u.scheme = "file".toList := hpath rfl hok
      split at h
      · exact hhost (.name []) h
      · obtain ⟨host, -, h⟩ := bind_eq_ok_iff.mp h
        exact hhost host h
    · exact hpath rfl h
  · exact hpath rfl h

/-- The path of a URL that was read holds no question mark. -/
theorem question_notMem_path {cs : List Char} {u : Url} (h : ofChars? cs = .ok u) :
    '?' ∉ u.path.chars := by
  unfold ofChars? at h
  split at h
  · exact nomatch h
  split at h
  · exact (file_of_readFile h).1
  split at h
  · exact (authority_of_readAuthority h).question_notMem
  split at h
  · exact (authority_of_readAuthority h).question_notMem
  · obtain rfl := Except.ok.inj h
    exact question_notMem_readPath _ _ _
  · obtain rfl := Except.ok.inj h
    rw [path_readTail]
    refine question_notMem_percentEncode (.inr fun hmem => ?_)
    have hbefore := List.mem_takeWhile_imp hmem
    exact absurd hbefore (by decide)

/-- A URL with a special scheme names a host, unless it is the URL of a file. -/
theorem hasHost_of_isSpecial {cs : List Char} {u : Url} (h : ofChars? cs = .ok u)
    (hspecial : isSpecial u.scheme = true) (hfile : u.scheme ≠ "file".toList) :
    u.hasHost = true := by
  have hhost {scheme : List Char} (hauthority : Authority scheme u) : u.hasHost = true := by
    obtain ⟨host, heq, hname⟩ := hauthority.host
    have hne : host ≠ .name [] := hname (hauthority.scheme_eq ▸ hspecial)
    unfold hasHost
    rw [heq]
    split
    · rename_i hempty
      exact absurd (Option.some.inj hempty) hne
    · exact absurd ‹_› (Option.some_ne_none host)
    · rfl
  unfold ofChars? at h
  split at h
  · exact nomatch h
  split at h
  · exact absurd (file_of_readFile h).2 hfile
  split at h
  · exact hhost (authority_of_readAuthority h)
  rename_i hplain
  split at h
  · exact hhost (authority_of_readAuthority h)
  · obtain rfl := Except.ok.inj h
    exact absurd hspecial hplain
  · obtain rfl := Except.ok.inj h
    exact absurd hspecial hplain

/-! ### Targets -/

theorem queryOfTarget_target {u : Url} (hpath : '?' ∉ u.path.chars) {query : List Char}
    (hquery : u.query = some query) : queryOfTarget u.target = query := by
  have hbefore : ∀ c ∈ u.path.chars, decide (c ≠ '?') = true := by
    intro c hc
    refine decide_eq_true ?_
    rintro rfl
    exact hpath hc
  unfold queryOfTarget target queryChars
  rw [hquery, List.dropWhile_append_of_pos hbefore, List.dropWhile_cons_of_neg (by decide)]
  rfl

end Shakedown.Url
