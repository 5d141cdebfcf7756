import Shakedown.Proofs.Registry.History
import Shakedown.Proofs.Run.Effect

/-!
# Which administrator the tests find

When every install of a run has succeeded, the administrator of `accounts` is the one that the last
case of `accounts` has asked for, and without such a case the one that was there before. No test
changes that, so all tests find the same: those of `accounts` pass for its name only, and those of
`files` send their call when there is any.
-/

namespace Shakedown

variable {μ : Type}

theorem Registry.admin_of_admin?_eq_none {r : Registry} {a : App} (hnone : r.admin? a = none) :
    r.admin a = .error (if r.contains a then .adminNotSet a.name else .appNotFound a.name) := by
  rw [admin_eq_error_iff, get_eq_error_iff]
  by_cases hcontains : r.contains a = true <;> simp [hcontains, hnone]

/-! ### The last administrator of completed installs -/

namespace Placed

section Completed

variable {servers : Base → Server} {before : List Call} {placed : List Placed}
  (hcompleted : completed (attempted servers before placed) = true)

include hcompleted

theorem exists_records {x : Placed × Answered} (hx : x ∈ attempted servers before placed)
    (happ : x.1.app = .accounts) {b : Base} (hbase : x.1.base = b) :
    ∃ admin, Records b x admin := by
  obtain ⟨e, hsuccess⟩ := Option.isSome_iff_exists.mp (List.all_eq_true.mp hcompleted x hx)
  refine ⟨Case.confirmed x.1.credentials e.appdata, recorded?_eq_some_iff.mp ?_⟩
  simp [recorded?, happ, hbase, hsuccess]

theorem mem_attempted_of_mem {p : Placed} (hp : p ∈ placed) :
    ∃ answer, (p, answer) ∈ attempted servers before placed := by
  rw [← map_fst_of_completed hcompleted] at hp
  obtain ⟨⟨_, answer⟩, hx, rfl⟩ := List.mem_map.mp hp
  exact ⟨answer, hx⟩

/-- The administrator on record has the name that the last case of `accounts` asks for. -/
theorem lastAdmin?_of_completed (hown : ∀ p ∈ placed, p.base = .own) :
    (∃ earlier last later admin, placed = earlier ++ last :: later ∧ last.app = .accounts ∧
        (∀ q ∈ later, q.app ≠ .accounts) ∧
        lastAdmin? .own (attempted servers before placed) = some admin ∧
        admin.username = last.credentials.username) ∨
      (∀ q ∈ placed, q.app ≠ .accounts) ∧
        lastAdmin? .own (attempted servers before placed) = none := by
  rcases lastAdmin?_cases .own (attempted servers before placed) with
    ⟨earlier, x, later, admin, hsplit, hrecords, hlater, hlast⟩ | ⟨hnone, hlast⟩
  · obtain ⟨happ, -, e, -, -, hname, -⟩ := hrecords
    refine Or.inl ⟨earlier.map Prod.fst, x.1, later.map Prod.fst, admin, ?_, happ, ?_, hlast, hname⟩
    · calc placed = (attempted servers before placed).map Prod.fst :=
            (map_fst_of_completed hcompleted).symm
        _ = earlier.map Prod.fst ++ x.1 :: later.map Prod.fst := by
            rw [hsplit, List.map_append, List.map_cons]
    · rw [List.forall_mem_map]
      intro y hy hyapp
      have hmem : y ∈ attempted servers before placed := by
        rw [hsplit]
        exact List.mem_append_right _ (List.mem_cons_of_mem x hy)
      obtain ⟨other, hother⟩ :=
        exists_records hcompleted hmem hyapp (hown y.1 (mem_attempted hmem).1)
      exact hlater y hy other hother
  · refine Or.inr ⟨?_, hlast⟩
    intro q hq hqapp
    obtain ⟨answer, hx⟩ := mem_attempted_of_mem hcompleted hq
    obtain ⟨admin, hrecords⟩ := exists_records hcompleted hx hqapp (hown q hq)
    exact hnone _ hx admin hrecords

end Completed

/-! ### What a case finds where it is placed -/

section Lookup

variable {registries : Base → Registry} {p : Placed} {b : Base} (hbase : p.base = b)

include hbase

theorem lookup_of_accounts (happ : p.app = .accounts) {admin : Admin}
    (hadmin : (registries b).admin .accounts = .ok admin) :
    p.lookup registries =
      if admin.username = p.credentials.username then .ok none
      else .error (Case.otherAdmin p.credentials.username admin.username) := by
  rw [lookup, hbase, happ, Case.lookup_accounts_of_admin hadmin]

theorem lookup_of_files (happ : p.app = .files) {admin : Admin}
    (hadmin : (registries b).admin .accounts = .ok admin) :
    p.lookup registries = .ok (some Call.readSettings) := by
  rw [lookup, hbase, happ, Case.lookup_files_of_admin hadmin]

theorem lookup_of_admin?_eq_none (happ : p.app = .files)
    (hnone : (registries b).admin? .accounts = none) :
    p.lookup registries =
      .error (if (registries b).contains .accounts then .adminNotSet "accounts"
        else .appNotFound "accounts") := by
  rw [lookup, hbase, happ]
  exact Case.lookup_of_error (by decide) (Registry.admin_of_admin?_eq_none hnone)

end Lookup

end Placed

/-! ### The tests of a completed run -/

namespace Suite

/-- The world in which the tests of the case at a place begin, if no install has failed. -/
def beforeTests (s : Suite μ) (w : World μ) (i : Nat) : World μ :=
  (Case.testAll (s.cases.take i) (s.installs w).2).2

/-- Behind the last case it is the world in which the run ends. -/
theorem beforeTests_length {s : Suite μ} {w : World μ}
    (hinstalls : s.installResults w = List.replicate s.cases.length (.ok ())) :
    s.beforeTests w s.cases.length = (s.run w).2 := by
  rw [run_eq, tests_of_installed hinstalls, beforeTests, List.take_length]

/-- The tests of the case at a place return a failure, and the report has it with high severity. -/
def FailsTests (s : Suite μ) (w : World μ) (i : Nat) (f : Failure) : Prop :=
  ⟨.tests, i, .error f⟩ ∈ s.invocations w ∧
    (s.run w).1.outcomes[i]? = some (.failed f.message .high)

section Completed

variable {servers : Base → Server} {placed : List Placed} {w : World μ}

theorem calls_beforeTests_succ {i : Nat} {p : Placed} (hp : placed[i]? = some p) :
    ((ofPlaced servers placed).beforeTests w (i + 1)).calls =
      ((ofPlaced servers placed).beforeTests w i).calls ++
        (p.testCall? ((ofPlaced servers placed).run w).2.registry).toList := by
  have hbefore (n : Nat) : ((ofPlaced servers placed).beforeTests w n).calls =
      ((ofPlaced servers placed).installs w).2.calls ++
        (placed.take n).filterMap
          (Placed.testCall? ((ofPlaced servers placed).run w).2.registry) := by
    have htests := (Case.testAll_placed servers (placed.take n)
      ((ofPlaced servers placed).installs w).2).2.1
    rw [(installs_placed servers placed w).2.2, ← (run_placed servers placed w).2.2,
      List.map_take] at htests
    exact htests
  rw [hbefore, hbefore, List.append_assoc, List.take_add_one, hp, List.filterMap_append]
  cases htest : p.testCall? ((ofPlaced servers placed).run w).2.registry <;> simp [htest]

/-- Whether the installs of a run all succeed can be read off its hooks. -/
theorem forall_installs_ok_iff :
    (∀ i result, ⟨.install, i, result⟩ ∈ (ofPlaced servers placed).invocations w →
        result = .ok ()) ↔
      Placed.completed (Placed.attempted servers w.calls placed) = true := by
  rw [Placed.completed_attempted_iff, ← (installs_placed servers placed w).1]
  constructor
  · intro hinstalls result hresult
    obtain ⟨i, hi⟩ := List.mem_iff_getElem?.mp hresult
    exact hinstalls i result ((mem_invocations_install _ w).mpr hi)
  · intro hall i result hinvoked
    apply hall
    exact List.mem_of_getElem? ((mem_invocations_install _ w).mp hinvoked)

variable (hinstalls : ∀ i result,
  ⟨.install, i, result⟩ ∈ (ofPlaced servers placed).invocations w → result = .ok ())

include hinstalls

theorem installResults_of_invocations :
    (ofPlaced servers placed).installResults w =
      List.replicate (ofPlaced servers placed : Suite μ).cases.length (.ok ()) := by
  rcases (ofPlaced servers placed).completed_or_aborted w with ⟨hall, -⟩ | ⟨k, f, -, hsome, -⟩
  · exact hall
  · have hmem : ((ofPlaced servers placed).installResults w)[k]? = some (.error f) := by
      simp [hsome]
    exact nomatch hinstalls k _ ((mem_invocations_install _ w).mpr hmem)

/-- The tests of each case are invoked, and their result follows from what they find in the
registries. -/
theorem exists_testResult {i : Nat} {p : Placed} (hp : placed[i]? = some p) :
    ∃ before result, result = Case.testResult (servers p.base) before
          (p.lookup ((ofPlaced servers placed).run w).2.registry) ∧
      ⟨.tests, i, result⟩ ∈ (ofPlaced servers placed).invocations w ∧
      ((ofPlaced servers placed).run w).1.outcomes[i]? = some (Outcome.ofTests result) := by
  have hcompleted := forall_installs_ok_iff.mp hinstalls
  obtain ⟨htests, -, hregistry⟩ := run_placed servers placed w
  rw [if_pos hcompleted, ← hregistry] at htests
  have hresult := Placed.getElem?_testResults servers ((ofPlaced servers placed).run w).2.registry
    (w.calls ++ (Placed.attempted servers w.calls placed).map fun x => x.1.call) placed i
  rw [← htests, hp, Option.map_some] at hresult
  refine ⟨_, _, rfl, (mem_invocations_tests _ w).mpr hresult, ?_⟩
  rw [outcomes_of_installed (installResults_of_invocations hinstalls), List.getElem?_map, hresult]
  rfl

/-- What the tests find: the administrator of the last case of `accounts`, or without such a case
what was there before. -/
theorem admin_of_run (hown : ∀ p ∈ placed, p.base = .own) :
    (∃ earlier last later admin, placed = earlier ++ last :: later ∧ last.app = .accounts ∧
        (∀ q ∈ later, q.app ≠ .accounts) ∧
        (((ofPlaced servers placed).run w).2.registry .own).admin .accounts = .ok admin ∧
        admin.username = last.credentials.username) ∨
      (∀ q ∈ placed, q.app ≠ .accounts) ∧
        (((ofPlaced servers placed).run w).2.registry .own).admin? .accounts =
          w.own.admin? .accounts ∧
        (((ofPlaced servers placed).run w).2.registry .own).contains .accounts =
          w.own.contains .accounts := by
  have hadmin := admin?_of_run servers placed w .own .accounts
  rw [if_pos rfl, World.registry_own w] at hadmin
  rcases Placed.lastAdmin?_of_completed (forall_installs_ok_iff.mp hinstalls) hown with
    ⟨earlier, last, later, admin, hsplit, happ, hlater, hlast, hname⟩ | ⟨hnone, hlast⟩
  · refine Or.inl ⟨earlier, last, later, admin, hsplit, happ, hlater, ?_, hname⟩
    rw [Registry.admin_eq_ok_iff, hadmin, hlast, Option.some_or]
  · refine Or.inr ⟨hnone, ?_, ?_⟩
    · rw [hadmin, hlast, Option.none_or]
    · rw [World.registry_own, Bool.eq_iff_iff, contains_own_of_run]
      apply or_iff_left
      rintro ⟨q, hq, hqapp⟩
      exact hnone q hq hqapp

section Place

variable {i : Nat} {p : Placed} (hp : placed[i]? = some p)

include hp

theorem passed_of_lookup
    (hlookup : p.lookup ((ofPlaced servers placed).run w).2.registry = .ok none) :
    ((ofPlaced servers placed).run w).1.outcomes[i]? = some .passed := by
  obtain ⟨before, result, hresult, -, houtcome⟩ := exists_testResult hinstalls hp
  rw [houtcome, hresult, hlookup]
  rfl

theorem failsTests_of_lookup {f : Failure}
    (hlookup : p.lookup ((ofPlaced servers placed).run w).2.registry = .error f)
    (hhigh : f.severity = .high) : (ofPlaced servers placed).FailsTests w i f := by
  obtain ⟨before, result, hresult, hinvoked, houtcome⟩ := exists_testResult hinstalls hp
  rw [hlookup] at hresult
  obtain rfl : result = .error f := hresult
  refine ⟨hinvoked, houtcome.trans ?_⟩
  rw [Outcome.ofTests, hhigh]

/-- The last case of `accounts` decides about all of them. -/
theorem accounts_of_run (hown : ∀ p ∈ placed, p.base = .own) (happ : p.app = .accounts) :
    ∃ earlier last later, placed = earlier ++ last :: later ∧ last.app = .accounts ∧
      (∀ q ∈ later, q.app ≠ .accounts) ∧
      (((ofPlaced servers placed).run w).1.outcomes[i]? = some .passed ↔
        p.credentials.username = last.credentials.username) ∧
      (p.credentials.username ≠ last.credentials.username →
        (ofPlaced servers placed).FailsTests w i
          (Case.otherAdmin p.credentials.username last.credentials.username)) := by
  have hmem := List.mem_of_getElem? hp
  rcases admin_of_run hinstalls hown with
    ⟨earlier, last, later, admin, hsplit, hlast, hlater, hadmin, hname⟩ | ⟨hnone, -, -⟩
  · have hlookup := Placed.lookup_of_accounts (hown p hmem) happ hadmin
    rw [hname] at hlookup
    have hfails (hother : p.credentials.username ≠ last.credentials.username) :=
      failsTests_of_lookup hinstalls hp (hlookup.trans (if_neg hother.symm)) rfl
    refine ⟨earlier, last, later, hsplit, hlast, hlater, ⟨?_, ?_⟩, hfails⟩
    · intro hpassed
      by_contra hother
      have hfailed := hpassed.symm.trans (hfails hother).2
      exact nomatch hfailed
    · intro hsame
      exact passed_of_lookup hinstalls hp (hlookup.trans (if_pos hsame.symm))
  · exact absurd happ (hnone p hmem)

/-- The tests of `files` send their call when there is an administrator, and else they fail. -/
theorem files_of_run (hown : ∀ p ∈ placed, p.base = .own) (happ : p.app = .files) :
    let hasAdmin := (∃ q ∈ placed, q.app = .accounts) ∨ (w.own.admin? .accounts).isSome
    let sent := (p.testCall? ((ofPlaced servers placed).run w).2.registry).toList
    (hasAdmin → sent = [Call.readSettings]) ∧
      (¬hasAdmin → sent = [] ∧ (ofPlaced servers placed).FailsTests w i
        (if w.own.contains .accounts then .adminNotSet "accounts"
          else .appNotFound "accounts")) := by
  intro hasAdmin sent
  have hbase := hown p (List.mem_of_getElem? hp)
  have hsends {admin : Admin}
      (hadmin : (((ofPlaced servers placed).run w).2.registry .own).admin .accounts = .ok admin) :
      sent = [Call.readSettings] := by
    have hlookup := Placed.lookup_of_files hbase happ hadmin
    simp [sent, Placed.testCall?, hlookup, Case.callOf]
  rcases admin_of_run hinstalls hown with
    ⟨earlier, last, later, admin, hsplit, hlast, -, hadmin, -⟩ | ⟨hnone, hkept, hcontains⟩
  · have hmem : last ∈ placed := by
      rw [hsplit]
      exact List.mem_append_right _ List.mem_cons_self
    exact ⟨fun _ => hsends hadmin, fun hno => absurd (Or.inl ⟨last, hmem, hlast⟩) hno⟩
  · cases hbefore : w.own.admin? .accounts with
    | some admin =>
      rw [hbefore, ← Registry.admin_eq_ok_iff] at hkept
      exact ⟨fun _ => hsends hkept, fun hno => absurd (Or.inr (by simp [hbefore])) hno⟩
    | none =>
      rw [hbefore] at hkept
      have hlookup := Placed.lookup_of_admin?_eq_none hbase happ hkept
      rw [hcontains] at hlookup
      refine ⟨?_, fun _ => ⟨?_, ?_⟩⟩
      · rintro (⟨q, hq, hqapp⟩ | hsome)
        · exact absurd hqapp (hnone q hq)
        · simp [hbefore] at hsome
      · simp [sent, Placed.testCall?, hlookup, Case.callOf]
      · apply failsTests_of_lookup hinstalls hp hlookup
        split <;> rfl

end Place

end Completed

/-- When no install fails, the tests of `accounts` pass just where the last administrator is the
own one. -/
theorem admins_of_run (servers : Base → Server) (placed : List Placed) (w : World μ)
    (hown : ∀ p ∈ placed, p.base = .own)
    (hinstalls : ∀ i result,
      ⟨.install, i, result⟩ ∈ (ofPlaced servers placed).invocations w → result = .ok ()) :
    let s : Suite μ := ofPlaced servers placed
    s.beforeTests w placed.length = (s.run w).2 ∧
      ∀ (i : Nat) (p : Placed), placed[i]? = some p →
        ∃ sent, (s.beforeTests w (i + 1)).calls = (s.beforeTests w i).calls ++ sent ∧
          (p.app = .accounts → ∃ earlier last later,
            placed = earlier ++ last :: later ∧ last.app = .accounts ∧
              (∀ q ∈ later, q.app ≠ .accounts) ∧
              ((s.run w).1.outcomes[i]? = some .passed ↔
                p.credentials.username = last.credentials.username) ∧
              (p.credentials.username ≠ last.credentials.username →
                s.FailsTests w i (.unexpected "accounts" "install" 200
                  ("expected admin " ++ p.credentials.username ++ " but registry holds " ++
                    last.credentials.username)))) ∧
          (p.app = .files →
            let hasAdmin := (∃ q ∈ placed, q.app = .accounts) ∨ (w.own.admin? .accounts).isSome
            (sent = [Call.readSettings] ↔ hasAdmin) ∧
              (¬hasAdmin → sent = [] ∧ s.FailsTests w i
                (if w.own.contains .accounts then .adminNotSet "accounts"
                  else .appNotFound "accounts"))) := by
  intro s
  have hall := installResults_of_invocations hinstalls
  refine ⟨?_, fun i p hp => ⟨_, calls_beforeTests_succ hp, accounts_of_run hinstalls hp hown, ?_⟩⟩
  · rw [← beforeTests_length hall]
    simp [s, ofPlaced]
  · intro happ hasAdmin
    obtain ⟨hsends, hfails⟩ := files_of_run hinstalls hp hown happ
    refine ⟨⟨?_, hsends⟩, hfails⟩
    intro hsent
    by_contra hno
    rw [(hfails hno).1] at hsent
    exact nomatch hsent

/-- Of two cases of `accounts` with different names the second one passes and the first one does
not, and `files` goes on. -/
theorem admins_of_run_two_accounts :
    let servers : Base → Server := fun _ _ _ => { result := .ok (.success .null) }
    let placed : List Placed :=
      [⟨.accounts, .own, ⟨"a", "x"⟩⟩, ⟨.accounts, .own, ⟨"b", "y"⟩⟩, ⟨.files, .own, ⟨"a", "x"⟩⟩]
    let w : World Unit := World.start Registry.empty ()
    let s : Suite Unit := ofPlaced servers placed
    (∀ p ∈ placed, p.base = .own) ∧
      (∀ i result, ⟨.install, i, result⟩ ∈ s.invocations w → result = .ok ()) ∧
      s.FailsTests w 0
        (.unexpected "accounts" "install" 200 "expected admin a but registry holds b") ∧
      (s.run w).1.outcomes[1]? = some .passed ∧
      (s.beforeTests w 3).calls = (s.beforeTests w 2).calls ++ [Call.readSettings] := by
  intro servers placed w s
  have hown : ∀ p ∈ placed, p.base = .own := by decide
  have hinstalls : ∀ i result, ⟨.install, i, result⟩ ∈ s.invocations w → result = .ok () :=
    forall_installs_ok_iff.mpr (by decide +kernel)
  have hlast (earlier later : List Placed) (last : Placed)
      (hsplit : placed = earlier ++ last :: later) (happ : last.app = .accounts)
      (hlater : ∀ q ∈ later, q.app ≠ .accounts) : last.credentials.username = "b" := by
    have hnone : later.reverse.find? (fun p => p.app = .accounts) = none := by
      simpa using hlater
    have hfound : placed.reverse.find? (fun p => p.app = .accounts) = some last := by
      rw [hsplit]
      simp [hnone, happ]
    obtain rfl : ⟨.accounts, .own, ⟨"b", "y"⟩⟩ = last := Option.some.inj hfound
    rfl
  obtain ⟨-, hcases⟩ := admins_of_run servers placed w hown hinstalls
  obtain ⟨-, -, hfirst, -⟩ := hcases 0 _ rfl
  obtain ⟨-, -, hsecond, -⟩ := hcases 1 _ rfl
  obtain ⟨sent, hcalls, -, hfiles⟩ := hcases 2 _ rfl
  obtain ⟨earlier, last, later, hsplit, happ, hlater, -, hfails⟩ := hfirst rfl
  have hname := hlast earlier later last hsplit happ hlater
  refine ⟨hown, hinstalls, ?_, ?_, ?_⟩
  · rw [hname] at hfails
    exact hfails (by decide)
  · obtain ⟨earlier, last, later, hsplit, happ, hlater, hpassed, -⟩ := hsecond rfl
    exact hpassed.mpr (hlast earlier later last hsplit happ hlater).symm
  · rw [hcalls, (hfiles rfl).1.mpr (Or.inl ⟨_, List.mem_cons_self, rfl⟩)]

end Suite

end Shakedown
