import Shakedown.Proofs.Entries.Reading
import Shakedown.Transport.Shell

/-!
# The arguments of a program

A call is written as arguments in one way only, and can be read back from them by their places: it
does not matter what the keys and values look like, since none of them is searched for.
-/

namespace Shakedown

/-- The call with more parameters, given one after the other. -/
def Call.withParams (c : Call) (params : List (String × String)) : Call :=
  params.foldl (fun c p => c.withParam p.1 p.2) c

theorem Call.withParams_eq (c : Call) (params : List (String × String)) :
    c.withParams params =
      { c with params := params.foldl (fun e p => e.put p.1 p.2) c.params } := by
  induction params generalizing c with
  | nil => rfl
  | cons p rest ih => exact ih (c.withParam p.1 p.2)

namespace Shell

/-- The parameters in a list of options, each of two dashes with a key and followed by a value. -/
def readOptions : List String → List (String × String)
  | option :: value :: rest => (String.ofList (option.toList.drop 2), value) :: readOptions rest
  | _ => []

/-- Reads app, action and parameters by their places behind the script and the request for JSON. -/
def readArguments : List String → Option (String × String × List (String × String))
  | _ :: _ :: app :: action :: options => some (app, action, readOptions options)
  | _ => none

theorem readOptions_options (params : List (String × String)) :
    readOptions (params.flatMap fun p => ["--" ++ p.1, p.2]) = params := by
  induction params with
  | nil => rfl
  | cons p rest ih =>
    have hkey : String.ofList (("--" ++ p.1).toList.drop 2) = p.1 := by
      rw [String.toList_append]
      exact String.ofList_toList
    calc
      readOptions ((p :: rest).flatMap fun p => ["--" ++ p.1, p.2]) =
          (String.ofList (("--" ++ p.1).toList.drop 2), p.2) ::
            readOptions (rest.flatMap fun p => ["--" ++ p.1, p.2]) := rfl
      _ = p :: rest := by rw [hkey, ih]

variable (s : Shell)

theorem readArguments_arguments (call : Call) :
    readArguments (s.arguments call) = some (call.app, call.action, call.params.toList) :=
  congrArg (fun params => some (call.app, call.action, params))
    (readOptions_options call.params.toList)

theorem arguments_injective : Function.Injective s.arguments := by
  intro call call' heq
  have hread := congrArg readArguments heq
  rw [readArguments_arguments, readArguments_arguments] at hread
  obtain ⟨happ, hrest⟩ := Prod.mk.inj (Option.some.inj hread)
  obtain ⟨haction, hparams⟩ := Prod.mk.inj hrest
  obtain ⟨app, action, ⟨params, hsorted⟩⟩ := call
  obtain ⟨app', action', ⟨params', hsorted'⟩⟩ := call'
  cases happ
  cases haction
  cases hparams
  rfl

/-- Parameters stand in the order of their keys, each once with its last value, and can be read
back. -/
theorem arguments_of_params (app action : String) (params : List (String × String)) :
    (∃ pairs : List (String × String),
      s.arguments (Call.withParams ⟨app, action, Entries.empty⟩ params) =
          scriptPath s.root :: "--json" :: app :: action ::
            pairs.flatMap (fun p => ["--" ++ p.1, p.2]) ∧
        (pairs.Pairwise fun p q => p.1 < q.1) ∧
        ∀ key value, (key, value) ∈ pairs ↔ lastValue? key params = some value) ∧
      (∀ call : Call,
        readArguments (s.arguments call) = some (call.app, call.action, call.params.toList)) ∧
      Function.Injective s.arguments ∧
      ∀ app' action' params',
        s.arguments (Call.withParams ⟨app', action', Entries.empty⟩ params') =
            s.arguments (Call.withParams ⟨app, action, Entries.empty⟩ params) ↔
          app' = app ∧ action' = action ∧
            ∀ key, lastValue? key params' = lastValue? key params := by
  have hlast (params : List (String × String)) (key : String) :
      (params.foldl (fun e p => e.put p.1 p.2) Entries.empty).get? key =
        lastValue? key params := by
    rw [Entries.get?_putAll]
    exact Option.or_none
  refine ⟨?_, s.readArguments_arguments, s.arguments_injective, fun app' action' params' => ?_⟩
  · rw [Call.withParams_eq]
    refine ⟨_, rfl, Entries.sorted _, fun key value => ?_⟩
    rw [← Entries.get?_eq_some_iff, hlast]
  · rw [s.arguments_injective.eq_iff, Call.withParams_eq, Call.withParams_eq]
    constructor
    · intro heq
      obtain ⟨happ, haction, hparams⟩ := Call.mk.inj heq
      refine ⟨happ, haction, fun key => ?_⟩
      rw [← hlast, ← hlast, hparams]
    · rintro ⟨rfl, rfl, hvalues⟩
      congr 1
      apply Entries.ext_get?
      intro key
      rw [hlast, hlast, hvalues]

/-- A value that looks like an option, and a key that is given twice. -/
example :
    (Shell.mk "php" "/srv" 5000).arguments
        (Call.withParams ⟨"core", "install", Entries.empty⟩
          [("b", ""), ("a", "--b"), ("b", "--json")]) =
      ["/srv/index.php", "--json", "core", "install", "--a", "--b", "--b", "--json"] := by
  decide

end Shell

end Shakedown
