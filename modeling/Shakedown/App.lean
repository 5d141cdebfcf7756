import Shakedown.Text.Blank

/-!
The apps under test.

A server is made of apps that need one another. The order of the constructors is the order of
installation: an app comes after everything it needs.
-/

namespace Shakedown

inductive App where
  | core
  | accounts
  | files
  deriving DecidableEq, Inhabited

namespace App

/-- Every app, in install order. -/
def all : List App := [core, accounts, files]

def rank : App → Nat
  | core => 0
  | accounts => 1
  | files => 2

/-- The exact name, as a server and a settings file spell it. -/
def name : App → String
  | core => "core"
  | accounts => "accounts"
  | files => "files"

def title : App → String
  | core => "Core"
  | accounts => "Accounts"
  | files => "Files"

/-- What has to be installed before an app. -/
def needs : App → List App
  | core => []
  | accounts => [core]
  | files => [core, accounts]

/-- The given apps in install order, each of them once. -/
def inInstallOrder (apps : List App) : List App :=
  (apps.mergeSort fun a b => a.rank ≤ b.rank).eraseReps

def ofName? (s : String) : Option App :=
  all.find? fun a => a.name == s

/-- Reads a name with blanks around it and in any ASCII case. -/
def ofText? (s : String) : Option App :=
  ofName? (String.ofList ((Text.trimChars s.toList).map Char.toLower))

theorem mem_all (a : App) : a ∈ all := by
  cases a <;> decide

theorem name_injective {a b : App} (h : a.name = b.name) : a = b := by
  revert h
  cases a <;> cases b <;> decide

theorem rank_injective {a b : App} (h : a.rank = b.rank) : a = b := by
  revert h
  cases a <;> cases b <;> decide

theorem ofName?_eq_some_iff {s : String} {a : App} : ofName? s = some a ↔ s = a.name := by
  constructor
  · intro h
    exact (eq_of_beq (by simpa using List.find?_some h)).symm
  · rintro rfl
    cases a <;> decide

theorem rank_lt_of_mem_needs {a b : App} (h : b ∈ a.needs) : b.rank < a.rank := by
  revert h
  cases a <;> cases b <;> decide

end App

end Shakedown
