/-!
Placeholders for values of the environment.

A placeholder is `${name}`, where the name is everything up to the first closing brace and has at
least one character. Text is searched from left to right, and behind a placeholder the search goes
on with what follows it.
-/

namespace Shakedown

/-- The value of each variable that is set. -/
abbrev Environment := String → Option String

namespace Environment

/-- The environment with the given entries, each the text `key=value`. A variable is set by the
first entry that starts with its name and an equals sign. -/
def ofList (entries : List (String × String)) : Environment :=
  fun name =>
    if name = "" ∨ name.toList.contains '\x00' then none
    else
      let start := name.toList ++ ['=']
      (entries.find? fun p => start.isPrefixOf (p.1.toList ++ '=' :: p.2.toList)).map fun p =>
        String.ofList ((p.1.toList ++ '=' :: p.2.toList).drop start.length)

end Environment

namespace Placeholder

inductive Piece where
  | literal (c : Char)
  | variable_ (name : List Char)
  deriving DecidableEq

def Piece.chars : Piece → List Char
  | literal c => [c]
  | variable_ name => '$' :: '{' :: name ++ ['}']

/-- The name of the placeholder that a text begins with. -/
def nameAt? : List Char → Option (List Char)
  | '$' :: '{' :: rest =>
    let name := rest.takeWhile (· ≠ '}')
    if name ≠ [] ∧ rest.drop name.length ≠ [] then some name else none
  | _ => none

/-- The parts of a text behind its first `skip` characters. -/
def piecesFrom : Nat → List Char → List Piece
  | _, [] => []
  | skip + 1, _ :: rest => piecesFrom skip rest
  | 0, c :: rest =>
    match nameAt? (c :: rest) with
    | some name => .variable_ name :: piecesFrom (name.length + 2) rest
    | none => .literal c :: piecesFrom 0 rest

def pieces (cs : List Char) : List Piece :=
  piecesFrom 0 cs

/-- The text that stands for a part; an unset variable stands for its placeholder. -/
def Piece.resolve (env : Environment) : Piece → List Char
  | literal c => [c]
  | p@(variable_ name) =>
    match env (String.ofList name) with
    | some value => value.toList
    | none => p.chars

def substitute (env : Environment) (cs : List Char) : List Char :=
  (pieces cs).flatMap (Piece.resolve env)

def names (cs : List Char) : List (List Char) :=
  (pieces cs).filterMap fun p =>
    match p with
    | .literal _ => none
    | .variable_ name => some name

/-- The first placeholder of a variable that is not set. -/
def firstUnset? (env : Environment) (cs : List Char) : Option (List Char) :=
  (names cs).find? fun name => (env (String.ofList name)).isNone

end Placeholder

end Shakedown
