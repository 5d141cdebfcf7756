/-!
The statements of a TOML document, as they are written.

Reading statements settles where keys and values begin and end. What a key or a scalar stands for,
and whether a key is taken already, is settled later, statement by statement.
-/

namespace Shakedown.Toml

/-- A stretch of a document, by the number of characters that are left at its start and end. -/
structure Extent where
  before : Nat
  after : Nat
  deriving DecidableEq, Inhabited

structure Key where
  chars : List Char
  extent : Extent
  deriving DecidableEq, Inhabited

inductive Written where
  | scalar (chars : List Char) (extent : Extent)
  | array (items : List Written) (extent : Extent)
  | table (entries : List (List Key × Written)) (extent : Extent)

def Written.extent : Written → Extent
  | scalar _ extent | array _ extent | table _ extent => extent

inductive Statement where
  | header (ofArray : Bool) (path : List Key) (extent : Extent)
  | pair (path : List Key) (value : Written)

/-! ### Blanks, line breaks and comments -/

def isSpace (c : Char) : Bool :=
  c = ' ' || c = '\t'

def skipSpace (cs : List Char) : List Char :=
  cs.dropWhile isSpace

/-- A character that may stand in a comment or a text without an escape. -/
def isVisible (c : Char) : Bool :=
  c = '\t' || (0x20 ≤ c.toNat && c.toNat ≠ 0x7F)

def lineBreak? : List Char → Option (List Char)
  | '\n' :: rest | '\r' :: '\n' :: rest => some rest
  | _ => none

/-- Passes over a comment behind its mark, up to the line break. -/
def skipComment? (cs : List Char) : Option (List Char) :=
  let rest := cs.dropWhile isVisible
  if rest.isEmpty ∨ (lineBreak? rest).isSome then some rest else none

/-- Passes over what may follow a statement in its line, and the line break. -/
def endLine? (cs : List Char) : Option (List Char) :=
  let cs := skipSpace cs
  let rest := match cs with
    | '#' :: rest => skipComment? rest
    | _ => some cs
  match rest with
  | some [] => some []
  | some rest => lineBreak? rest
  | none => none

/-- Passes over blanks, line breaks and comments, in at most `fuel` steps. -/
def skipLines? : Nat → List Char → Option (List Char)
  | 0, _ => none
  | fuel + 1, cs =>
    match skipSpace cs with
    | '#' :: rest => (skipComment? rest).bind (skipLines? fuel)
    | rest =>
      match lineBreak? rest with
      | some rest => skipLines? fuel rest
      | none => some rest

def skipBlankLines? (cs : List Char) : Option (List Char) :=
  skipLines? (cs.length + 1) cs

/-! ### Where texts end

Each function takes the text behind an opening quote and splits it behind the closing one. A text
on one line that is not closed ends with its line. -/

def splitBasic : List Char → List Char × List Char
  | [] => ([], [])
  | '\\' :: '\\' :: rest => let (t, r) := splitBasic rest; ('\\' :: '\\' :: t, r)
  | '\\' :: '"' :: rest => let (t, r) := splitBasic rest; ('\\' :: '"' :: t, r)
  | c :: rest =>
    if c = '"' then (['"'], rest)
    else if c = '\n' then ([], '\n' :: rest)
    else let (t, r) := splitBasic rest; (c :: t, r)

def splitLiteral : List Char → List Char × List Char
  | [] => ([], [])
  | c :: rest =>
    if c = '\'' then (['\''], rest)
    else if c = '\n' then ([], '\n' :: rest)
    else let (t, r) := splitLiteral rest; (c :: t, r)

/-- Behind the three quotes that close a text, up to two more belong to it. -/
def closeLines (quote : Char) (rest : List Char) : List Char × List Char :=
  let more := (rest.take 2).takeWhile (· = quote)
  (quote :: quote :: quote :: more, rest.drop more.length)

def splitBasicLines : List Char → List Char × List Char
  | [] => ([], [])
  | '\\' :: '\\' :: rest => let (t, r) := splitBasicLines rest; ('\\' :: '\\' :: t, r)
  | '\\' :: '"' :: rest => let (t, r) := splitBasicLines rest; ('\\' :: '"' :: t, r)
  | '"' :: '"' :: '"' :: rest => closeLines '"' rest
  | c :: rest => let (t, r) := splitBasicLines rest; (c :: t, r)

def splitLiteralLines : List Char → List Char × List Char
  | [] => ([], [])
  | '\'' :: '\'' :: '\'' :: rest => closeLines '\'' rest
  | c :: rest => let (t, r) := splitLiteralLines rest; (c :: t, r)

/-- Splits behind a text with its quotes; `none` if there is no quote. -/
def splitText? : List Char → Option (List Char × List Char)
  | '"' :: '"' :: '"' :: rest =>
    let (t, r) := splitBasicLines rest
    some ('"' :: '"' :: '"' :: t, r)
  | '"' :: rest => let (t, r) := splitBasic rest; some ('"' :: t, r)
  | '\'' :: '\'' :: '\'' :: rest =>
    let (t, r) := splitLiteralLines rest
    some ('\'' :: '\'' :: '\'' :: t, r)
  | '\'' :: rest => let (t, r) := splitLiteral rest; some ('\'' :: t, r)
  | _ => none

/-! ### Keys -/

def isBare (c : Char) : Bool :=
  !".=,[]\x7b\x7d \t#\r\n".toList.contains c

def readKey? (cs : List Char) : Option (Key × List Char) :=
  let split := match splitText? cs with
    | some s => s
    | none => (cs.takeWhile isBare, cs.dropWhile isBare)
  match split with
  | ([], _) => none
  | (chars, rest) => some (⟨chars, ⟨cs.length, rest.length⟩⟩, rest)

/-- Reads keys with dots between them, in at most `fuel` steps. -/
def readPathIn : Nat → List Char → Option (List Key × List Char)
  | 0, _ => none
  | fuel + 1, cs =>
    match readKey? (skipSpace cs) with
    | none => none
    | some (key, rest) =>
      match skipSpace rest with
      | '.' :: rest => (readPathIn fuel rest).map fun p => (key :: p.1, p.2)
      | rest => some ([key], rest)

def readPath? (cs : List Char) : Option (List Key × List Char) :=
  readPathIn (cs.length + 1) cs

/-! ### Values -/

/-- A date as it is written, such as `1979-05-27`. -/
def looksLikeDate (cs : List Char) : Bool :=
  match cs with
  | [a, b, c, d, '-', e, f, '-', g, h] => [a, b, c, d, e, f, g, h].all Char.isDigit
  | _ => false

def isScalarChar (c : Char) : Bool :=
  c = '.' || isBare c

/-- Splits behind a scalar without quotes. A time may follow its date behind a space. -/
def splitScalar (cs : List Char) : List Char × List Char :=
  let word := cs.takeWhile isScalarChar
  let rest := cs.dropWhile isScalarChar
  match rest with
  | ' ' :: d :: more =>
    if looksLikeDate word && d.isDigit then
      (word ++ ' ' :: (d :: more).takeWhile isScalarChar, (d :: more).dropWhile isScalarChar)
    else (word, rest)
  | _ => (word, rest)

/-- How deep arrays and tables may lie in a value. -/
def roomForLevels : Nat := 80

mutual

/-- Reads a value with room for `levels` levels, in at most `fuel` steps. -/
def readWrittenIn (levels : Nat) : Nat → List Char → Option (Written × List Char)
  | 0, _ => none
  | fuel + 1, cs =>
    let finish (rest : List Char) (make : Extent → Written) : Written × List Char :=
      (make ⟨cs.length, rest.length⟩, rest)
    match levels, cs with
    | 0, '[' :: _ | 0, '{' :: _ => none
    | levels + 1, '[' :: rest =>
      (readItemsIn levels fuel rest).map fun p => finish p.2 (.array p.1)
    | levels + 1, '{' :: rest =>
      (readEntriesIn levels fuel rest).map fun p => finish p.2 (.table p.1)
    | _, cs =>
      match splitText? cs with
      | some (chars, rest) => some (finish rest (.scalar chars))
      | none =>
        match splitScalar cs with
        | ([], _) => none
        | (chars, rest) => some (finish rest (.scalar chars))

/-- Reads the items of an array and its closing bracket; a comma may follow the last item. -/
def readItemsIn (levels : Nat) : Nat → List Char → Option (List Written × List Char)
  | 0, _ => none
  | fuel + 1, cs => do
    match ← skipBlankLines? cs with
    | ']' :: rest => some ([], rest)
    | cs =>
      let (item, rest) ← readWrittenIn levels fuel cs
      match ← skipBlankLines? rest with
      | ']' :: rest => some ([item], rest)
      | ',' :: rest =>
        let (items, rest) ← readItemsIn levels fuel rest
        some (item :: items, rest)
      | _ => none

/-- Reads the entries of a table and its closing brace; a comma may follow the last entry. -/
def readEntriesIn (levels : Nat) :
    Nat → List Char → Option (List (List Key × Written) × List Char)
  | 0, _ => none
  | fuel + 1, cs => do
    match ← skipBlankLines? cs with
    | '}' :: rest => some ([], rest)
    | cs =>
      let (path, rest) ← readPath? cs
      match skipSpace rest with
      | '=' :: rest =>
        let (value, rest) ← readWrittenIn levels fuel (skipSpace rest)
        match ← skipBlankLines? rest with
        | '}' :: rest => some ([(path, value)], rest)
        | ',' :: rest =>
          let (entries, rest) ← readEntriesIn levels fuel rest
          some ((path, value) :: entries, rest)
        | _ => none
      | _ => none

end

/-- Every second step consumes a character at least. -/
def readWritten? (cs : List Char) : Option (Written × List Char) :=
  readWrittenIn roomForLevels (2 * cs.length + 2) cs

/-! ### Statements -/

def readHeader? (cs : List Char) : Option (Statement × List Char) :=
  let read (ofArray : Bool) (inner close : List Char) : Option (Statement × List Char) := do
    let (path, rest) ← readPath? inner
    if close.isPrefixOf rest then
      let rest := rest.drop close.length
      some (.header ofArray path ⟨cs.length, rest.length⟩, rest)
    else none
  match cs with
  | '[' :: '[' :: rest => read true rest [']', ']']
  | '[' :: rest => read false rest [']']
  | _ => none

def readPair? (cs : List Char) : Option (Statement × List Char) := do
  let (path, rest) ← readPath? cs
  match rest with
  | '=' :: rest =>
    let (value, rest) ← readWritten? (skipSpace rest)
    some (.pair path value, rest)
  | _ => none

/-- Reads the statements of a document, in at most `fuel` steps. -/
def readStatementsIn : Nat → List Char → Option (List Statement)
  | 0, _ => none
  | fuel + 1, cs => do
    match ← skipBlankLines? cs with
    | [] => some []
    | cs =>
      let (statement, rest) ← match cs with
        | '[' :: _ => readHeader? cs
        | _ => readPair? cs
      let rest ← endLine? rest
      let statements ← readStatementsIn fuel rest
      some (statement :: statements)

/-- Reads a document; a byte order mark may stand before it. -/
def readStatements? (cs : List Char) : Option (List Statement) :=
  let cs := if cs.head? = some '\uFEFF' then cs.drop 1 else cs
  readStatementsIn (cs.length + 1) cs

end Shakedown.Toml
