import Shakedown.Json.Token

/-!
Reading JSON values, and passing over values that nobody asked for.

Lists and objects may lie 127 deep in a value that is read. A value that is passed over has no
such limit, and its numbers and escapes need not stand for anything.
-/

namespace Shakedown.Json

/-- How many levels of lists and objects a reader enters. -/
def roomForLevels : Nat := 127

def readColon (cs : List Char) : Except Stop (List Char) :=
  match skipBlanks cs with
  | [] => stopAfter .unfinishedObject []
  | ':' :: rest => .ok rest
  | rest => stopAfter .wantedColon rest

/-- Finds the next item of a list: `none` before its closing bracket, else the text of the item. -/
def nextItem (first : Bool) (cs : List Char) : Except Stop (Option (List Char) × List Char) :=
  match skipBlanks cs with
  | [] => stopAfter .unfinishedList []
  | ']' :: rest => .ok (none, ']' :: rest)
  | c :: rest =>
    if first then .ok (some (c :: rest), c :: rest)
    else if c = ',' then
      match skipBlanks rest with
      | [] => stopAfter .unfinishedValue []
      | ']' :: rest => stopAfter .trailingComma (']' :: rest)
      | rest => .ok (some rest, rest)
    else stopAfter .wantedCommaOrBracket (c :: rest)

/-- Finds the next member of an object: `none` before its closing brace, else the text behind the
opening quote of the name. -/
def nextMember (first : Bool) (cs : List Char) : Except Stop (Option (List Char) × List Char) :=
  match skipBlanks cs with
  | [] => stopAfter .unfinishedObject []
  | '}' :: rest => .ok (none, '}' :: rest)
  | c :: rest =>
    if first then
      if c = '"' then .ok (some rest, rest) else stopAfter .keyNotText (c :: rest)
    else if c = ',' then
      match skipBlanks rest with
      | [] => stopAfter .unfinishedValue []
      | '"' :: rest => .ok (some rest, rest)
      | '}' :: rest => stopAfter .trailingComma ('}' :: rest)
      | rest => stopAfter .keyNotText rest
    else stopAfter .wantedCommaOrBrace (c :: rest)

def endList (cs : List Char) : Except Stop (List Char) :=
  match skipBlanks cs with
  | [] => stopAfter .unfinishedList []
  | ']' :: rest => .ok rest
  | ',' :: rest =>
    match skipBlanks rest with
    | ']' :: rest => stopAfter .trailingComma (']' :: rest)
    | rest => stopAfter .trailingCharacters rest
  | rest => stopAfter .trailingCharacters rest

def endObject (cs : List Char) : Except Stop (List Char) :=
  match skipBlanks cs with
  | [] => stopAfter .unfinishedObject []
  | '}' :: rest => .ok rest
  | ',' :: rest => stopAfter .trailingComma (',' :: rest)
  | rest => stopAfter .trailingCharacters rest

/-- Reads a value that holds no others; `none` before a bracket or brace. -/
def readScalar? (cs : List Char) : Except Stop (Option (Json × List Char)) :=
  match cs with
  | [] => stopAfter .unfinishedValue []
  | '[' :: _ | '{' :: _ => .ok none
  | 'n' :: rest => (readWord "ull".toList rest).map fun rest => some (.null, rest)
  | 't' :: rest => (readWord "rue".toList rest).map fun rest => some (.bool true, rest)
  | 'f' :: rest => (readWord "alse".toList rest).map fun rest => some (.bool false, rest)
  | '"' :: rest => (readText rest).map fun r => some (.str r.1, r.2)
  | '-' :: rest => (readNumber true rest).map fun r => some (r.1.toJson, r.2)
  | c :: rest =>
    if c.isDigit then (readNumber false (c :: rest)).map fun r => some (r.1.toJson, r.2)
    else stopAfter .wantedValue (c :: rest)

mutual

/-- Reads a value with room for `levels` levels below it, in at most `fuel` steps. -/
def readValueIn (levels : Nat) : Nat → List Char → Except Stop (Json × List Char)
  | 0, cs => stopAt .unfinishedValue cs
  | fuel + 1, cs => do
    let cs := skipBlanks cs
    match ← readScalar? cs with
    | some r => .ok r
    | none =>
      match levels, cs with
      | 0, cs => stopAfter .tooDeep cs
      | levels + 1, '[' :: rest =>
        let (items, rest) ← readItemsIn levels fuel true rest
        let rest ← endList rest
        .ok (.arr items, rest)
      | levels + 1, cs =>
        let (members, rest) ← readMembersIn levels fuel true (cs.drop 1)
        let rest ← endObject rest
        .ok (ofMembers members, rest)

/-- Reads the items of a list up to its closing bracket. -/
def readItemsIn (levels : Nat) :
    Nat → Bool → List Char → Except Stop (List Json × List Char)
  | 0, _, cs => stopAt .unfinishedList cs
  | fuel + 1, first, cs => do
    match ← nextItem first cs with
    | (none, rest) => .ok ([], rest)
    | (some item, _) =>
      let (j, rest) ← readValueIn levels fuel item
      let (js, rest) ← readItemsIn levels fuel false rest
      .ok (j :: js, rest)

/-- Reads the members of an object up to its closing brace. -/
def readMembersIn (levels : Nat) :
    Nat → Bool → List Char → Except Stop (List (String × Json) × List Char)
  | 0, _, cs => stopAt .unfinishedObject cs
  | fuel + 1, first, cs => do
    match ← nextMember first cs with
    | (none, rest) => .ok ([], rest)
    | (some name, _) =>
      let (name, rest) ← readText name
      let rest ← readColon rest
      let (j, rest) ← readValueIn levels fuel rest
      let (members, rest) ← readMembersIn levels fuel false rest
      .ok ((name, j) :: members, rest)

end

/-- Every second step consumes a character at least. -/
def steps (cs : List Char) : Nat :=
  2 * cs.length + 2

def readValue (levels : Nat) (cs : List Char) : Except Stop (Json × List Char) :=
  readValueIn levels (steps cs) cs

/-- Requires that nothing but blanks is left. -/
def readEnd (cs : List Char) : Except Stop Unit :=
  match skipBlanks cs with
  | [] => .ok ()
  | rest => stopAfter .trailingCharacters rest

/-- Reads a text that holds one value, at most `levels` deep. -/
def ofChars? (levels : Nat) (cs : List Char) : Except Fault Json :=
  match readValue levels cs with
  | .error stop => .error (stop.fault cs)
  | .ok (j, rest) =>
    match readEnd rest with
    | .error stop => .error (stop.fault cs)
    | .ok () => .ok j

/-! ### Values that are passed over -/

inductive Container where
  | list
  | object
  deriving DecidableEq

namespace Container

def unfinished : Container → Problem
  | list => .unfinishedList
  | object => .unfinishedObject

def wantedComma : Container → Problem
  | list => .wantedCommaOrBracket
  | object => .wantedCommaOrBrace

def closing : Container → Char
  | list => ']'
  | object => '}'

end Container

/-- Passes over a text behind its opening quote, in at most `fuel` steps. -/
def skipTextChars : Nat → List Char → Except Stop (List Char)
  | 0, cs => stopAt .unfinishedText cs
  | _ + 1, [] => stopAt .unfinishedText []
  | fuel + 1, c :: rest =>
    if c = '"' then .ok rest
    else if c = '\\' then
      match rest with
      | [] => stopAt .unfinishedText []
      | d :: rest =>
        if (escaped? d).isSome then skipTextChars fuel rest
        else if d = 'u' then do
          let (_, rest) ← readHex rest
          skipTextChars fuel rest
        else stopAfter .badEscape (d :: rest)
    else if c.toNat < 0x20 then stopAt .controlCharacter (c :: rest)
    else skipTextChars fuel rest

def skipText (cs : List Char) : Except Stop (List Char) :=
  skipTextChars (cs.length + 1) cs

def skipExponent (cs : List Char) : Except Stop (List Char) :=
  let cs := match cs with
    | '+' :: rest | '-' :: rest => rest
    | _ => cs
  match cs with
  | [] => stopAt .badNumber []
  | c :: rest =>
    if c.isDigit then .ok (rest.dropWhile Char.isDigit) else stopAfter .badNumber (c :: rest)

def skipNumber (cs : List Char) : Except Stop (List Char) :=
  match cs with
  | [] => stopAt .badNumber []
  | c :: tail =>
    if c.isDigit then
      if c = '0' && (match tail with | d :: _ => d.isDigit | [] => false) then
        stopAfter .badNumber tail
      else
        match tail.dropWhile Char.isDigit with
        | '.' :: fraction =>
          match fraction.takeWhile Char.isDigit, fraction.dropWhile Char.isDigit with
          | [], rest => stopAfter .badNumber rest
          | _ :: _, 'e' :: rest | _ :: _, 'E' :: rest => skipExponent rest
          | _ :: _, rest => .ok rest
        | 'e' :: rest | 'E' :: rest => skipExponent rest
        | rest => .ok rest
    else stopAfter .badNumber (c :: tail)

/-- Passes over a scalar; `none` before a bracket or brace. -/
def skipScalar? (cs : List Char) : Except Stop (Option (List Char)) :=
  match cs with
  | [] => stopAfter .unfinishedValue []
  | '[' :: _ | '{' :: _ => .ok none
  | 'n' :: rest => (readWord "ull".toList rest).map some
  | 't' :: rest => (readWord "rue".toList rest).map some
  | 'f' :: rest => (readWord "alse".toList rest).map some
  | '"' :: rest => (skipText rest).map some
  | '-' :: rest => (skipNumber rest).map some
  | c :: rest =>
    if c.isDigit then (skipNumber (c :: rest)).map some
    else stopAfter .wantedValue (c :: rest)

/-- Passes over the name and the colon of a member, which a list does not have. -/
def skipName : Container → List Char → Except Stop (List Char)
  | .list, cs => .ok cs
  | .object, cs =>
    match skipBlanks cs with
    | [] => stopAfter .unfinishedObject []
    | '"' :: rest => do readColon (← skipText rest)
    | rest => stopAfter .keyNotText rest

mutual

/-- Passes over a value and closes all containers around it, in at most `fuel` steps. -/
def skipValueIn : Nat → List Container → List Char → Except Stop (List Char)
  | 0, _, cs => stopAt .unfinishedValue cs
  | fuel + 1, around, cs => do
    let cs := skipBlanks cs
    match ← skipScalar? cs with
    | some rest => skipRestIn fuel around rest
    | none =>
      let kind : Container := match cs with
        | '[' :: _ => .list
        | _ => .object
      match skipBlanks (cs.drop 1) with
      | [] => stopAfter kind.unfinished []
      | c :: rest =>
        if c = kind.closing then skipRestIn fuel around rest
        else do skipValueIn fuel (kind :: around) (← skipName kind (c :: rest))

/-- Passes over what follows a value in the containers around it. -/
def skipRestIn : Nat → List Container → List Char → Except Stop (List Char)
  | 0, _, cs => stopAt .unfinishedValue cs
  | _ + 1, [], cs => .ok cs
  | fuel + 1, kind :: around, cs =>
    match skipBlanks cs with
    | [] => stopAfter kind.unfinished []
    | c :: rest =>
      if c = ',' then do skipValueIn fuel (kind :: around) (← skipName kind rest)
      else if c = kind.closing then skipRestIn fuel around rest
      else stopAfter kind.wantedComma (c :: rest)

end

def skipValue (cs : List Char) : Except Stop (List Char) :=
  skipValueIn (steps cs) [] cs

end Shakedown.Json
