import Shakedown.Decimal.Reading
import Shakedown.Log.Event
import Shakedown.Text.Blank
import Shakedown.Text.Split

/-!
Which events are shown.

A filter is a list of directives. The directive with the longest name that an area begins with
decides on the events of that area; of two with one name the later does. An area without a
directive shows nothing.
-/

namespace Shakedown.Log

/-- Shows the events of some areas up to a level; without a level it shows none. -/
structure Directive where
  area : List Char
  greatest : Option Level
  deriving DecidableEq

abbrev Filter := List Directive

namespace Filter

/-- The greatest level by its rank, where none is zero. -/
def ofRank? : Nat → Option (Option Level)
  | 0 => some none
  | 1 => some (some .error)
  | 2 => some (some .warn)
  | 3 => some (some .info)
  | 4 => some (some .debug)
  | 5 => some (some .trace)
  | _ => none

/-- What a directive says about the levels that it shows, by name or number. -/
def level? (cs : List Char) : Option (Option Level) :=
  let ds := match cs with
    | '+' :: ds => ds
    | _ => cs
  if !ds.isEmpty && ds.all Char.isDigit then ofRank? (Decimal.value ds)
  else
    match String.ofList (cs.map Char.toLower) with
    | "off" => some none
    | "error" => some (some .error)
    | "warn" => some (some .warn)
    | "info" => some (some .info)
    | "debug" => some (some .debug)
    | "trace" => some (some .trace)
    | _ => none

/-- The level behind an equals sign; none at all means every level. -/
def levelOrAll? (cs : List Char) : Option (Option Level) :=
  if cs.isEmpty then some (some .trace) else level? cs

/-- Reads the part of a directive behind the bracket that selects spans of time. The events here
belong to no span, so such a directive selects nothing, but it has to be well formed. -/
def spanDirective? (cs : List Char) : Option (Option Directive) :=
  match cs.dropWhile (· ≠ ']') with
  | [_] => some none
  | _ :: '=' :: level => (levelOrAll? level).map fun _ => none
  | _ => none

/-- Reads one directive: a level for all areas, or an area that may have a level. -/
def directive? (cs : List Char) : Option (Option Directive) :=
  let trimmed := Text.trimChars cs
  let isMark (c : Char) : Bool := c = '=' || c = '['
  let before := (trimmed.takeWhile fun c => !isMark c).length
  match trimmed with
  | [] => some none
  | '[' :: rest => spanDirective? rest
  | c :: _ =>
    if !(c.isAlphanum || c = '-' || c = ':' || c = '_' || 0x80 ≤ c.toNat) then none
    else
      match trimmed.drop before with
      | [] =>
        match level? cs with
        | some level => some (some ⟨[], level⟩)
        | none => some (some ⟨cs, some .trace⟩)
      | '=' :: _ =>
        (levelOrAll? (cs.drop (before + 1))).map fun level => some ⟨cs.take before, level⟩
      | _ :: rest => spanDirective? rest

/-- Reads a filter; an empty one shows errors. -/
def ofText? (s : String) : Option Filter :=
  let pieces := (Text.split ',' s.toList).filter fun piece => !piece.isEmpty
  if pieces.isEmpty then some [⟨[], some .error⟩]
  else (pieces.mapM directive?).map fun directives => directives.filterMap id

/-- The filter without any wish: this program, and with more detail if wanted. -/
def standard (verbose : Bool) : Filter :=
  let program := Area.program.name.toList
  if verbose then [⟨program, some .debug⟩, ⟨[], some .info⟩] else [⟨program, some .info⟩]

/-- The directive that decides on an area. -/
def deciding? (f : Filter) (area : List Char) : Option Directive :=
  f.foldl
    (fun best d =>
      if d.area.isPrefixOf area then
        match best with
        | none => some d
        | some b => if b.area.length ≤ d.area.length then some d else best
      else best)
    none

def shows (f : Filter) (e : Event) : Bool :=
  match f.deciding? e.area.name.toList with
  | some ⟨_, some greatest⟩ => e.level.rank ≤ greatest.rank
  | _ => false

end Filter

end Shakedown.Log
