import Uncomment.Trace
import Uncomment.Number
import Uncomment.Text.Basic

/-! # Event filters

Which events are printed. A filter is a list of directives, each a level for the origins that start
with a given text; of the directives that fit an event the one with the longest text decides, and of
equally long ones the last. An event that no directive fits is not printed.

`Filter.parse?` reads a filter as it stands in the environment: directives with commas between them,
each a level, an origin with a level behind an equals sign, or an origin alone, which lets
everything pass. -/

namespace Uncomment

/-- The place of a level in the order of detail. -/
def Level.rank : Level → Nat
  | .error => 1
  | .warn => 2
  | .info => 3
  | .debug => 4

/-- Lets events up to a rank pass whose origin starts with the given text. -/
structure Directive where
  origin : Text
  /-- The greatest rank that passes; 0 for none, 5 for all. -/
  rank : Nat
  deriving DecidableEq, Repr

/-- The directives that decide which events are printed. -/
abbrev Filter := List Directive

namespace Filter

/-- The directive that decides on events from an origin. -/
def deciding? (f : Filter) (origin : Text) : Option Directive :=
  (f.filter (·.origin.isPrefixOf origin)).foldl
    (fun best d =>
      match best with
      | some b => if d.origin.length < b.origin.length then some b else some d
      | none => some d)
    none

/-- The event is printed. -/
def passes (f : Filter) (e : Event) : Bool :=
  (f.deciding? e.origin.toList).any (e.level.rank ≤ ·.rank)

/-- The names of the ranks. -/
def rankNames : List (String × Nat) :=
  [("off", 0), ("error", 1), ("warn", 2), ("info", 3), ("debug", 4), ("trace", 5), ("", 1)]

/-- The rank with the given name or number. -/
def rank? (t : Text) : Option Nat :=
  match rankNames.lookup (String.ofList (t.map Char.toLower)) with
  | some r => some r
  | none => if t.all Text.isDigit && Text.natOf 10 t ≤ 5 then some (Text.natOf 10 t) else none

/-- Reads one directive. -/
def directive? (t : Text) : Option Directive :=
  let t := t.trim
  match t with
  | [] => none
  | c :: _ =>
    if !(c.isAlphanum || c == '-' || c == ':' || c == '_') then none
    else
      let head := t.takeWhile (· ≠ '=')
      if head.length < t.length then (rank? (t.drop (head.length + 1))).map (⟨head, ·⟩)
      else
        match rank? t with
        | some r => some ⟨[], r⟩
        | none => some ⟨t, 5⟩

/-- Reads a filter. An empty text lets errors pass. -/
def parse? (t : Text) : Option Filter :=
  if t.isEmpty then some [⟨[], 1⟩] else (Text.piecesAt ',' t).mapM directive?

/-- The filter when the environment sets none: events of the program itself, up to the level `debug`
if more is asked for and else up to `info`. -/
def standard (verbose : Bool) : Filter :=
  let own := "decomment".toList
  if verbose then [⟨own, 4⟩, ⟨[], 3⟩] else [⟨own, 3⟩]

end Filter
end Uncomment
