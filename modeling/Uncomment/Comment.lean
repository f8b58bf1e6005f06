import Uncomment.Text.Cut
import Uncomment.Language

/-! # Comments

How the comments of a source are found.

* **Blocks.** A block starts with the opening mark and ends with the first closing mark behind it;
  it may span lines. Blocks are taken from left to right, without regard to string literals, and an
  opening mark that nothing closes is ordinary text (`removeBlocks`, `countBlocks`).
* **Line comments.** `splitLine` cuts a line where its comment starts. A reader passes over the line
  from left to right and knows whether it stands in code or in a string literal (`Place`); a marker
  counts only in code. Inside a literal a backslash takes the meaning from the character behind it.
* **Lines.** The reader of a program carries from one line to the next what is still open (`Mode`):
  nothing, a docstring, or a triple-quoted literal that belongs to code. `Mode.read` says what one
  line comes to (`Fate`), `Mode.after` what is open behind it, and `readLines` adds up a whole list
  of lines (`Reading`).

In code, a line whose trimmed form starts with a quote opens a docstring and is dropped. Every other
line loses its comment and is kept unless only blanks are left; when it holds an odd number of
copies of a quote, a literal stays open. In a docstring, lines are dropped up to the one whose
trimmed form ends with the quote. In a literal, lines are kept as they are up to the one that holds
the quote. Without docstring quotes nothing is ever left open. -/

namespace Uncomment

/-- The code of a line, and whether a comment was cut off behind it. -/
structure Split where
  code : Text
  commented : Bool
  deriving DecidableEq, Repr

namespace Comment

/-! ### Blocks -/

/-- The length of the block between the marks `o` and `c` that starts a text, if one does. -/
def blockLength? (o c t : Text) : Option Nat :=
  if o.isPrefixOf t then (Text.endOf? c (t.drop o.length)).map (o.length + ·) else none

/-- The text without its blocks. -/
def removeBlocks (o c t : Text) : Text := t.replace (blockLength? o c) fun _ => []

/-- The number of blocks in a text. -/
def countBlocks (o c t : Text) : Nat := t.countStretches (blockLength? o c)

/-- The text without its blocks, for a language that has any. -/
def withoutBlocks (rules : Rules) (t : Text) : Text :=
  match rules.block? with
  | some (o, c) => removeBlocks o c t
  | none => t

/-- The number of blocks in a text, for a language that has any. -/
def blockCount (rules : Rules) (t : Text) : Nat :=
  match rules.block? with
  | some (o, c) => countBlocks o c t
  | none => 0

/-! ### Line comments -/

/-- Where the reader of a line stands. -/
inductive Place
  /-- Outside every literal. -/
  | code
  /-- In a literal that the given character closes. -/
  | literal (delimiter : Char)
  /-- In a literal, directly behind a backslash. -/
  | escape (delimiter : Char)
  deriving DecidableEq, Repr

/-- The place behind the character `c`, if no comment starts at `c`. -/
def Place.next (rules : Rules) (c : Char) : Place → Place
  | .code => if c ∈ rules.delimiters then .literal c else .code
  | .literal d => if c = '\\' then .escape d else if c = d then .code else .literal d
  | .escape d => .literal d

/-- A line comment starts here, provided that here is code. -/
def startsComment (rules : Rules) (t : Text) : Bool :=
  rules.marker.isPrefixOf t && !rules.except?.any (·.isPrefixOf t)

/-- A line comment starts with the character `c`, met at the given place before `r`. -/
def Place.cuts (rules : Rules) (c : Char) (r : Text) : Place → Bool
  | .code => decide (c ∉ rules.delimiters) && startsComment rules (c :: r)
  | _ => false

/-- Cuts the rest of a line at its comment. -/
def splitFrom (rules : Rules) : Place → Text → Split
  | _, [] => ⟨[], false⟩
  | p, c :: r =>
    if p.cuts rules c r then ⟨[], true⟩
    else
      let s := splitFrom rules (p.next rules c) r
      ⟨c :: s.code, s.commented⟩

/-- Cuts a line at its comment. -/
def splitLine (rules : Rules) (line : Text) : Split := splitFrom rules .code line

/-- What a line is cut into starts with its code. -/
theorem splitFrom_code_isPrefix (rules : Rules) (p : Place) (t : Text) :
    (splitFrom rules p t).code <+: t := by
  induction t generalizing p with
  | nil => simp [splitFrom]
  | cons c r ih =>
    rw [splitFrom]
    split
    · exact List.nil_prefix
    · exact (List.prefix_cons_inj c).2 (ih _)

/-- A line without a comment is kept whole. -/
theorem splitFrom_code_eq {rules : Rules} {p : Place} {t : Text}
    (h : (splitFrom rules p t).commented = false) : (splitFrom rules p t).code = t := by
  induction t generalizing p with
  | nil => simp [splitFrom]
  | cons c r ih =>
    rw [splitFrom] at h ⊢
    split at h
    · simp at h
    · next hc => simp [hc, ih h]

/-! ### Reading code line by line -/

/-- What is open at the start of a line. -/
inductive Mode
  | code
  | docstring (quote : Text)
  | literal (quote : Text)
  deriving DecidableEq, Repr

/-- What a line comes to. -/
inductive Fate
  /-- Code: what is left of the line, and whether a comment was cut off. -/
  | code (split : Split)
  /-- The first line of a docstring. -/
  | opensDocstring
  /-- A further line of a docstring. -/
  | docstring
  /-- A line of a literal that an earlier line opened. -/
  | literal (line : Text)
  deriving DecidableEq, Repr

/-- The line that is kept, if one is. -/
def Fate.kept? : Fate → Option Text
  | .code s => if Text.isBlankText s.code then none else some s.code
  | .literal l => some l
  | _ => none

/-- The number of line comments cut off. -/
def Fate.lineComments : Fate → Nat
  | .code s => s.commented.toNat
  | _ => 0

/-- The number of docstrings met. -/
def Fate.docstrings : Fate → Nat
  | .opensDocstring => 1
  | _ => 0

/-- The quote with which a trimmed line starts. -/
def docQuote? (rules : Rules) (trimmed : Text) : Option Text :=
  rules.docQuotes.find? (·.isPrefixOf trimmed)

/-- A docstring that starts the trimmed line ends on it as well: behind the three characters of
the opening quote the line ends with a quote, not necessarily the same one. -/
def closesAtOnce (rules : Rules) (trimmed : Text) : Bool :=
  rules.docQuotes.any (·.isSuffixOf (trimmed.drop 3))

/-- The quote of which a line of code holds an odd number of copies. -/
def unclosed? (rules : Rules) (code : Text) : Option Text :=
  rules.docQuotes.find? fun q => Text.count q code % 2 == 1

/-- What a line comes to in the given mode. -/
def Mode.read (rules : Rules) : Mode → (line : Text) → Fate
  | .literal _, l => .literal l
  | .docstring _, _ => .docstring
  | .code, l =>
    if (docQuote? rules l.trim).isSome then .opensDocstring else .code (splitLine rules l)

/-- What is open behind a line of code that is kept as `code`. -/
def Mode.ofCode (rules : Rules) (code : Text) : Mode :=
  match unclosed? rules code with
  | some q => .literal q
  | none => .code

/-- What is open behind a line. -/
def Mode.after (rules : Rules) : Mode → (line : Text) → Mode
  | .literal q, l => if Text.occurs q l then .code else .literal q
  | .docstring q, l => if q.isSuffixOf l.trim then .code else .docstring q
  | .code, l =>
    match docQuote? rules l.trim with
    | some q => if closesAtOnce rules l.trim then .code else .docstring q
    | none =>
      match (Fate.code (splitLine rules l)).kept? with
      | some left => .ofCode rules left
      | none => .code

/-- What a list of lines comes to. -/
structure Reading where
  /-- The lines that are kept. -/
  kept : List Text
  /-- The number of line comments cut off. -/
  lineComments : Nat
  /-- The number of docstrings met. -/
  docstrings : Nat
  /-- What is open behind the last line. -/
  mode : Mode
  deriving DecidableEq, Repr

/-- The reading of a line with the given fate and of the lines behind it. -/
def Reading.cons (f : Fate) (r : Reading) : Reading where
  kept := f.kept?.toList ++ r.kept
  lineComments := f.lineComments + r.lineComments
  docstrings := f.docstrings + r.docstrings
  mode := r.mode

/-- Reads lines, starting in the given mode. -/
def readLines (rules : Rules) : Mode → List Text → Reading
  | m, [] => ⟨[], 0, 0, m⟩
  | m, l :: ls => .cons (m.read rules l) (readLines rules (m.after rules l) ls)

end Comment
end Uncomment
