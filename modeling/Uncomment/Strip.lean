import Uncomment.Text.Cut
import Uncomment.Text.Basic
import Uncomment.Comment
import Uncomment.Trace

/-! # Removing comments

`strip` removes the comments of a source text: first the blocks, then, line by line, the line
comments and docstrings; the lines that are kept are joined and laid out. The result comes with its
counters and with the events of the removal.

To lay out is to make runs of empty lines one empty line (`Layout.collapse`), to trim the blanks at
both ends and to end the text with one newline (`Layout.finish`). A run of empty lines is read by
three newlines with any blanks between them, each stretch of blanks as long as the rest allows.
`Layout.reach k t` is the reader of "blanks, then `k`": it tries the longest stretch first and gives
blanks back until `k` succeeds. -/

namespace Uncomment.Layout

/-! ### Layout -/

/-- The length of a newline followed by what `k` reads. -/
def newline (k : Text → Option Nat) : Text → Option Nat
  | c :: r => if c = '\n' then (k r).map (· + 1) else none
  | [] => none

/-- The length of the longest stretch of blanks behind which `k` reads on, and of what it reads. -/
def reach (k : Text → Option Nat) : Text → Option Nat
  | [] => k []
  | c :: r =>
    if Text.isBlank c then ((reach k r).map (· + 1)).or (k (c :: r)) else k (c :: r)

/-- The length of the run of empty lines that starts a text: from one newline to another, with a
third between them and nothing but blanks besides. -/
def runLength? : Text → Option Nat :=
  newline (reach (newline (reach (newline fun _ => some 0))))

/-- Makes every run of empty lines one empty line. -/
def collapse (t : Text) : Text := t.replace runLength? fun _ => ['\n', '\n']

/-- A joined text in its final form. -/
def finish (joined : Text) : Text := (collapse joined).trim ++ ['\n']

end Uncomment.Layout

namespace Uncomment

/-! ### Sources -/

/-- The result of removing comments. -/
structure Outcome where
  text : Text
  stats : Stats
  events : List Event
  deriving DecidableEq, Repr

/-- The lines of a source, once its blocks are gone, as the line reader finds them. -/
def readSource (rules : Rules) (source : Text) : Comment.Reading :=
  Comment.readLines rules .code (Text.lines (Comment.withoutBlocks rules source))

/-- The warning about what is open at the end of a source. -/
def Comment.Mode.warnings : Comment.Mode → List Event
  | .code => []
  | .literal _ => [.openLiteral]
  | .docstring _ => [.openDocstring]

/-- The number of lines that are not blank. -/
def filledLines (t : Text) : Nat := (Text.lines t).countP (!Text.isBlankText ·)

/-- Removes the comments of a source in the given language. -/
def strip (language : Language) (source : Text) : Outcome :=
  let rules := language.rules
  let reading := readSource rules source
  let text := Layout.finish (Text.unlines reading.kept)
  let stats : Stats :=
    { linesIn := (Text.lines source).length
      linesOut := filledLines text
      blockComments := Comment.blockCount rules source
      lineComments := reading.lineComments
      docstrings := reading.docstrings }
  { text, stats, events := reading.mode.warnings ++ [.stripped language stats] }

/-- Removes comments once for each language, every time from the text that the one before left. -/
def stripAll : List Language → Text → List Outcome
  | [], _ => []
  | l :: ls, source =>
    let outcome := strip l source
    outcome :: stripAll ls outcome.text

end Uncomment
