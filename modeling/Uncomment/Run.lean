import Uncomment.Text.Quoted
import Uncomment.Trace
import Uncomment.File.Storage
import Uncomment.Settings.Basic
import Uncomment.Strip

/-! # Runs

One run removes the comments of one file. Up to the point where the result is known it only reads
(`accept`, then `process`); after that it writes the result to its target, if it has one (`saveIn`).

* `Report`: what a run tells about itself when asked to, as a JSON object with one field on each
  line;
* `resolveLanguage`: an id decides, and else the extension of the path;
* `accept`: the input must not exceed the limit;
* `process`: from the bytes of the input to the result;
* `runIn`: all of it, on files in any monad, and `run` on a storage. -/

namespace Uncomment

/-! ### Reports -/

/-- What a run did. -/
structure Report where
  input : String
  output : Option String
  language : Language
  bytesBefore : Nat
  bytesAfter : Nat
  stats : Stats
  deriving DecidableEq, Repr

namespace Report

/-- A string as JSON. -/
def quoted (s : String) : String := String.ofList (Text.json s.toList)

/-- The fields of a report with their values as JSON, in order. -/
def fields (r : Report) : List (String × String) :=
  [("input", quoted r.input), ("output", (r.output.map quoted).getD "null"),
    ("language", quoted r.language.name), ("bytes_before", toString r.bytesBefore),
    ("bytes_after", toString r.bytesAfter), ("lines_in", toString r.stats.linesIn),
    ("lines_out", toString r.stats.linesOut), ("block_comments", toString r.stats.blockComments),
    ("line_comments", toString r.stats.lineComments), ("docstrings", toString r.stats.docstrings)]

/-- The lines between the braces: two spaces, the field, and a comma unless it is the last. -/
def fieldLines : List (String × String) → List String
  | [] => []
  | [(k, v)] => ["  " ++ quoted k ++ ": " ++ v]
  | (k, v) :: fs => ("  " ++ quoted k ++ ": " ++ v ++ ",") :: fieldLines fs

/-- The lines of a printed report. -/
def lines (r : Report) : List String := ["\x7b"] ++ fieldLines r.fields ++ ["\x7d"]

end Report

/-! ### One run -/

/-- The language of files at a path, told by its extension. -/
def Language.ofPath? (path : String) : Option Language :=
  (Path.ofString path).extension?.bind Language.ofExtension?

/-- The language to use: that of the id if one is given, where an unknown id means `javascript`;
else that of the path. -/
def resolveLanguage (id? : Option String) (path : String) : Trace Language :=
  match id? with
  | some id =>
    match Language.ofId? id with
    | some l => pure l
    | none => ⟨[.unknownId id], .ok .javascript⟩
  | none =>
    match Language.ofPath? path with
    | some l => pure l
    | none => .fail (.unknownLanguage path)

namespace Settings

/-- Where the result is written: over the input if it is replaced, else to the output. -/
def target (s : Settings) : Option String := if s.inPlace then some s.input else s.output

/-- Begins a run, given the length of the input. -/
def accept (s : Settings) (size : Except Fault Nat) : Trace Unit := do
  .log [.started s.input]
  let n ← .liftFault size
  if s.maxFileBytes < n then .fail (.tooLarge s.input n s.maxFileBytes)

/-- What a run found out before it writes anything. -/
structure Processed where
  source : Text
  /-- The length of the source in bytes. -/
  sourceSize : Nat
  language : Language
  outcome : Outcome

/-- Removes the comments of the input, given its bytes. -/
def process (s : Settings) (data : Except Fault Bytes) : Trace Processed := do
  let bytes ← .liftFault data
  let source ← .liftFault (Utf8.decode bytes)
  .log [.loaded bytes.length]
  let language ← resolveLanguage s.language s.input
  let outcome := strip language source
  .log (outcome.events ++ [.removed language outcome.stats])
  return { source, sourceSize := bytes.length, language, outcome }

/-- The report on a run. -/
def reportOn (s : Settings) (p : Processed) : Report where
  input := s.input
  output := s.target
  language := p.language
  bytesBefore := p.sourceSize
  bytesAfter := Utf8.size p.outcome.text
  stats := p.outcome.stats

end Settings

/-- What a successful run yields. -/
structure Run where
  report : Report
  text : Text

section

variable {m : Type → Type} [Monad m] (files : FileAccess m)

/-- Writes the result of a run to its target, if it has one. -/
def Settings.saveIn (s : Settings) (p : Processed) : m (Trace Run) := do
  let done : Run := ⟨s.reportOn p, p.outcome.text⟩
  match s.target with
  | none => return pure done
  | some path =>
    match ← files.write path (Utf8.encode p.outcome.text) with
    | .ok () => return ⟨[.saved path], .ok done⟩
    | .error fault => return .fail (.io fault)

/-- Removes the comments of one file. The input is measured before it is read, and nothing is
written before the result is known. -/
def runIn (s : Settings) : m (Trace Run) := do
  (s.accept (← files.size s.input)).bindIn fun _ => do
    (s.process (← files.read s.input)).bindIn (s.saveIn files)

end

/-- Removes the comments of one file of a storage. The storage that comes back is as the run left
it, also when the run failed. -/
def run (store : Storage) (s : Settings) : Storage × Trace Run :=
  let (t, store) := (runIn Storage.access s).run store
  (store, t)

end Uncomment
