import Uncomment.CommandLine.Args
import Uncomment.CommandLine.Filter
import Uncomment.Demo
import Uncomment.Run
import Uncomment.Settings.File

/-! # The program

What a command line does to a storage and what it prints (`execute`), as a function of the command
line, the environment and the files.

* `StripArgs.resolve`: the settings that arguments ask for, with a settings file beneath them;
* `Printed`: what goes to the standard error stream, in order;
* `executeIn`: carries out a command on files in any monad, and `execute` on a storage. -/

namespace Uncomment

namespace StripArgs

/-- The settings that the arguments alone ask for. -/
def settings (a : StripArgs) : Settings where
  input := a.input
  output := a.output
  language := a.language
  inPlace := a.inPlace
  maxFileBytes := a.maxFileBytes.getD defaultMaxFileBytes
  report := a.report

/-- The settings that the arguments ask for. `read` gives the contents of a file. -/
def resolve (a : StripArgs) (env : Environment) (read : String → Except Fault Bytes) :
    Trace Settings :=
  match a.config with
  | none => pure a.settings
  | some path => do
    .log [.loadingSettings path]
    let file ← .lift (SettingsFile.ofBytes env (read path))
    .lift (a.settings.merge file a.maxFileBytes)

end StripArgs

/-- The contents of a file, seen from the working directory. -/
def Storage.readHere (s : Storage) (path : String) : Except Fault Bytes :=
  s.tree.read (.ofString path)

/-- One or more lines on the standard error stream. -/
inductive Printed
  | event (e : Event)
  | line (text : String)
  deriving DecidableEq, Repr

/-- What a command prints, and how it ends. -/
structure Ending where
  /-- What goes to the standard output stream. -/
  stdout : Bytes
  stderr : List Printed
  /-- The status the process ends with. -/
  exitCode : Nat

/-- What a command comes to. -/
structure Result extends Ending where
  storage : Storage

namespace CommandLine

/-- The name of the environment variable that holds an event filter. -/
def filterVariable : String := "RUST_LOG"

/-- The filter in force: that of the environment if it can be read. Events as JSON do not become
more numerous by being verbose. -/
def filter (l : CommandLine) (env : Environment) : Filter :=
  ((env.value? filterVariable).bind Filter.parse?).getD (.standard (l.verbose && !l.logJson))

/-- The last lines of a failed command. -/
def farewell (e : Error) : List Printed :=
  [.event (.failed e.message), .event (.advice e.suggestion), .line ("❌ " ++ e.userMessage),
    .line ("💡 " ++ e.suggestion)]

/-- A successful removal of comments: its settings and what it yields. -/
structure Success where
  settings : Settings
  run : Run

/-- The settings that the arguments ask for, once they have passed their checks. -/
def prepare (a : StripArgs) (env : Environment) (read : String → Except Fault Bytes) :
    Trace Settings := do
  let s ← a.resolve env read
  .log [.settled s.render]
  .lift s.check
  return s

/-- Removes comments as the arguments ask for. -/
def stripIn {m : Type → Type} [Monad m] (files : FileAccess m) (a : StripArgs) (env : Environment)
    (read : String → Except Fault Bytes) : m (Trace Success) :=
  (prepare a env read).bindIn fun s => do
    let t ← runIn files s
    return ⟨t.events, t.result.map (⟨s, ·⟩)⟩

/-- What a successful removal of comments prints to the standard output stream: the text, unless it
was written to a file. -/
def Success.stdout (s : Success) : Bytes :=
  if s.run.report.output.isNone then Utf8.encode s.run.text else []

/-- What a successful removal of comments prints behind its events: the report, if asked for. -/
def Success.stderr (s : Success) : List Printed :=
  if s.settings.report then s.run.report.lines.map .line else []

/-- How the demo ends. -/
def demoEnding : Ending :=
  let (sink, t) := Uncomment.demo {}
  { stdout := sink.taken
    stderr := t.events.map .event
    exitCode := match t.result with
      | .ok _ => 0
      | .error _ => 1 }

/-- How the removal of comments ends. -/
def stripEnding (t : Trace Success) : Ending :=
  match t.result with
  | .ok s => { stdout := s.stdout, stderr := t.events.map .event ++ s.stderr, exitCode := 0 }
  | .error e =>
    { stdout := [], stderr := t.events.map .event ++ farewell e, exitCode := e.exitCode }

/-- Carries out a command, without regard to which events are printed. -/
def carryOutIn {m : Type → Type} [Monad m] (files : FileAccess m) (c : Command) (env : Environment)
    (read : String → Except Fault Bytes) : m Ending :=
  match c with
  | .demo => return demoEnding
  | .strip a => return stripEnding (← stripIn files a env read)

/-- What a filter leaves of the standard error stream. -/
def Printed.passes (f : Filter) : Printed → Bool
  | .event e => f.passes e
  | .line _ => true

/-- Carries out a command line. `read` gives the contents of the settings file. -/
def executeIn {m : Type → Type} [Monad m] (files : FileAccess m) (l : CommandLine)
    (env : Environment) (read : String → Except Fault Bytes) : m Ending := do
  let r ← carryOutIn files l.toRun env read
  return { r with stderr := r.stderr.filter (Printed.passes (l.filter env)) }

/-- Carries out a command line on a storage. -/
def execute (l : CommandLine) (env : Environment) (store : Storage) : Result :=
  let (ending, storage) := (executeIn Storage.access l env store.readHere).run store
  { ending with storage }

end CommandLine

/-- An event on the console: its level, right-aligned, and its message. -/
def Event.consoleLine (e : Event) : String :=
  let name := e.level.name
  String.ofList (List.replicate (5 - name.length) ' ') ++ name ++ " " ++ e.message

/-- An event as a JSON object on one line. -/
def Event.jsonLine (e : Event) : String :=
  "\x7b\"level\":" ++ Report.quoted e.level.name ++ ",\"fields\":\x7b\"message\":" ++
    Report.quoted e.message ++ "\x7d\x7d"

/-- A line of the standard error stream, with events in the form that is asked for. -/
def Printed.text (asJson : Bool) : Printed → String
  | .event e => if asJson then e.jsonLine else e.consoleLine
  | .line s => s

end Uncomment
