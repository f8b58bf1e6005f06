import Uncomment.Settings.Basic
import Uncomment.Number

/-! # Arguments

From the words of a command line to what they ask for (`parse`), or why they cannot be understood
(`Refusal`). Flags before the name of a command are read at the top, the rest by the command.

A flag that takes a value takes it from its own word (`--output=x`, `-ox`) or from the next one. In
the second case it stays *pending*: it is settled only when the next flag or the input is met, or at
the end, so that a fault of another word may be found first. Behind `--` no word is a flag. -/

namespace Uncomment

/-- What the arguments ask the removal of comments to do. -/
structure StripArgs where
  input : String
  output : Option String
  language : Option String
  inPlace : Bool
  /-- The path of a settings file. -/
  config : Option String
  maxFileBytes : Option Nat
  report : Bool
  deriving DecidableEq, Repr

/-- What the program can be asked to do. -/
inductive Command
  | demo
  | strip (args : StripArgs)
  deriving DecidableEq, Repr

/-- A command line that was understood. -/
structure CommandLine where
  verbose : Bool
  /-- Events are printed as JSON. -/
  logJson : Bool
  /-- The command, if one is named. -/
  command : Option Command
  deriving DecidableEq, Repr

namespace CommandLine

/-- Why no command is carried out. -/
inductive Refusal
  /-- Help was asked for. -/
  | help
  /-- A flag or a further word has no meaning. -/
  | unknownArgument
  /-- No command has the name. -/
  | unknownCommand
  /-- The input is missing. -/
  | missingInput
  /-- A flag lacks its value. -/
  | missingValue
  /-- The value of a flag is not of its kind. -/
  | badValue
  /-- A flag is given twice. -/
  | repeated
  /-- A flag that takes no value is given one. -/
  | needlessValue
  deriving DecidableEq, Repr

/-- The status the process ends with. -/
def Refusal.exitCode : Refusal → Nat
  | .help => 0
  | _ => 2

/-- A flag. -/
inductive Flag
  | help
  | verbose
  | logJson
  | output
  | language
  | inPlace
  | config
  | maxFileBytes
  | report
  deriving DecidableEq, Repr

namespace Flag

/-- The long name of a flag, behind its two dashes. -/
def long : Flag → String
  | help => "help"
  | verbose => "verbose"
  | logJson => "log-json"
  | output => "output"
  | language => "language"
  | inPlace => "in-place"
  | config => "config"
  | maxFileBytes => "max-file-bytes"
  | report => "report"

/-- The letter of a flag, behind one dash. -/
def short? : Flag → Option Char
  | help => some 'h'
  | output => some 'o'
  | language => some 'l'
  | _ => none

/-- The flag takes a value. -/
def takesValue : Flag → Bool
  | output | language | config | maxFileBytes => true
  | _ => false

/-- The flags that can be given anywhere. -/
def everywhere : List Flag := [help, verbose, logJson]

/-- The flags of the command that removes comments. -/
def ofStrip : List Flag := everywhere ++ [output, language, inPlace, config, maxFileBytes, report]

end Flag

/-- A byte limit, with an optional plus sign. -/
def byteLimit? (s : String) : Option Nat :=
  let ds := match s.toList with
    | '+' :: r => r
    | r => r
  let n := Text.natOf 10 ds
  if !ds.isEmpty && ds.all Text.isDigit && n < byteLimitBound then some n else none

/-- What has been read of the words of a command. -/
structure Progress where
  /-- The flags so far, with their values. A flag that takes none has an empty one. -/
  settled : List (Flag × String) := []
  /-- A flag that is not settled yet, with its value if that has been met. -/
  pending : Option (Flag × Option String) := none
  input : Option String := none
  /-- No further word is a flag. -/
  escaped : Bool := false

namespace Progress

/-- The flag was given. -/
def has (p : Progress) (f : Flag) : Bool := p.settled.any (·.1 == f)

/-- The value of a flag. -/
def value? (p : Progress) (f : Flag) : Option String := p.settled.lookup f

/-- Settles a flag with its value. -/
def settle (p : Progress) (f : Flag) (v : String) : Except Refusal Progress :=
  if p.has f then .error .repeated
  else if f = .maxFileBytes && (byteLimit? v).isNone then .error .badValue
  else .ok { p with settled := p.settled ++ [(f, v)] }

/-- Settles the pending flag, if there is one. -/
def flush (p : Progress) : Except Refusal Progress :=
  match p.pending with
  | none => .ok p
  | some (_, none) => .error .missingValue
  | some (f, some v) => { p with pending := none }.settle f v

/-- Reads a flag, with the value in its own word. -/
def flag (p : Progress) (f : Flag) (attached : Option String) : Except Refusal Progress :=
  if f.takesValue then do
    let p ← p.flush
    match attached with
    | some v => p.settle f v
    | none => .ok { p with pending := some (f, none) }
  else if attached.isSome then .error .needlessValue
  else do
    let p ← p.flush
    if f = .help then .error .help else p.settle f ""

/-- Reads the letters of a word behind its dash. -/
def letters (flags : List Flag) : Text → Progress → Except Refusal Progress
  | [], p => .ok p
  | c :: r, p =>
    match flags.find? (·.short? == some c) with
    | none => .error .unknownArgument
    | some f =>
      if f.takesValue then
        p.flag f (match r with
          | [] => none
          | '=' :: v => some (String.ofList v)
          | v => some (String.ofList v))
      else do letters flags r (← p.flag f none)

/-- Reads a word behind its two dashes. -/
def word (flags : List Flag) (t : Text) (p : Progress) : Except Refusal Progress :=
  let name := t.takeWhile (· ≠ '=')
  match flags.find? (·.long.toList == name) with
  | none => .error .unknownArgument
  | some f =>
    p.flag f <|
      if name.length < t.length then some (String.ofList (t.drop (name.length + 1))) else none

/-- Reads a word that is no flag and no value of one. -/
def positional (takesInput : Bool) (w : String) (p : Progress) : Except Refusal Progress :=
  if takesInput && p.input.isNone then do
    let p ← p.flush
    .ok { p with input := some w }
  else .error .unknownArgument

/-- Reads one word of a command. -/
def step (flags : List Flag) (takesInput : Bool) (p : Progress) (w : String) :
    Except Refusal Progress :=
  if p.escaped then p.positional takesInput w
  else
    match w.toList with
    | ['-', '-'] => .ok { p with escaped := true }
    | '-' :: '-' :: t => p.word flags t
    | '-' :: c :: t => p.letters flags (c :: t)
    | _ =>
      match p.pending with
      | some (f, none) => .ok { p with pending := some (f, some w) }
      | _ => p.positional takesInput w

/-- Reads all words of a command. -/
def read (flags : List Flag) (takesInput : Bool) (words : List String) :
    Except Refusal Progress := do
  (← words.foldlM (step flags takesInput) {}).flush

/-- The arguments of the command that removes comments. -/
def stripArgs (p : Progress) : Except Refusal StripArgs :=
  match p.input with
  | none => .error .missingInput
  | some input => .ok {
      input
      output := p.value? .output
      language := p.value? .language
      inPlace := p.has .inPlace
      config := p.value? .config
      maxFileBytes := (p.value? .maxFileBytes).bind byteLimit?
      report := p.has .report }

end Progress

/-- The names of the commands, with the one that asks for help. -/
def commandNames : List String := ["demo", "strip", "help"]

/-- A command line with flags read at the top and those read by the command. -/
def ofProgress (top sub : Progress) (command : Option Command) : CommandLine where
  verbose := top.has .verbose || sub.has .verbose
  logJson := top.has .logJson || sub.has .logJson
  command := command

/-- Reads the words behind the name of a command. -/
def parseCommand (top : Progress) (name : String) (words : List String) :
    Except Refusal CommandLine := do
  if name = "strip" then
    let p ← Progress.read Flag.ofStrip true words
    return ofProgress top p (some (.strip (← p.stripArgs)))
  else if name = "demo" then
    let p ← Progress.read Flag.everywhere false words
    return ofProgress top p (some .demo)
  else
    match words with
    | [] => .error .help
    | [w] => if commandNames.contains w then .error .help else .error .unknownCommand
    | _ => .error .unknownCommand

/-- Reads the words of a command line up to the name of a command. -/
def parseFrom (top : Progress) : List String → Except Refusal CommandLine
  | [] => .ok (ofProgress top {} none)
  | w :: ws =>
    if top.escaped then
      .error (if commandNames.contains w then .unknownArgument else .unknownCommand)
    else if commandNames.contains w then parseCommand top w ws
    else if w.toList.head? = some '-' && w ≠ "-" then do
      parseFrom (← top.step Flag.everywhere false w) ws
    else .error .unknownCommand

/-- Reads a command line. -/
def parse (words : List String) : Except Refusal CommandLine := parseFrom {} words

/-- The command to carry out: the demo, if none is named. -/
def toRun (l : CommandLine) : Command := l.command.getD .demo

end CommandLine
end Uncomment
