import Uncomment.Text.Quoted
import Uncomment.Error

/-! # Settings

What a run needs to know (`Settings`), what a settings file can say (`Section`, `SettingsFile`), and
how the two are layered (`Settings.merge`): a value from the command line wins over one from the
file, and a file's wish to overwrite the input gives way to an output path.

Byte limits are natural numbers; every reader of one takes values below 2 ^ 64 only.

Each check passes or names the setting, its value and what is wrong with it. `Settings.check` checks
the settings of a run and `SettingsFile.check` those of a file; the first check that fails
decides. -/

namespace Uncomment

/-- The settings of one run. -/
structure Settings where
  /-- The file whose comments are removed. -/
  input : String
  /-- Where the result goes. -/
  output : Option String
  /-- The id of the language, if the input's extension is not to decide. -/
  language : Option String
  /-- The result replaces the input. -/
  inPlace : Bool
  /-- The length beyond which an input is refused. -/
  maxFileBytes : Nat
  /-- A report is printed. -/
  report : Bool
  deriving DecidableEq, Repr

/-- What a settings file says about removing comments. -/
structure Section where
  language : Option String := none
  maxFileBytes : Option Nat := none
  inPlace : Option Bool := none
  deriving DecidableEq, Repr

/-- A settings file. -/
structure SettingsFile where
  strip : Option Section := none
  deriving DecidableEq, Repr

/-- The limit on inputs when nobody sets one: 10 MiB. -/
def defaultMaxFileBytes : Nat := 10 * 1024 * 1024

/-- One more than the greatest byte limit. -/
def byteLimitBound : Nat := Nat.pow 2 64

namespace Settings

/-- The settings with what the command line left open taken from a section. `limit?` is the limit
from the command line. -/
def withSection (s : Settings) (sec : Section) (limit? : Option Nat) : Settings :=
  { s with
    language := s.language.or sec.language
    inPlace := if s.output.isNone then s.inPlace || sec.inPlace.getD false else s.inPlace
    maxFileBytes := (limit?.or sec.maxFileBytes).getD defaultMaxFileBytes }

/-- A flag as text. -/
def showBool (b : Bool) : String := if b then "true" else "false"

/-- An optional text as text. -/
def showOption : Option String → String
  | some s => "Some(" ++ String.ofList (Text.shown s.toList) ++ ")"
  | none => "None"

/-- The settings as text, for logs. -/
def render (s : Settings) : String :=
  "StripConfig \x7b input: " ++ String.ofList (Text.shown s.input.toList) ++
    ", output: " ++ showOption s.output ++ ", language: " ++ showOption s.language ++
    ", in_place: " ++ showBool s.inPlace ++ ", max_file_bytes: " ++ toString s.maxFileBytes ++
    ", report: " ++ showBool s.report ++ " \x7d"

end Settings

/-! ### Checks -/

namespace Check

/-- A path is not empty and holds no NUL character. -/
def path (field value : String) : Except Error Unit :=
  if value.isEmpty then .error (.invalid field value "Path cannot be empty")
  else if value.toList.contains '\x00' then .error (.invalid field value "Path contains null bytes")
  else .ok ()

/-- A number reaches a least value. -/
def atLeast (field : String) (value least : Nat) : Except Error Unit :=
  if value < least then
    .error (.invalid field (toString value) s!"Value must be at least {least}")
  else .ok ()

/-- A setting is present. -/
def present {α : Type} (field : String) : Option α → Except Error α
  | some a => .ok a
  | none => .error (.missing field)

/-- A text is not blank. -/
def filled (field value : String) : Except Error Unit :=
  if Text.isBlankText value.toList then
    .error (.invalid field value "Value cannot be empty or whitespace-only")
  else .ok ()

/-- Two settings are not both given. -/
def exclusive (first : String) (firstSet : Bool) (second : String) (secondSet : Bool) :
    Except Error Unit :=
  if firstSet && secondSet then
    .error (.invalid first "true" s!"cannot be combined with --{flagName second}")
  else .ok ()

end Check

/-- Checks the settings of a run. -/
def Settings.check (s : Settings) : Except Error Unit := do
  Check.path "input" s.input
  if let some output := s.output then Check.path "output" output
  Check.exclusive "in_place" s.inPlace "output" s.output.isSome
  Check.atLeast "max_file_bytes" s.maxFileBytes 1

/-- The section of a settings file, which must have one. -/
def SettingsFile.requireStrip (f : SettingsFile) : Except Error Section :=
  Check.present "strip" f.strip

/-- Checks a settings file. -/
def SettingsFile.check (f : SettingsFile) : Except Error Unit := do
  let sec ← f.requireStrip
  if let some language := sec.language then Check.filled "strip.language" language
  if let some limit := sec.maxFileBytes then Check.atLeast "strip.max_file_bytes" limit 1

/-- The settings with what the command line left open taken from a settings file. -/
def Settings.merge (s : Settings) (f : SettingsFile) (limit? : Option Nat) :
    Except Error Settings := do
  return s.withSection (← f.requireStrip) limit?

end Uncomment
