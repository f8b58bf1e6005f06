/-! # Failures

Why the program can fail (`Error`) and why a file operation can (`Fault`). Each cause is a
constructor; what is said about it stands in functions of the cause:

* `Error.message` for logs, `Error.userMessage` for the person at the terminal;
* `Error.suggestion`, what to try next;
* `Error.exitCode`, the status the process ends with. -/

namespace Uncomment

/-- Why a file or an output could not be used. -/
inductive Fault
  | notFound
  | alreadyExists
  | notDirectory
  | isDirectory
  | nameTooLong
  /-- A path holds a NUL character. -/
  | nulInPath
  /-- A settings file is not UTF-8. -/
  | notUtf8
  /-- A source has `length` bytes that start no UTF-8 character, behind `index` good bytes. -/
  | badSequence (length index : Nat)
  /-- A source ends within a UTF-8 character, behind `index` good bytes. -/
  | cutSequence (index : Nat)
  /-- An output took no byte of those it was offered. -/
  | writeZero
  /-- Any other cause, in its own words. -/
  | other (text : String)
  deriving DecidableEq, Repr

/-- The wording of a fault. -/
def Fault.message : Fault → String
  | notFound => "No such file or directory (os error 2)"
  | alreadyExists => "File exists (os error 17)"
  | notDirectory => "Not a directory (os error 20)"
  | isDirectory => "Is a directory (os error 21)"
  | nameTooLong => "File name too long (os error 36)"
  | nulInPath => "file name contained an unexpected NUL byte"
  | notUtf8 => "stream did not contain valid UTF-8"
  | badSequence n i => s!"invalid utf-8 sequence of {n} bytes from index {i}"
  | cutSequence i => s!"incomplete utf-8 byte sequence from index {i}"
  | writeZero => "failed to write whole buffer"
  | other text => text

/-- What is wrong with a settings file as a whole. -/
inductive Flaw
  /-- Placeholders name variables that have no value. -/
  | undefinedVariables (names : List String)
  /-- The text is no TOML document of the expected shape. -/
  | malformed
  /-- Anything else, in its own words. -/
  | other (text : String)
  deriving DecidableEq, Repr

/-- The wording of a flaw. -/
def Flaw.message : Flaw → String
  | undefinedVariables names => "Undefined environment variables: " ++ ", ".intercalate names
  | malformed => "TOML parsing error"
  | other text => text

/-- Why the program fails. -/
inductive Error
  /-- A file or an output could not be used. -/
  | io (fault : Fault)
  /-- A JSON text could not be read or written. -/
  | json (detail : String)
  /-- The settings file is flawed. -/
  | config (flaw : Flaw)
  /-- A setting has a value it must not have. -/
  | invalid (field value reason : String)
  /-- A setting that is needed is missing. -/
  | missing (field : String)
  /-- Neither an id nor an extension tells the language. -/
  | unknownLanguage (path : String)
  /-- The input exceeds the limit. -/
  | tooLarge (path : String) (size limit : Nat)
  deriving DecidableEq, Repr

/-- The name of a setting as a flag spells it, with dashes for underscores. -/
def flagName (field : String) : String :=
  String.ofList (field.toList.map fun c => if c = '_' then '-' else c)

namespace Error

/-- What the log says about a failure. -/
def message : Error → String
  | io fault => s!"IO error: {fault.message}"
  | json detail => s!"Serialization error: {detail}"
  | config flaw => s!"Configuration error: {flaw.message}"
  | invalid field value reason => s!"Invalid value for '{field}' ({value}): {reason}"
  | missing field => s!"Missing required configuration: {field}"
  | unknownLanguage path => s!"Cannot determine language for '{path}'"
  | tooLarge path size limit => s!"Input '{path}' is {size} bytes, limit is {limit}"

/-- What the person at the terminal is told about a failure. -/
def userMessage : Error → String
  | io fault => s!"Could not read or write a file: {fault.message}"
  | json _ => "Could not build the JSON report"
  | config flaw => s!"Bad configuration: {flaw.message}"
  | invalid field _ reason => s!"Invalid --{flagName field}: {reason}"
  | missing field => s!"Missing required setting '{field}'"
  | unknownLanguage path => s!"Cannot tell which language '{path}' is written in"
  | tooLarge path size limit => s!"'{path}' is too large ({size} bytes, limit {limit} bytes)"

/-- What to try next. -/
def suggestion : Error → String
  | io _ => "Check that the path exists and is writable"
  | json _ => "Run again without --report"
  | config _ | missing _ =>
    "Check the [strip] table of the config file and its $\x7bVAR\x7d placeholders"
  | invalid .. => "Run with --help to see valid flags"
  | unknownLanguage _ => "Pass --language javascript|cpp|lua|python"
  | tooLarge .. => "Raise max_file_bytes in the config file"

/-- The status the process ends with: 1 for files and reports, 2 for settings. -/
def exitCode : Error → Nat
  | io _ | json _ => 1
  | _ => 2

end Error
end Uncomment
