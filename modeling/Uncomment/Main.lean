import Uncomment.CommandLine.Program

/-! # The executable

The program on the machine it runs on: `files` gives the library access to the files, `execute` and
`print` hand it the arguments and variables and print what it answers. Every decision, and the order
of the operations on files, is the library's. -/

namespace Uncomment.Executable

/-- The fault behind a failed file operation. -/
def faultOf : IO.Error → Fault
  | .noFileOrDirectory .. => .notFound
  | .alreadyExists .. => .alreadyExists
  | .inappropriateType _ code _ => if code = 21 then .isDirectory else .notDirectory
  | e => .other (toString e)

/-- Runs a file operation and keeps its fault. -/
def attempt {α : Type} (action : IO α) : IO (Except Fault α) := do
  match ← action.toBaseIO with
  | .ok a => return .ok a
  | .error e => return .error (faultOf e)

/-- The contents of a file. -/
def readFile (path : String) : IO (Except Fault Bytes) := do
  return (← attempt (IO.FS.readBinFile path)).map (·.toList)

/-- The number of bytes that are counted at a time. -/
def blockSize : USize := 65536

/-- The length of a file. Its bytes are counted and none of them is kept, so that a file beyond the
limit is refused before it is in memory. -/
def measureFile (path : String) : IO (Except Fault Nat) :=
  attempt do
    let handle ← IO.FS.Handle.mk path .read
    let mut length := 0
    let mut block ← handle.read blockSize
    while !block.isEmpty do
      length := length + block.size
      block ← handle.read blockSize
    return length

/-- The written form of the directory that holds a path. -/
def parentOf (path : String) : String :=
  String.ofList (path.toList.reverse.dropWhile (· ≠ '/')).reverse

/-- Writes a file, and makes the directories above it. -/
def writeFile (path : String) (data : Bytes) : IO (Except Fault Unit) :=
  attempt do
    let parent := parentOf path
    unless parent.isEmpty do IO.FS.createDirAll parent
    IO.FS.writeBinFile path data.toByteArray

/-- The files of the machine. -/
def files : FileAccess IO where
  size := measureFile
  read := readFile
  write := writeFile

/-- The values of the given variables. -/
def environment (names : List String) : IO Environment := do
  let values ← names.mapM fun name => do
    return (← IO.getEnv name).map fun value => (name, Utf8.encode value.toList)
  return values.filterMap id

/-- The settings file that a command names. -/
def settingsFile? : Command → Option String
  | .strip a => a.config
  | .demo => none

/-- The variables that a settings file names. -/
def variablesOf (data : Bytes) : List String :=
  match Utf8.decode data with
  | .ok t => (Placeholder.names t).map String.ofList
  | .error _ => []

/-- Carries out a command line on the files of the machine. -/
def execute (l : CommandLine) : IO Ending := do
  let config ← match settingsFile? l.toRun with
    | some path => readFile path
    | none => pure (.ok [])
  let env ← environment (CommandLine.filterVariable :: variablesOf (config.toOption.getD []))
  l.executeIn files env fun _ => config

/-- Prints what a command comes to. -/
def print (l : CommandLine) (e : Ending) : IO Unit := do
  let stdout ← IO.getStdout
  stdout.write e.stdout.toByteArray
  stdout.flush
  for line in e.stderr do
    IO.eprintln (line.text l.logJson)

/-- What is printed when no command is carried out. -/
def usage : String :=
  "Usage: decomment [--verbose] [--log-json] [demo | strip INPUT [-o OUTPUT] [-l LANGUAGE] " ++
    "[--in-place] [--config FILE] [--max-file-bytes N] [--report]]"

end Uncomment.Executable

open Uncomment in
/-- Carries out the command that the arguments ask for. -/
def main (words : List String) : IO UInt32 := do
  match CommandLine.parse words with
  | .error r =>
    if r = .help then IO.println Executable.usage else IO.eprintln Executable.usage
    return r.exitCode.toUInt32
  | .ok l =>
    let ending ← Executable.execute l
    Executable.print l ending
    return ending.exitCode.toUInt32
