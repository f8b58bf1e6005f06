import Uncomment.Text.Basic

/-! # Paths

A path is a sequence of steps, taken from the root or from the working directory. `Path.ofString`
reads one off its written form, where slashes divide the steps and repeated slashes count as one.

* `Path.names`: the steps without those that stay where they are;
* `Path.parent?`: the way to the directory that holds the path's last step;
* `Path.extension?`: what stands behind the last dot of the last name. -/

namespace Uncomment

/-- One step of a path. -/
inductive Step
  /-- Stay in the directory. -/
  | here
  /-- Go to the parent directory. -/
  | up
  /-- Go to an entry of the directory. -/
  | down (name : String)
  deriving DecidableEq, Repr

/-- A path. -/
structure Path where
  /-- The first step is taken from the root. -/
  absolute : Bool
  steps : List Step
  /-- The written form ends with a slash, so the path means a directory. -/
  slash : Bool
  deriving DecidableEq, Repr

namespace Path

/-- The step that a piece between slashes stands for. -/
def step? : Text → Option Step
  | [] => none
  | ['.'] => some .here
  | ['.', '.'] => some .up
  | p => some (.down (String.ofList p))

/-- The path with the given written form. -/
def ofString (s : String) : Path where
  absolute := s.toList.head? == some '/'
  steps := (Text.piecesAt '/' s.toList).filterMap step?
  slash := s.toList.getLast? == some '/'

/-- The steps that lead somewhere. -/
def names (p : Path) : List Step := p.steps.filter (· ≠ .here)

/-- The way to the directory that holds the last step, if there is a step. -/
def parent? (p : Path) : Option (List Step) :=
  if p.steps.isEmpty then none else some p.names.dropLast

/-- What stands behind the last dot of a name. A dot at the start of a name does not count. -/
def nameExtension? (name : Text) : Option Text :=
  let after := name.reverse.takeWhile (· ≠ '.')
  match name.reverse.drop after.length with
  | _ :: _ :: _ => some after.reverse
  | _ => none

/-- What stands behind the last dot of the last name of a path. -/
def extension? (p : Path) : Option String :=
  match p.names.getLast? with
  | some (.down name) => (nameExtension? name.toList).map String.ofList
  | _ => none

/-- The written form of `path`, seen from the directory `base`. -/
def join (base path : String) : String :=
  if path.toList.head? == some '/' then path
  else if base.isEmpty || base.toList.getLast? == some '/' then base ++ path
  else base ++ "/" ++ path

end Path
end Uncomment
