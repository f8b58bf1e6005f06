import Uncomment.File.Path
import Uncomment.Text.Utf8

/-! # File trees

A file tree maps locations, the names on the way down from the root, to files and directories; it
also knows the directory where relative paths start. The operations are those of a file system:

* `Tree.walk`: where a sequence of steps leads. Every step needs a directory to start from; the root
  is its own parent;
* `Tree.read`, `Tree.size`: the contents of the file at a path, and their length;
* `Tree.makeDir`, `Tree.makeDirs`: make one directory, or a directory and those above it;
* `Tree.write`: replace or create the file at a path. Its directory must exist.

`Tree.get?` is the view of a tree in which the operations are described.

What a real file system adds to this is left out, and statements about a run hold where it does not
matter: permissions and owners, so that whatever is there can be read, replaced and entered;
symbolic and hard links, so that a location names one file and a file has one location; devices and
pipes; limits on the length of a whole path, on the length of a file and on the space there is, so
that only a single name can be too long and a write stores all of its bytes; and other processes, so
that nothing changes between two operations. -/

namespace Uncomment

/-- The names on the way from the root down to an entry. -/
abbrev Location := List String

/-- A file with its contents, or a directory. -/
inductive Entry
  | file (data : Bytes)
  | directory
  deriving DecidableEq, Repr

/-- The directories and files below a root. -/
structure Tree where
  /-- Every entry but the root, once. -/
  entries : List (Location × Entry)
  /-- Where relative paths start. -/
  home : Location
  deriving Repr

namespace Tree

/-- The entry at a location. -/
def get? (t : Tree) (l : Location) : Option Entry :=
  if l.isEmpty then some .directory else t.entries.lookup l

/-- The tree with the given entry at a location. -/
def put (t : Tree) (l : Location) (e : Entry) : Tree :=
  { t with entries := (l, e) :: t.entries.filter (·.1 ≠ l) }

/-- What was put at a location is found there. -/
theorem get?_put_self (t : Tree) {l : Location} (e : Entry) (hl : l ≠ []) :
    (t.put l e).get? l = some e := by
  simp [get?, put, hl]

/-- What is put at a location is not found anywhere else. -/
theorem get?_put_of_ne (t : Tree) {l l' : Location} (e : Entry) (h : l' ≠ l) :
    (t.put l e).get? l' = t.get? l' := by
  have hb : (l' == l) = false := by simpa using h
  have hf : ∀ es : List (Location × Entry),
      (es.filter (·.1 ≠ l)).lookup l' = es.lookup l' := by
    intro es
    induction es with
    | nil => rfl
    | cons x xs ih =>
      obtain ⟨k, v⟩ := x
      by_cases hx : k = l
      · subst hx
        simpa [List.lookup_cons, hb] using ih
      · rw [List.filter_cons_of_pos (by simpa using hx), List.lookup_cons, List.lookup_cons, ih]
  simp only [get?, put, List.lookup_cons, hb, hf]

/-- The longest name of an entry, in bytes. -/
def maxName : Nat := 255

/-- The length that is reported for a directory. -/
def directorySize : Nat := 4096

/-- Where steps from a location lead. -/
def walk (t : Tree) : Location → List Step → Except Fault Location
  | l, [] => .ok l
  | l, s :: r =>
    if t.get? l = some .directory then
      match s with
      | .here => walk t l r
      | .up => walk t l.dropLast r
      | .down name =>
        if maxName < name.utf8ByteSize then .error .nameTooLong
        else if (t.get? (l ++ [name])).isSome then walk t (l ++ [name]) r
        else .error .notFound
    else .error .notDirectory

/-- A path that no entry can have. -/
def hasNul (steps : List Step) : Bool :=
  steps.any fun | .down name => name.toList.contains (Char.ofNat 0) | _ => false

/-- Where a path starts. -/
def origin (t : Tree) (p : Path) : Location := if p.absolute then [] else t.home

/-- The location that a path means. -/
def locate (t : Tree) (p : Path) : Except Fault Location :=
  if hasNul p.steps then .error .nulInPath
  else if p.steps.isEmpty && !p.absolute then .error .notFound
  else do
    let l ← t.walk (t.origin p) p.steps
    if p.slash && t.get? l ≠ some .directory then .error .notDirectory else .ok l

/-- The entry that a path means. -/
def entry (t : Tree) (p : Path) : Except Fault Entry := do
  let l ← t.locate p
  match t.get? l with
  | some e => .ok e
  | none => .error .notFound

/-- The contents of the file at a path. -/
def read (t : Tree) (p : Path) : Except Fault Bytes := do
  match ← t.entry p with
  | .file data => .ok data
  | .directory => .error .isDirectory

/-- The length of the entry at a path. -/
def size (t : Tree) (p : Path) : Except Fault Nat := do
  match ← t.entry p with
  | .file data => .ok data.length
  | .directory => .ok directorySize

/-- Steps end at a directory. -/
def isDirectory (t : Tree) (start : Location) (steps : List Step) : Bool :=
  match t.walk start steps with
  | .ok l => t.get? l = some .directory
  | .error _ => false

/-- The location at which the name `name` of the directory `l` can be made. -/
def newEntry (t : Tree) (l : Location) (name : String) : Except Fault Location :=
  if t.get? l = some .directory then
    if maxName < name.utf8ByteSize then .error .nameTooLong else .ok (l ++ [name])
  else .error .notDirectory

/-- Makes one directory, at the end of the given steps. -/
def makeDir (t : Tree) (start : Location) (steps : List Step) : Except Fault Tree := do
  if hasNul steps then .error .nulInPath
  let l ← t.walk start steps.dropLast
  match steps.getLast? with
  | some (.down name) =>
    let new ← t.newEntry l name
    if (t.get? new).isSome then .error .alreadyExists else .ok (t.put new .directory)
  | _ => if t.get? l = some .directory then .error .alreadyExists else .error .notDirectory

/-- Makes a directory, and those above it that are missing. The steps are given from the last to
the first. The tree that comes back holds what was made also when a directory cannot be. -/
def makeDirs (t : Tree) (start : Location) : (back : List Step) → Tree × Except Fault Unit
  | [] => (t, .ok ())
  | s :: back =>
    let steps := (s :: back).reverse
    match t.makeDir start steps with
    | .ok t' => (t', .ok ())
    | .error .notFound =>
      match makeDirs t start back with
      | (t', .error e) => (t', .error e)
      | (t', .ok ()) =>
        match t'.makeDir start steps with
        | .ok t'' => (t'', .ok ())
        | .error e => (t', if t'.isDirectory start steps then .ok () else .error e)
    | .error e => (t, if t.isDirectory start steps then .ok () else .error e)

/-- The location of the file that writing to a path creates or replaces. -/
def target (t : Tree) (p : Path) : Except Fault Location := do
  if hasNul p.steps then .error .nulInPath
  if p.steps.isEmpty && !p.absolute then .error .notFound
  let l ← t.walk (t.origin p) p.steps.dropLast
  match p.steps.getLast? with
  | some (.down name) =>
    if t.get? l ≠ some .directory then .error .notDirectory
    else if p.slash then .error .isDirectory
    else
      let new ← t.newEntry l name
      if t.get? new = some .directory then .error .isDirectory else .ok new
  | _ => if t.get? l = some .directory then .error .isDirectory else .error .notDirectory

/-- Replaces or creates the file at a path. -/
def write (t : Tree) (p : Path) (data : Bytes) : Except Fault Tree := do
  return t.put (← t.target p) (.file data)

/-- A tree that holds a working directory and the directories above it, and nothing else. -/
def ofHome (home : Location) : Tree where
  entries := (List.range home.length).map fun n => (home.take (n + 1), .directory)
  home := home

/-- The entries below the working directory, seen from there. -/
def listing (t : Tree) : List (Location × Entry) :=
  t.entries.filterMap fun (l, e) =>
    if t.home.isPrefixOf l && t.home.length < l.length then some (l.drop t.home.length, e) else none

end Tree
end Uncomment
