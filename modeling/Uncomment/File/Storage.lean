import Uncomment.File.Tree

/-! # Storage

Files seen from a base directory, which need not exist. Reading and measuring leave the tree as it
is. Writing first makes the directories above the target; what was made stays also when the write
then fails.

A run reaches its files through a `FileAccess`. That of a storage is `Storage.access`; the
executable has one to the files of the machine. -/

namespace Uncomment

/-- Files seen from a base directory. -/
structure Storage where
  /-- The base directory, as written. -/
  base : String
  tree : Tree

/-- What a run needs of the files it works on, in whichever monad they are reached. -/
structure FileAccess (m : Type → Type) where
  /-- The length of a file. -/
  size : String → m (Except Fault Nat)
  /-- The contents of a file. -/
  read : String → m (Except Fault Bytes)
  /-- Writes a file, and makes the directories above it. -/
  write : String → Bytes → m (Except Fault Unit)

namespace Storage

/-- A path seen from the base directory. -/
def path (s : Storage) (p : String) : Path := .ofString (Path.join s.base p)

/-- The contents of a file. -/
def read (s : Storage) (p : String) : Except Fault Bytes := s.tree.read (s.path p)

/-- The length of a file. -/
def size (s : Storage) (p : String) : Except Fault Nat := s.tree.size (s.path p)

/-- Writes a file, and makes the directories above it. -/
def write (s : Storage) (p : String) (data : Bytes) : Storage × Except Fault Unit :=
  let path := s.path p
  let (tree, made) :=
    match path.parent? with
    | some steps => s.tree.makeDirs (s.tree.origin path) steps.reverse
    | none => (s.tree, .ok ())
  match made with
  | .error e => ({ s with tree }, .error e)
  | .ok () =>
    match tree.write path data with
    | .ok tree => ({ s with tree }, .ok ())
    | .error e => ({ s with tree }, .error e)

/-- Access to files that are the state of a computation. -/
def access : FileAccess (StateM Storage) where
  size p := fun s => (s.size p, s)
  read p := fun s => (s.read p, s)
  write p data := fun s => ((s.write p data).2, (s.write p data).1)

section

variable {α : Type} (s : Storage) (p : String)

@[simp] theorem run_size_bind (f : Except Fault Nat → StateM Storage α) :
    (access.size p >>= f).run s = (f (s.size p)).run s := rfl

@[simp] theorem run_read_bind (f : Except Fault Bytes → StateM Storage α) :
    (access.read p >>= f).run s = (f (s.read p)).run s := rfl

@[simp] theorem run_write_bind (data : Bytes) (f : Except Fault Unit → StateM Storage α) :
    (access.write p data >>= f).run s = (f (s.write p data).2).run (s.write p data).1 := by
  rw [StateT.run_bind]
  rfl

end

/-- Makes a directory and those above it, as far as that is possible. -/
def addDirectory (s : Storage) (p : String) : Storage :=
  let path := s.path p
  { s with tree := (s.tree.makeDirs (s.tree.origin path) path.names.reverse).1 }

/-- A storage whose base is the working directory `home`, with the given files and directories in
it. -/
def ofFiles (home : Location) (files : List (String × Bytes)) (directories : List String) :
    Storage :=
  let empty : Storage := ⟨".", Tree.ofHome home⟩
  directories.foldl addDirectory (files.foldl (fun s (p, data) => (s.write p data).1) empty)

end Storage
end Uncomment
