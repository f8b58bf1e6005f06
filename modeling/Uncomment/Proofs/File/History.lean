import Mathlib.Data.List.Basic
import Uncomment.Proofs.File.Storage

/-! # Histories of a storage

A history is a list of calls, each made on what the calls before it left (`Storage.after`). One call
is a write to one file, or it changes no file at all (`Call.Writes`, `get?_apply_file_iff`); no call
takes an entry away (`keeps_apply`). By induction a file holds the data of the last call that wrote
it (`get?_after_file_iff`), and a path that leads to a file keeps leading there (`locate_after`). -/

namespace Uncomment

theorem Tree.Keeps.refl (t : Tree) : t.Keeps t where
  home := rfl
  directory := id
  isSome := id

namespace Storage

/-- A call on a storage. -/
inductive Call
  | write (path : String) (data : Bytes)
  | read (path : String)
  | size (path : String)
  deriving DecidableEq, Repr

/-- The storage behind a call. -/
def apply (s : Storage) : Call → Storage
  | .write p data => (s.write p data).1
  | .read _ | .size _ => s

/-- The storage behind a list of calls. -/
def after (s : Storage) (calls : List Call) : Storage := calls.foldl apply s

/-- The call, made on `s`, is a write that succeeds, and the file at `l` is the one it writes. -/
def Call.Writes (s : Storage) (l : Location) : Call → Prop
  | .write p data => (s.write p data).2 = .ok () ∧ (s.write p data).1.locate p = .ok l
  | .read _ | .size _ => False

instance (s : Storage) (l : Location) : (c : Call) → Decidable (c.Writes s l)
  | .write _ _ => inferInstanceAs (Decidable (_ ∧ _))
  | .read _ | .size _ => inferInstanceAs (Decidable False)

/-- None of the calls, made on `s` one after the other, writes the file at `l`. -/
def NeverWritten (l : Location) : Storage → List Call → Prop
  | _, [] => True
  | s, c :: calls => ¬ c.Writes s l ∧ NeverWritten l (s.apply c) calls

instance decidableNeverWritten (l : Location) :
    (s : Storage) → (calls : List Call) → Decidable (NeverWritten l s calls)
  | _, [] => inferInstanceAs (Decidable True)
  | s, c :: calls =>
    have := decidableNeverWritten l (s.apply c) calls
    inferInstanceAs (Decidable (_ ∧ _))

variable {s : Storage} {l : Location}

/-! ### One call -/

theorem base_apply (s : Storage) (c : Call) : (s.apply c).base = s.base := by
  cases c with
  | read p | size p => rfl
  | write p data =>
    obtain ⟨mid, -, ⟨e, heq⟩ | ⟨l, -, heq⟩⟩ := s.write_cases p data <;> rw [apply, heq]

theorem keeps_apply (s : Storage) (c : Call) : s.tree.Keeps (s.apply c).tree := by
  cases c with
  | read p | size p => exact .refl s.tree
  | write p data =>
    rw [apply]
    cases h : (s.write p data).2 with
    | error e => exact (grown_of_write h).keeps
    | ok u =>
      obtain ⟨-, l, hwritten⟩ := written_of_write h
      exact hwritten.keeps

theorem locate_apply (c : Call) {q : String} (h : s.locate q = .ok l) :
    (s.apply c).locate q = .ok l := by
  rw [locate, path_eq (s.base_apply c)]
  exact (s.keeps_apply c).locate h

/-- A write that succeeds leaves its data at the place to which its path then leads. -/
theorem exists_locate_write {p : String} {data : Bytes} (h : (s.write p data).2 = .ok ()) :
    ∃ l, (s.write p data).1.locate p = .ok l ∧
      (s.write p data).1.tree.get? l = some (.file data) := by
  obtain ⟨hbase, l, hwritten⟩ := written_of_write h
  refine ⟨l, ?_, hwritten.get?_self⟩
  rw [locate, path_eq hbase]
  exact hwritten.locate

/-- A call that does not write a file leaves it as it is, and makes none. -/
theorem get?_apply_file_iff {c : Call} (h : ¬ c.Writes s l) {data : Bytes} :
    (s.apply c).tree.get? l = some (.file data) ↔ s.tree.get? l = some (.file data) := by
  cases c with
  | read p | size p => exact Iff.rfl
  | write p new =>
    rw [apply]
    cases hwrite : (s.write p new).2 with
    | error e => exact (grown_of_write hwrite).get?_eq_file_iff
    | ok u =>
      obtain ⟨hbase, l', hwritten⟩ := written_of_write hwrite
      have hne : l ≠ l' := by
        rintro rfl
        refine h ⟨hwrite, ?_⟩
        rw [locate, path_eq hbase]
        exact hwritten.locate
      refine ⟨fun hfile => ?_, hwritten.kept hne⟩
      cases hl : s.tree.get? l with
      | none => exact nomatch (hwritten.new hne hl hfile).1
      | some e => rw [← hfile, hwritten.kept hne hl]

/-- A call that writes a file leaves a file there. -/
theorem Call.Writes.exists_file {c : Call} (h : c.Writes s l) :
    ∃ data, (s.apply c).tree.get? l = some (.file data) := by
  cases c with
  | read p | size p => cases h
  | write p data =>
    obtain ⟨l', hlocate, hfile⟩ := exists_locate_write h.1
    cases hlocate.symm.trans h.2
    exact ⟨data, hfile⟩

theorem exists_file_apply (c : Call) {data : Bytes} (h : s.tree.get? l = some (.file data)) :
    ∃ data', (s.apply c).tree.get? l = some (.file data') := by
  by_cases hc : c.Writes s l
  · exact hc.exists_file
  · exact ⟨data, (get?_apply_file_iff hc).2 h⟩

/-! ### Lists of calls -/

theorem locate_after {q : String} (h : s.locate q = .ok l) (calls : List Call) :
    (s.after calls).locate q = .ok l := by
  induction calls generalizing s with
  | nil => exact h
  | cons c calls ih => exact ih (locate_apply c h)

theorem get?_after_file_iff {calls : List Call} (h : NeverWritten l s calls) {data : Bytes} :
    (s.after calls).tree.get? l = some (.file data) ↔ s.tree.get? l = some (.file data) := by
  induction calls generalizing s with
  | nil => exact Iff.rfl
  | cons c calls ih => exact (ih h.2).trans (get?_apply_file_iff h.1)

theorem read_of_locate {q : String} {data : Bytes} (hq : s.locate q = .ok l)
    (hl : s.tree.get? l = some (.file data)) :
    s.read q = .ok data ∧ s.size q = .ok data.length := by
  have hread : s.tree.read (s.path q) = .ok data := Tree.read_eq_ok_iff.2 ⟨l, hq, hl⟩
  exact ⟨hread, Tree.size_of_read hread⟩

/-- **A storage remembers the last write.** Take any call behind any calls. If it is a write that
succeeds, then its data is what every path to the same file reads, and their length what it
measures, until a further call writes that file. If it does not write a file, it does not change
that file's bytes. And it takes away no file and no directory, so that paths lead where they led. -/
theorem remembers_last_write (s : Storage) (earlier : List Call) (c : Call) :
    let now := s.after earlier
    let next := now.apply c
    (∀ p data, c = .write p data → (now.write p data).2 = .ok () →
      ∃ l, next.locate p = .ok l ∧ ∀ later, NeverWritten l next later →
        ∀ q, (next.after later).locate q = .ok l →
          (next.after later).read q = .ok data ∧ (next.after later).size q = .ok data.length) ∧
    (∀ l, ¬ c.Writes now l → ∀ data,
      next.tree.get? l = some (.file data) ↔ now.tree.get? l = some (.file data)) ∧
    (∀ l data, now.tree.get? l = some (.file data) →
      ∃ data', next.tree.get? l = some (.file data')) ∧
    (∀ l, now.tree.get? l = some .directory → next.tree.get? l = some .directory) ∧
    ∀ q l, now.locate q = .ok l → ∀ later, (now.after later).locate q = .ok l := by
  intro now next
  refine ⟨?_, fun l hc data => get?_apply_file_iff hc, fun l data => exists_file_apply c,
    fun l => (now.keeps_apply c).directory, fun q l => locate_after⟩
  rintro p data rfl hok
  obtain ⟨l, hlocate, hfile⟩ := exists_locate_write hok
  refine ⟨l, hlocate, fun later hlater q hq => ?_⟩
  exact read_of_locate hq ((get?_after_file_iff hlater).2 hfile)

/-- The base directory is made by a write that then fails. The path that is read leads through a
directory that a later write makes; of the later writes one fails, and the others are to other
files. -/
theorem remembers_last_write_respelled :
    let s : Storage := ⟨"b", ⟨[(["w"], .directory), (["w", "g"], .file [0])], ["w"]⟩⟩
    let now := s.after [.write "../g/x" [9]]
    let next := now.apply (.write "a//f" [1, 2])
    let later : List Call :=
      [.write "a/f/x" [3], .write "a/new/k" [4], .write "../g" [5], .read "a/f", .size "x"]
    (now.write "a//f" [1, 2]).2 = .ok () ∧ NeverWritten ["w", "b", "a", "f"] next later ∧
      next.locate "a/new/.././f" = .error .notFound ∧
      (next.after later).read "a/new/.././f" = .ok [1, 2] ∧
      (next.after later).size "a/new/.././f" = .ok 2 := by
  intro s now next later
  have hok : (now.write "a//f" [1, 2]).2 = .ok () := by decide +kernel
  have hplace : next.locate "a//f" = .ok ["w", "b", "a", "f"] := by decide +kernel
  have hlater : NeverWritten ["w", "b", "a", "f"] next later := by decide +kernel
  obtain ⟨l, hlocate, hread⟩ := (remembers_last_write s [.write "../g/x" [9]] _).1 _ _ rfl hok
  cases hlocate.symm.trans hplace
  exact ⟨hok, hlater, by decide +kernel, hread later hlater "a/new/.././f" (by decide +kernel)⟩

end Storage
end Uncomment
