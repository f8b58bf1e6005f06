import Uncomment.File.Storage
import Uncomment.Proofs.File.Tree

/-! # What writing does to a storage

A write makes the missing directories above its target and then puts the file there; either step can
fail (`Storage.write_cases`).

* If it succeeds, the path leads to a file with the data, and nothing else is new but directories on
  the way to it (`Tree.Written`, `Storage.written_of_write`);
* if it fails, at most directories on the way are new (`Storage.grown_of_write`). -/

namespace Uncomment

theorem Path.getD_parent? (p : Path) : p.parent?.getD [] = p.names.dropLast := by
  rw [parent?]
  split
  · next h => rw [names, List.isEmpty_iff.1 h]; rfl
  · rfl

/-- The file at the location `l`, to which `p` leads, is new or holds new data; every other entry of
`t` is as it was, and any further entry of `t'` is a directory on the way to the parent of `p`. -/
structure Tree.Written (t t' : Tree) (p : Path) (l : Location) (data : Bytes) : Prop where
  home : t'.home = t.home
  locate : t'.locate p = .ok l
  get?_self : t'.get? l = some (.file data)
  not_directory : t.get? l ≠ some .directory
  kept : ∀ {l' e}, l' ≠ l → t.get? l' = some e → t'.get? l' = some e
  new : ∀ {l' e}, l' ≠ l → t.get? l' = none → t'.get? l' = some e →
    e = .directory ∧ ∃ pre, pre <+: p.names.dropLast ∧ t'.walk (t'.origin p) pre = .ok l'

namespace Tree

variable {t t' : Tree} {p : Path} {l : Location} {data : Bytes}

theorem Grown.written (h : Grown t t' (t.origin p) p.names.dropLast) (hl : t'.target p = .ok l) :
    Written t (t'.put l (.file data)) p l data := by
  have hkeeps := keeps_put_target hl data
  obtain ⟨hlocate, hget⟩ := locate_put_target hl data
  obtain ⟨-, -, -, -, -, -, -, -, -, -, hdir⟩ := target_eq_ok hl
  refine ⟨h.home, hlocate, hget, fun hl' => hdir (h.kept hl'), fun hne hl' => ?_,
    fun hne hnone hsome => ?_⟩
  · rw [get?_put_of_ne _ _ hne]
    exact h.kept hl'
  · rw [get?_put_of_ne _ _ hne] at hsome
    obtain ⟨he, pre, hpre, hwalk⟩ := h.new hnone hsome
    refine ⟨he, pre, hpre, ?_⟩
    rw [hkeeps.origin, h.keeps.origin]
    exact hkeeps.walk hwalk

theorem Written.keeps (h : Written t t' p l data) : Keeps t t' where
  home := h.home
  directory {l'} hl' := by
    refine h.kept ?_ hl'
    rintro rfl
    exact h.not_directory hl'
  isSome {l'} hl' := by
    by_cases heq : l' = l
    · rw [heq, h.get?_self]
      rfl
    · obtain ⟨e, he⟩ := Option.isSome_iff_exists.1 hl'
      rw [h.kept heq he]
      rfl

theorem Written.read (h : Written t t' p l data) : t'.read p = .ok data :=
  read_eq_ok_iff.2 ⟨l, h.locate, h.get?_self⟩

/-- A path that leads to another file reads as before. -/
theorem Written.read_of_ne (h : Written t t' p l data) {q : Path} {old : Bytes}
    (hq : t.read q = .ok old) (hne : t'.locate q ≠ .ok l) : t'.read q = .ok old := by
  obtain ⟨l', hl', hget⟩ := read_eq_ok_iff.1 hq
  have hlocate := h.keeps.locate hl'
  refine read_eq_ok_iff.2 ⟨l', hlocate, h.kept ?_ hget⟩
  rintro rfl
  exact hne hlocate

end Tree

namespace Storage

theorem path_eq {s s' : Storage} (h : s'.base = s.base) (p : String) : s'.path p = s.path p := by
  rw [path, path, h]

/-- The location that a path means, seen from the base directory. -/
def locate (s : Storage) (p : String) : Except Fault Location := s.tree.locate (s.path p)

/-- The tree with the directories above a path made, as far as that is possible. -/
def makeParent (s : Storage) (p : String) : Tree × Except Fault Unit :=
  s.tree.makeDirs (s.tree.origin (s.path p)) (s.path p).names.dropLast.reverse

theorem grown_makeParent (s : Storage) (p : String) :
    s.tree.Grown (s.makeParent p).1 (s.tree.origin (s.path p)) (s.path p).names.dropLast := by
  have hgrown := s.tree.grown_makeDirs (s.tree.origin (s.path p)) (s.path p).names.dropLast.reverse
  rwa [List.reverse_reverse] at hgrown

theorem write_eq (s : Storage) (p : String) (data : Bytes) :
    s.write p data =
      match s.makeParent p with
      | (mid, .error e) => ({ s with tree := mid }, .error e)
      | (mid, .ok ()) =>
        match mid.write (s.path p) data with
        | .ok tree => ({ s with tree }, .ok ())
        | .error e => ({ s with tree := mid }, .error e) := by
  delta write makeParent
  rw [← Path.getD_parent?]
  generalize s.path p = path
  cases hp : path.parent? with
  | none =>
    simp only [hp]
    rfl
  | some steps =>
    simp only [hp, Option.getD_some]
    obtain ⟨mid, _ | _⟩ := s.tree.makeDirs (s.tree.origin path) steps.reverse <;> rfl

/-- What a write comes to: directories are made, and then the file is put into place or not. -/
theorem write_cases (s : Storage) (p : String) (data : Bytes) :
    ∃ mid, s.tree.Grown mid (s.tree.origin (s.path p)) (s.path p).names.dropLast ∧
      ((∃ e, s.write p data = ({ s with tree := mid }, .error e)) ∨
        ∃ l, mid.target (s.path p) = .ok l ∧
          s.write p data = ({ s with tree := mid.put l (.file data) }, .ok ())) := by
  have hgrown := s.grown_makeParent p
  rw [write_eq]
  cases h : s.makeParent p with
  | mk mid made =>
    rw [h] at hgrown
    refine ⟨mid, hgrown, ?_⟩
    cases made with
    | error e => exact .inl ⟨e, rfl⟩
    | ok u =>
      cases hl : mid.target (s.path p) with
      | error e => exact .inl ⟨e, by simp only [Tree.write, hl]; rfl⟩
      | ok l => exact .inr ⟨l, rfl, by simp only [Tree.write, hl]; rfl⟩

theorem written_of_write {s : Storage} {p : String} {data : Bytes}
    (h : (s.write p data).2 = .ok ()) :
    (s.write p data).1.base = s.base ∧
      ∃ l, s.tree.Written (s.write p data).1.tree (s.path p) l data := by
  obtain ⟨mid, hgrown, ⟨e, heq⟩ | ⟨l, hl, heq⟩⟩ := s.write_cases p data
  · rw [heq] at h
    cases h
  · rw [heq]
    exact ⟨rfl, l, hgrown.written hl⟩

theorem grown_of_write {s : Storage} {p : String} {data : Bytes} {e : Fault}
    (h : (s.write p data).2 = .error e) :
    s.tree.Grown (s.write p data).1.tree (s.tree.origin (s.path p)) (s.path p).names.dropLast := by
  obtain ⟨mid, hgrown, ⟨e, heq⟩ | ⟨l, hl, heq⟩⟩ := s.write_cases p data
  · rw [heq]
    exact hgrown
  · rw [heq] at h
    cases h

end Storage
end Uncomment
