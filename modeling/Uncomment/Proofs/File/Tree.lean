import Uncomment.File.Tree
import Uncomment.Trace

/-! # What the operations on a tree do to it

No operation takes an entry away or makes a file of a directory; `Tree.Keeps t t'` says so of a tree
before and after. Where a path led before, it leads afterwards (`Keeps.walk`, `Keeps.locate`).

* Making directories adds directories on the way, and nothing else, whether it succeeds or not
  (`Tree.Grown`, `grown_makeDirs`);
* writing puts a file where the path leads to from then on (`locate_put_target`). -/

namespace Uncomment.Tree

variable {t t' t'' : Tree}

/-- `t'` has every entry of `t`, and a directory where `t` has one. -/
structure Keeps (t t' : Tree) : Prop where
  home : t'.home = t.home
  directory : ∀ {l}, t.get? l = some .directory → t'.get? l = some .directory
  isSome : ∀ {l}, (t.get? l).isSome = true → (t'.get? l).isSome = true

/-! ### Walking -/

theorem walk_append (l : Location) (xs ys : List Step) :
    t.walk l (xs ++ ys) = t.walk l xs >>= fun l' => t.walk l' ys := by
  induction xs generalizing l with
  | nil => rfl
  | cons s r ih =>
    cases s with
    | here | up =>
      rw [List.cons_append, walk, walk]
      split
      · exact ih _
      · rfl
    | down name =>
      rw [List.cons_append, walk, walk]
      split
      · split
        · rfl
        · split
          · exact ih _
          · rfl
      · rfl

theorem walk_concat_down {start l : Location} {steps : List Step} {name : String}
    (hsteps : t.walk start steps = .ok l) (hl : t.get? l = some .directory)
    (hname : name.utf8ByteSize ≤ maxName) (hsome : (t.get? (l ++ [name])).isSome = true) :
    t.walk start (steps ++ [.down name]) = .ok (l ++ [name]) := by
  rw [walk_append, hsteps]
  change t.walk l [.down name] = _
  rw [walk, if_pos hl, if_neg (Nat.not_lt.2 hname), if_pos hsome]
  rfl

theorem Keeps.walk (h : Keeps t t') {start l : Location} {steps : List Step}
    (hsteps : t.walk start steps = .ok l) : t'.walk start steps = .ok l := by
  induction steps generalizing start with
  | nil => exact hsteps
  | cons s r ih =>
    cases s with
    | here | up =>
      rw [Tree.walk] at hsteps ⊢
      split at hsteps
      · next hdir =>
        rw [if_pos (h.directory hdir)]
        exact ih hsteps
      · cases hsteps
    | down name =>
      rw [Tree.walk] at hsteps ⊢
      split at hsteps
      · next hdir =>
        rw [if_pos (h.directory hdir)]
        split at hsteps
        · cases hsteps
        · next hname =>
          rw [if_neg hname]
          split at hsteps
          · next hsome =>
            rw [if_pos (h.isSome hsome)]
            exact ih hsteps
          · cases hsteps
      · cases hsteps

theorem Keeps.origin (h : Keeps t t') (p : Path) : t'.origin p = t.origin p := by
  rw [Tree.origin, Tree.origin, h.home]

theorem locate_eq_ok_iff {p : Path} {l : Location} :
    t.locate p = .ok l ↔ hasNul p.steps = false ∧ (p.steps.isEmpty && !p.absolute) = false ∧
      t.walk (t.origin p) p.steps = .ok l ∧ (p.slash = true → t.get? l = some .directory) := by
  rw [locate]
  split
  · next hnul => exact iff_of_false (nomatch ·) fun h => absurd hnul (by simp [h.1])
  · next hnul =>
    rw [and_iff_right (Bool.eq_false_iff.2 hnul)]
    split
    · next hempty => exact iff_of_false (nomatch ·) fun h => absurd hempty (by simp [h.1])
    · next hempty =>
      rw [and_iff_right (Bool.eq_false_iff.2 hempty), bind_eq_ok_iff]
      constructor
      · rintro ⟨l', hwalk, h⟩
        split at h
        · cases h
        · next hslash =>
          cases h
          refine ⟨hwalk, fun hs => ?_⟩
          simpa [hs] using hslash
      · rintro ⟨hwalk, hslash⟩
        refine ⟨l, hwalk, if_neg ?_⟩
        simpa using hslash

theorem Keeps.locate (h : Keeps t t') {p : Path} {l : Location} (hl : t.locate p = .ok l) :
    t'.locate p = .ok l := by
  obtain ⟨hnul, hempty, hwalk, hslash⟩ := locate_eq_ok_iff.1 hl
  refine locate_eq_ok_iff.2 ⟨hnul, hempty, ?_, fun hs => h.directory (hslash hs)⟩
  rw [h.origin]
  exact h.walk hwalk

/-! ### Reading -/

theorem entry_eq_ok_iff {p : Path} {e : Entry} :
    t.entry p = .ok e ↔ ∃ l, t.locate p = .ok l ∧ t.get? l = some e := by
  rw [entry, bind_eq_ok_iff]
  refine exists_congr fun l => and_congr_right fun _ => ?_
  cases t.get? l <;> simp

theorem read_eq_ok_iff {p : Path} {data : Bytes} :
    t.read p = .ok data ↔ ∃ l, t.locate p = .ok l ∧ t.get? l = some (.file data) := by
  rw [read, bind_eq_ok_iff, ← entry_eq_ok_iff]
  constructor
  · rintro ⟨e, he, h⟩
    cases e with
    | directory => cases h
    | file data' =>
      cases h
      exact he
  · intro h
    exact ⟨.file data, h, rfl⟩

theorem size_of_read {p : Path} {data : Bytes} (h : t.read p = .ok data) :
    t.size p = .ok data.length := by
  have hentry : t.entry p = .ok (.file data) := entry_eq_ok_iff.2 (read_eq_ok_iff.1 h)
  rw [size, hentry]
  rfl

/-! ### New entries -/

theorem newEntry_eq_ok_iff {l new : Location} {name : String} :
    t.newEntry l name = .ok new ↔
      t.get? l = some .directory ∧ name.utf8ByteSize ≤ maxName ∧ l ++ [name] = new := by
  rw [newEntry]
  split
  · next hl =>
    rw [and_iff_right hl]
    split
    · next hname => exact iff_of_false (nomatch ·) fun h => absurd h.1 (by omega)
    · next hname =>
      rw [and_iff_right (Nat.le_of_not_lt hname)]
      exact ⟨fun h => Except.ok.inj h, fun h => congrArg _ h⟩
  · next hl => exact iff_of_false (nomatch ·) fun h => hl h.1

theorem keeps_put {l : Location} {e : Entry} (hl : l ≠ [])
    (he : t.get? l = some .directory → e = .directory) : Keeps t (t.put l e) where
  home := rfl
  directory {l'} h := by
    by_cases heq : l' = l
    · subst heq
      rw [get?_put_self t e hl, he h]
    · rwa [get?_put_of_ne t e heq]
  isSome {l'} h := by
    by_cases heq : l' = l
    · subst heq
      rw [get?_put_self t e hl]
      rfl
    · rwa [get?_put_of_ne t e heq]

/-! ### Making directories -/

/-- `t'` has what `t` has, and besides it at most directories to which a part of the way `steps`
from `start` leads. -/
structure Grown (t t' : Tree) (start : Location) (steps : List Step) : Prop where
  home : t'.home = t.home
  kept : ∀ {l e}, t.get? l = some e → t'.get? l = some e
  new : ∀ {l e}, t.get? l = none → t'.get? l = some e →
    e = .directory ∧ ∃ pre, pre <+: steps ∧ t'.walk start pre = .ok l

variable {start : Location} {steps steps' : List Step}

theorem Grown.keeps (h : Grown t t' start steps) : Keeps t t' where
  home := h.home
  directory := h.kept
  isSome {l} hl := by
    obtain ⟨e, he⟩ := Option.isSome_iff_exists.1 hl
    rw [h.kept he]
    rfl

/-- No file is new, and none is gone or changed. -/
theorem Grown.get?_eq_file_iff (h : Grown t t' start steps) {l : Location} {data : Bytes} :
    t'.get? l = some (.file data) ↔ t.get? l = some (.file data) := by
  refine ⟨fun h' => ?_, h.kept⟩
  cases hl : t.get? l with
  | none => exact nomatch (h.new hl h').1
  | some e => rw [← h', h.kept hl]

theorem Grown.refl (t : Tree) (start : Location) (steps : List Step) : Grown t t start steps where
  home := rfl
  kept := id
  new hnone hsome := by
    rw [hnone] at hsome
    cases hsome

theorem Grown.of_isPrefix (h : Grown t t' start steps) (hs : steps <+: steps') :
    Grown t t' start steps' where
  home := h.home
  kept := h.kept
  new hnone hsome := by
    obtain ⟨hdir, pre, hpre, hwalk⟩ := h.new hnone hsome
    exact ⟨hdir, pre, hpre.trans hs, hwalk⟩

theorem Grown.trans (h : Grown t t' start steps) (h' : Grown t' t'' start steps) :
    Grown t t'' start steps where
  home := h'.home.trans h.home
  kept hl := h'.kept (h.kept hl)
  new {l e} hnone hsome := by
    cases hl : t'.get? l with
    | none => exact h'.new hl hsome
    | some e' =>
      -- the entry was made on the way to `t'` and has stayed
      obtain ⟨hdir, pre, hpre, hwalk⟩ := h.new hnone hl
      rw [h'.kept hl] at hsome
      cases hsome
      exact ⟨hdir, pre, hpre, h'.keeps.walk hwalk⟩

theorem makeDir_eq_ok {steps : List Step} (h : t.makeDir start steps = .ok t') :
    ∃ init l name, steps = init ++ [.down name] ∧ t.walk start init = .ok l ∧
      t.get? l = some .directory ∧ name.utf8ByteSize ≤ maxName ∧ t.get? (l ++ [name]) = none ∧
      t' = t.put (l ++ [name]) .directory := by
  rw [makeDir] at h
  split at h
  · cases h
  · obtain ⟨l, hwalk, h⟩ := bind_eq_ok_iff.1 h
    split at h
    · next name hlast =>
      obtain ⟨new, hnew, h⟩ := bind_eq_ok_iff.1 h
      obtain ⟨hl, hname, rfl⟩ := newEntry_eq_ok_iff.1 hnew
      split at h
      · cases h
      · next hnone =>
        cases h
        obtain ⟨init, rfl⟩ := List.getLast?_eq_some_iff.1 hlast
        rw [List.dropLast_concat] at hwalk
        exact ⟨init, l, name, rfl, hwalk, hl, hname, Option.not_isSome_iff_eq_none.1 hnone, rfl⟩
    · split at h <;> cases h

theorem grown_makeDir {steps : List Step} (h : t.makeDir start steps = .ok t') :
    Grown t t' start steps := by
  obtain ⟨init, l, name, rfl, hwalk, hl, hname, hnone, rfl⟩ := makeDir_eq_ok h
  have hne : l ++ [name] ≠ [] := by simp
  have hkeeps : Keeps t (t.put (l ++ [name]) .directory) := keeps_put hne fun _ => rfl
  have hself := get?_put_self t .directory hne
  refine ⟨rfl, fun {l' e} hl' => ?_, fun {l' e} hl' hsome => ?_⟩
  · rw [get?_put_of_ne]
    · exact hl'
    · rintro rfl
      rw [hnone] at hl'
      cases hl'
  · by_cases heq : l' = l ++ [name]
    · subst heq
      rw [hself] at hsome
      cases hsome
      refine ⟨rfl, init ++ [.down name], List.prefix_rfl, ?_⟩
      exact walk_concat_down (hkeeps.walk hwalk) (hkeeps.directory hl) hname (by rw [hself]; rfl)
    · rw [get?_put_of_ne t .directory heq, hl'] at hsome
      cases hsome

theorem grown_makeDirs (t : Tree) (start : Location) (back : List Step) :
    Grown t (t.makeDirs start back).1 start back.reverse := by
  induction back with
  | nil => exact .refl ..
  | cons s back ih =>
    have hpre : back.reverse <+: (s :: back).reverse := by
      rw [List.reverse_cons]
      exact List.prefix_append ..
    rw [makeDirs]
    split
    · next t' h => exact grown_makeDir h
    · split
      · next t' e h =>
        rw [h] at ih
        exact ih.of_isPrefix hpre
      · next t' h =>
        rw [h] at ih
        split
        · next t'' h' => exact (ih.of_isPrefix hpre).trans (grown_makeDir h')
        · exact ih.of_isPrefix hpre
    · exact .refl ..

/-! ### Writing -/

theorem target_eq_ok {p : Path} {new : Location} (h : t.target p = .ok new) :
    hasNul p.steps = false ∧ p.slash = false ∧
      ∃ init l name, p.steps = init ++ [.down name] ∧ t.walk (t.origin p) init = .ok l ∧
        t.get? l = some .directory ∧ name.utf8ByteSize ≤ maxName ∧ new = l ++ [name] ∧
        t.get? new ≠ some .directory := by
  rw [target] at h
  split at h
  · cases h
  · next hnul =>
    change (if _ then _ else _) = _ at h
    split at h
    · cases h
    · obtain ⟨l, hwalk, h⟩ := bind_eq_ok_iff.1 h
      split at h
      · next name hlast =>
        split at h
        · cases h
        · split at h
          · cases h
          · next hslash =>
            obtain ⟨new', hnew, h⟩ := bind_eq_ok_iff.1 h
            obtain ⟨hl, hname, rfl⟩ := newEntry_eq_ok_iff.1 hnew
            split at h
            · cases h
            · next hdir =>
              cases h
              obtain ⟨init, hsteps⟩ := List.getLast?_eq_some_iff.1 hlast
              rw [hsteps, List.dropLast_concat] at hwalk
              exact ⟨Bool.eq_false_iff.2 hnul, Bool.eq_false_iff.2 hslash, init, l, name, hsteps,
                hwalk, hl, hname, rfl, hdir⟩
      · split at h <;> cases h

theorem keeps_put_target {p : Path} {l : Location} (h : t.target p = .ok l) (data : Bytes) :
    Keeps t (t.put l (.file data)) := by
  obtain ⟨-, -, init, dir, name, -, -, -, -, rfl, hdir⟩ := target_eq_ok h
  exact keeps_put (by simp) fun h => absurd h hdir

/-- Afterwards the path leads to the file that was written. -/
theorem locate_put_target {p : Path} {l : Location} (h : t.target p = .ok l) (data : Bytes) :
    (t.put l (.file data)).locate p = .ok l ∧
      (t.put l (.file data)).get? l = some (.file data) := by
  have hkeeps := keeps_put_target h data
  obtain ⟨hnul, hslash, init, dir, name, hsteps, hwalk, hdir, hname, rfl, -⟩ := target_eq_ok h
  have hself := get?_put_self t (.file data) (l := dir ++ [name]) (by simp)
  refine ⟨locate_eq_ok_iff.2 ⟨hnul, by simp [hsteps], ?_, fun hs => ?_⟩, hself⟩
  case refine_2 =>
    rw [hslash] at hs
    cases hs
  rw [hsteps, hkeeps.origin]
  exact walk_concat_down (hkeeps.walk hwalk) (hkeeps.directory hdir) hname (by rw [hself]; rfl)

end Uncomment.Tree
