import Uncomment.Strip
import Uncomment.Proofs.Text.Cut
import Uncomment.Proofs.Text.Blank

/-! # Runs of empty lines

What `runLength?` finds, and what becomes of a text that is laid out.

* A run starts at a newline from which the blanks run on over two more, and it reaches to the last
  newline among these blanks (`runLength?_of_blank`). The rest of the text, from the first character
  that is not blank, has no part in it (`runLength?_append_cons`);
* so a text is collapsed gap by gap (`collapse_append_cons`): a gap with fewer than three newlines
  stays as it is (`collapse_of_count_lt`), any other keeps what stands before its first newline and
  behind its last one, with two newlines between (`collapse_of_le_count`);
* collapsing is idempotent (`collapse_collapse`) and commutes with trimming (`trim_collapse`). -/

namespace Uncomment.Layout

open Text

/-! ### The reader of runs -/

/-- The number of characters up to the last newline and with it, zero if there is none. -/
def throughLast : Text → Nat
  | [] => 0
  | c :: r => if '\n' ∈ c :: r then throughLast r + 1 else 0

theorem throughLast_of_notMem {t : Text} (h : '\n' ∉ t) : throughLast t = 0 := by
  cases t with
  | nil => rfl
  | cons c r => rw [throughLast, if_neg h]

theorem throughLast_append {z : Text} (hz : '\n' ∉ z) (m : Text) :
    throughLast (m ++ '\n' :: z) = m.length + 1 := by
  induction m with
  | nil => simp [throughLast, throughLast_of_notMem hz]
  | cons c m ih => simp [throughLast, ih]

theorem exists_last_newline {t : Text} (h : 0 < List.count '\n' t) :
    ∃ m z, t = m ++ '\n' :: z ∧ '\n' ∉ z := by
  have hmem : '\n' ∈ t.reverse := List.mem_reverse.2 (List.count_pos_iff.1 h)
  obtain ⟨z, m, ht, hz⟩ := List.eq_append_cons_of_mem hmem
  refine ⟨m.reverse, z.reverse, ?_, by simpa using hz⟩
  rw [← List.reverse_reverse t, ht]
  simp

/-- On blanks with at most `j` newlines behind the first character, `k` reads through the last
newline, provided that it starts at a newline and has exactly `j` others before it. -/
structure Reads (j : Nat) (k : Text → Option Nat) : Prop where
  nil : k [] = none
  cons : ∀ {c r}, isBlankText (c :: r) = true → List.count '\n' r ≤ j →
    k (c :: r) = if c = '\n' ∧ List.count '\n' r = j then some (throughLast (c :: r)) else none

theorem reads_newline : Reads 0 (newline fun _ => some 0) where
  nil := rfl
  cons {c r} _ hr := by
    have hr0 : List.count '\n' r = 0 := by omega
    have hmem : '\n' ∉ r := List.count_eq_zero.1 hr0
    by_cases hc : c = '\n'
    · subst hc
      simp [newline, hr0, throughLast, throughLast_of_notMem hmem]
    · simp [newline, hc]

/-- Reading blanks greedily before `k`. The longest stretch is tried first, so `k` is asked at a
place only when too few newlines are left behind it. -/
theorem Reads.reach {j : Nat} {k : Text → Option Nat} (hk : Reads j k) {v : Text}
    (hv : isBlankText v = true) :
    reach k v = if j < List.count '\n' v then some (throughLast v) else none := by
  induction v with
  | nil => simp [Layout.reach, hk.nil]
  | cons c r ih =>
    have hb := hv
    simp only [isBlankText_cons, Bool.and_eq_true] at hb
    rw [Layout.reach, if_pos hb.1, ih hb.2]
    have hcons : List.count '\n' (c :: r) = List.count '\n' r + if c = '\n' then 1 else 0 := by
      simp [List.count_cons]
    -- either the blanks behind `c` have newlines enough, or `k` has to start at `c`
    by_cases hr : j < List.count '\n' r
    · have hmem : '\n' ∈ c :: r := List.mem_cons_of_mem _ (List.count_pos_iff.1 (by omega))
      rw [if_pos hr, if_pos (by omega), throughLast, if_pos hmem]
      rfl
    · have hiff : c = '\n' ∧ List.count '\n' r = j ↔ j < List.count '\n' (c :: r) := by
        rw [hcons]
        by_cases hc : c = '\n'
        · rw [and_iff_right hc, if_pos hc]
          omega
        · rw [if_neg hc]
          exact iff_of_false (fun h => hc h.1) (by omega)
      rw [if_neg hr, hk.cons hv (by omega), Option.map_none, Option.none_or]
      simp only [hiff]

theorem Reads.newline_reach {j : Nat} {k : Text → Option Nat} (hk : Reads j k) {c : Char} {r : Text}
    (h : isBlankText (c :: r) = true) :
    newline (Layout.reach k) (c :: r) =
      if c = '\n' ∧ j < List.count '\n' r then some (throughLast (c :: r)) else none := by
  simp only [isBlankText_cons, Bool.and_eq_true] at h
  by_cases hc : c = '\n'
  · subst hc
    rw [newline, if_pos rfl, hk.reach h.2]
    by_cases hr : j < List.count '\n' r <;> simp [hr, throughLast]
  · simp [newline, hc]

theorem Reads.succ {j : Nat} {k : Text → Option Nat} (hk : Reads j k) :
    Reads (j + 1) (newline (Layout.reach k)) where
  nil := rfl
  cons {c r} h hr := by
    have hiff : j < List.count '\n' r ↔ List.count '\n' r = j + 1 := by omega
    rw [hk.newline_reach h]
    simp only [hiff]

theorem runLength?_of_blank {c : Char} {r : Text} (h : isBlankText (c :: r) = true) :
    runLength? (c :: r) =
      if c = '\n' ∧ 2 ≤ List.count '\n' r then some (throughLast (c :: r)) else none :=
  reads_newline.succ.newline_reach h

/-- A reader does not see past a character that is not blank. -/
def Stops (k : Text → Option Nat) : Prop :=
  ∀ s {c} y, isBlank c = false → k (s ++ c :: y) = k s

theorem Stops.newline {k : Text → Option Nat} (hk : Stops k) : Stops (newline k) := by
  intro s c y hc
  cases s with
  | nil =>
    have hne : c ≠ '\n' := ne_of_not_blank hc rfl
    simp [Layout.newline, hne]
  | cons d s => simp only [List.cons_append, Layout.newline, hk s y hc]

theorem Stops.reach {k : Text → Option Nat} (hk : Stops k) : Stops (reach k) := by
  intro s c y hc
  induction s with
  | nil => simpa [Layout.reach, hc] using hk [] y hc
  | cons d s ih =>
    simp only [List.cons_append, Layout.reach, ih]
    rw [← List.cons_append, hk (d :: s) y hc]

theorem runLength?_append_cons {c : Char} (hc : isBlank c = false) (s y : Text) :
    runLength? (s ++ c :: y) = runLength? s :=
  have hend : Stops fun _ => some 0 := fun _ _ _ _ => rfl
  hend.newline.reach.newline.reach.newline s y hc

/-- A run lies between two newlines, with a third newline and nothing but blanks between them, and
no newline follows it among the blanks. -/
theorem exists_of_runLength?_eq_some {t : Text} {n : Nat} (h : runLength? t = some n) :
    ∃ m r, isBlankText m = true ∧ '\n' ∈ m ∧ t = '\n' :: (m ++ '\n' :: r) ∧ n = m.length + 2 := by
  -- only the blanks at the start count
  obtain ⟨v, r, hv, rfl, hrun⟩ : ∃ v r, isBlankText v = true ∧ t = v ++ r ∧
      runLength? v = some n := by
    cases ht : isBlankText t with
    | true => exact ⟨t, [], ht, by simp, h⟩
    | false =>
      obtain ⟨w, c, r, hw, hc, rfl⟩ := exists_not_blank ht
      rw [runLength?_append_cons hc] at h
      exact ⟨w, c :: r, hw, rfl, h⟩
  cases v with
  | nil => cases hrun
  | cons c v =>
    rw [runLength?_of_blank hv] at hrun
    split at hrun
    · next hrun' =>
      obtain ⟨rfl, hcount⟩ := hrun'
      obtain ⟨m, z, rfl, hz⟩ := exists_last_newline (by omega : 0 < List.count '\n' v)
      rw [← List.cons_append, throughLast_append hz] at hrun
      have hz0 : List.count '\n' z = 0 := List.count_eq_zero.2 hz
      rw [List.count_append, List.count_cons_self, hz0] at hcount
      simp only [isBlankText_cons, isBlankText_append, Bool.and_eq_true] at hv
      refine ⟨m, z ++ r, hv.2.1, List.count_pos_iff.1 (by omega), by simp, ?_⟩
      simpa [Nat.add_assoc] using (Option.some.inj hrun).symm
    · cases hrun

theorem bounded_runLength? : Bounded runLength? := by
  intro s n h
  obtain ⟨m, r, -, -, rfl, rfl⟩ := exists_of_runLength?_eq_some h
  simp only [List.length_cons, List.length_append]
  omega

/-! ### Collapsing -/

@[simp] theorem collapse_nil : collapse [] = [] := rfl

theorem collapse_cons {c : Char} {r : Text} (h : runLength? (c :: r) = none) :
    collapse (c :: r) = c :: collapse r := replace_cons_of_none h _

theorem collapse_run {m r : Text}
    (h : runLength? ('\n' :: (m ++ '\n' :: r)) = some (m.length + 2)) :
    collapse ('\n' :: (m ++ '\n' :: r)) = '\n' :: '\n' :: collapse r := by
  rw [collapse, bounded_runLength?.replace_of_some h]
  simp [collapse]

/-- Induction along the characters and runs of a text. -/
theorem collapse_induction {motive : Text → Prop} (nil : motive [])
    (char : ∀ c r, runLength? (c :: r) = none → motive r → motive (c :: r))
    (run : ∀ m r, isBlankText m = true → '\n' ∈ m →
      runLength? ('\n' :: (m ++ '\n' :: r)) = some (m.length + 2) → motive r →
      motive ('\n' :: (m ++ '\n' :: r))) (t : Text) : motive t := by
  induction t using bounded_runLength?.cut_induction with
  | nil => exact nil
  | char c r h ih => exact char c r h ih
  | stretch s n h ih =>
    obtain ⟨m, r, hm, hmem, rfl, rfl⟩ := exists_of_runLength?_eq_some h
    exact run m r hm hmem h (by simpa using ih)

theorem nonblank_collapse (t : Text) : nonblank (collapse t) = nonblank t := by
  induction t using collapse_induction with
  | nil => rfl
  | char c r h ih => rw [collapse_cons h, nonblank_cons, nonblank_cons, ih]
  | run m r hm _ h ih =>
    rw [collapse_run h]
    simp [ih, nonblank_eq_nil_iff.2 hm]

theorem isBlankText_collapse (t : Text) : isBlankText (collapse t) = isBlankText t := by
  rw [Bool.eq_iff_iff, ← nonblank_eq_nil_iff, nonblank_collapse, nonblank_eq_nil_iff]

theorem collapse_sublist (t : Text) : List.Sublist (collapse t) t := by
  induction t using collapse_induction with
  | nil => exact List.Sublist.refl _
  | char c r h ih =>
    rw [collapse_cons h]
    exact ih.cons_cons c
  | run m r _ _ h ih =>
    rw [collapse_run h]
    exact ((ih.cons_cons '\n').trans (List.sublist_append_right ..)).cons_cons '\n'

theorem newline_mem_collapse_iff {t : Text} : '\n' ∈ collapse t ↔ '\n' ∈ t := by
  refine ⟨fun h => (collapse_sublist t).subset h, fun h => ?_⟩
  induction t using collapse_induction with
  | nil => exact h
  | char c r hnone ih =>
    rw [collapse_cons hnone]
    rcases List.mem_cons.1 h with rfl | h
    · exact List.mem_cons_self
    · exact List.mem_cons_of_mem _ (ih h)
  | run m r _ _ hrun _ =>
    rw [collapse_run hrun]
    exact List.mem_cons_self

/-- A character that is not blank separates what is collapsed before it and behind it. -/
theorem collapse_append_cons {c : Char} (hc : isBlank c = false) (x y : Text) :
    collapse (x ++ c :: y) = collapse x ++ c :: collapse y := by
  have hcut := bounded_runLength?.cut_append (P := fun _ => True) (x := x) (y := c :: y)
    (fun s _ _ => runLength?_append_cons hc s y) (fun _ _ _ _ => trivial) (fun _ _ _ _ => trivial)
    trivial
  have hnone : runLength? (c :: y) = none := runLength?_append_cons hc [] y
  rw [collapse, replace, hcut, List.flatMap_append, cut_cons_of_none hnone]
  rfl

/-- A gap with fewer than three newlines stays as it is. -/
theorem collapse_of_count_lt {w : Text} (h : List.count '\n' w < 3) : collapse w = w := by
  refine bounded_runLength?.replace_eq_self (bounded_runLength?.countStretches_eq_zero_iff.2 ?_) _
  intro s hs
  cases hrun : runLength? s with
  | none => rfl
  | some n =>
    obtain ⟨m, r, -, hm, rfl, -⟩ := exists_of_runLength?_eq_some hrun
    have hle := hs.sublist.count_le '\n'
    have hpos := List.count_pos_iff.2 hm
    simp only [List.count_cons_self, List.count_append] at hle
    omega

theorem collapse_of_newline_notMem {t : Text} (h : '\n' ∉ t) : collapse t = t :=
  collapse_of_count_lt (by rw [List.count_eq_zero.2 h]; omega)

/-- Of a gap with three newlines or more, what stands before the first and behind the last is kept,
and two newlines between. -/
theorem collapse_of_le_count {w : Text} (hw : isBlankText w = true) (h : 3 ≤ List.count '\n' w) :
    collapse w = w.takeWhile (· ≠ '\n') ++ '\n' :: '\n' :: w.drop (throughLast w) := by
  induction w with
  | nil => simp at h
  | cons c r ih =>
    have hrun := runLength?_of_blank hw
    by_cases hc : c = '\n'
    · subst hc
      rw [List.count_cons_self] at h
      rw [if_pos ⟨rfl, by omega⟩] at hrun
      obtain ⟨m, z, rfl, hz⟩ := exists_last_newline (by omega : 0 < List.count '\n' r)
      rw [← List.cons_append, throughLast_append hz] at hrun ⊢
      rw [List.cons_append, collapse_run hrun, collapse_of_newline_notMem hz]
      simp
    · rw [List.count_cons_of_ne hc] at h
      rw [if_neg fun h => hc h.1] at hrun
      simp only [isBlankText_cons, Bool.and_eq_true] at hw
      have hmem : '\n' ∈ c :: r := List.mem_cons_of_mem _ (List.count_pos_iff.1 (by omega))
      rw [collapse_cons hrun, ih hw.2 h, throughLast, if_pos hmem]
      simp [hc]

theorem count_newline_collapse_lt {w : Text} (hw : isBlankText w = true) :
    List.count '\n' (collapse w) < 3 := by
  by_cases h : List.count '\n' w < 3
  · rwa [collapse_of_count_lt h]
  · have hbefore : List.count '\n' (w.takeWhile (· ≠ '\n')) = 0 := by
      refine List.count_eq_zero.2 fun hmem => ?_
      have := List.all_eq_true.1 List.all_takeWhile _ hmem
      simp at this
    have hbehind : List.count '\n' (w.drop (throughLast w)) = 0 := by
      obtain ⟨m, z, rfl, hz⟩ := exists_last_newline (by omega : 0 < List.count '\n' w)
      rw [throughLast_append hz]
      simpa [List.count_eq_zero] using hz
    rw [collapse_of_le_count hw (by omega), List.count_append, List.count_cons_self,
      List.count_cons_self, hbefore, hbehind]
    omega

theorem collapse_collapse (t : Text) : collapse (collapse t) = collapse t := by
  induction t using gap_induction with
  | blank w hw => exact collapse_of_count_lt (count_newline_collapse_lt hw)
  | step w c r hw hc ih =>
    rw [collapse_append_cons hc, collapse_append_cons hc, ih,
      collapse_of_count_lt (count_newline_collapse_lt hw)]

/-! ### Collapsing and trimming -/

theorem trimLeft_collapse (t : Text) : trimLeft (collapse t) = collapse (trimLeft t) := by
  cases ht : isBlankText t with
  | true =>
    rw [trimLeft_eq_nil_iff.2 ht, trimLeft_eq_nil_iff.2 (by rw [isBlankText_collapse, ht])]
    rfl
  | false =>
    obtain ⟨w, c, r, hw, hc, rfl⟩ := exists_not_blank ht
    have hw' : isBlankText (collapse w) = true := by rw [isBlankText_collapse, hw]
    rw [collapse_append_cons hc, trimLeft_append_cons hc, trimLeft_append_cons hc,
      trimLeft_eq_nil_iff.2 hw, trimLeft_eq_nil_iff.2 hw']
    exact (collapse_append_cons hc [] r).symm

theorem trimRight_collapse (t : Text) : trimRight (collapse t) = collapse (trimRight t) := by
  cases ht : isBlankText t with
  | true =>
    rw [trimRight_eq_nil_iff.2 ht, trimRight_eq_nil_iff.2 (by rw [isBlankText_collapse, ht])]
    rfl
  | false =>
    obtain ⟨r, c, w, hw, hc, rfl⟩ := exists_not_blank_last ht
    have hw' : isBlankText (collapse w) = true := by rw [isBlankText_collapse, hw]
    rw [collapse_append_cons hc, trimRight_append_cons hc, trimRight_append_cons hc,
      trimRight_eq_nil_iff.2 hw, trimRight_eq_nil_iff.2 hw', collapse_append_cons hc]
    rfl

theorem trim_collapse (t : Text) : trim (collapse t) = collapse (trim t) := by
  rw [trim, trimLeft_collapse, trimRight_collapse, trim]

/-! ### The final form -/

theorem finish_eq_collapse_trim (j : Text) : finish j = collapse (trim j) ++ ['\n'] := by
  rw [finish, trim_collapse]

theorem nonblank_finish (j : Text) : nonblank (finish j) = nonblank j := by
  rw [finish, nonblank_append, nonblank_trim, nonblank_collapse, nonblank_newline]
  exact List.append_nil _

theorem count_return_finish_le (j : Text) : List.count '\r' (finish j) ≤ List.count '\r' j := by
  have h := ((trim_sublist _).trans (collapse_sublist j)).count_le '\r'
  rwa [finish, List.count_append, List.count_cons_of_ne (by decide)]

/-- A part of one line that neither starts nor ends with a blank is still there in the final
form. -/
theorem isInfix_finish {c d : Char} (hc : isBlank c = false) (hd : isBlank d = false) {m : Text}
    (hm : '\n' ∉ m) {j : Text} (h : c :: (m ++ [d]) <:+: j) : c :: (m ++ [d]) <:+: finish j := by
  obtain ⟨x, y, rfl⟩ := h
  have hj : x ++ c :: (m ++ [d]) ++ y = x ++ c :: (m ++ d :: y) := by simp
  have hcollapse : collapse (x ++ c :: (m ++ d :: y)) =
      collapse x ++ c :: (m ++ d :: collapse y) := by
    rw [collapse_append_cons hc, collapse_append_cons hd, collapse_of_newline_notMem hm]
  refine ⟨trimLeft (collapse x), trimRight (collapse y) ++ ['\n'], ?_⟩
  rw [finish, hj, hcollapse, trim, trimLeft_append_cons hc]
  have hr := trimRight_append_cons hd (trimLeft (collapse x) ++ c :: m) (collapse y)
  simp only [List.append_assoc, List.cons_append] at hr
  rw [hr]
  simp

end Uncomment.Layout
