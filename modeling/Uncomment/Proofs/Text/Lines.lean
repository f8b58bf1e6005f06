import Mathlib.Data.List.Forall2
import Mathlib.Data.List.TakeWhile
import Uncomment.Text.Basic
import Uncomment.Proofs.Text.Blank

/-! # Lines, joined and cut

* Lines are read one after the other: behind a newline the lines of the rest follow
  (`lines_append_newline`), and one line gives itself, less a carriage return at its end
  (`lines_line`). Where the lines are divided, so is the text (`exists_append_of_lines_eq`);
* joining lines and cutting at newlines undo each other (`unlines_piecesAt`, `piecesAt_unlines`);
* reading lines loses newlines and the carriage returns directly before them, and nothing else:
  blanks only (`nonblank_flatten_lines`), and at least one carriage return where there was such a
  pair (`count_return_lines_lt`). Nothing comes in when lines are joined again, whole
  (`unlines_lines_sublist`) or in part (`unlines_sublist`). -/

namespace Uncomment.Text

/-- The text consists of whole lines: each of them is closed by a newline. -/
def WholeLines (t : Text) : Prop := t = [] ∨ ['\n'] <:+ t

instance (t : Text) : Decidable (WholeLines t) := inferInstanceAs (Decidable (_ ∨ _))

/-- A line less one carriage return at its end. -/
def dropReturn (l : Text) : Text := if ['\r'] <:+ l then l.dropLast else l

/-! ### Cutting into lines -/

@[simp] theorem flatten_consHead (c : Char) (ls : List Text) :
    (consHead c ls).flatten = c :: ls.flatten := by
  cases ls <;> rfl

theorem consHead_append {ls : List Text} (h : ls ≠ []) (c : Char) (ls' : List Text) :
    consHead c (ls ++ ls') = consHead c ls ++ ls' := by
  cases ls with
  | nil => contradiction
  | cons l ls => rfl

theorem mem_consHead {c : Char} {l : Text} {ls : List Text} (h : l ∈ consHead c ls) :
    l = [c] ∨ l ∈ ls ∨ ∃ k ∈ ls, l = c :: k := by
  cases ls with
  | nil => exact .inl (List.mem_singleton.1 h)
  | cons k ls =>
    rcases List.mem_cons.1 h with rfl | h
    · exact .inr (.inr ⟨k, List.mem_cons_self, rfl⟩)
    · exact .inr (.inl (List.mem_cons_of_mem _ h))

theorem newline_notMem_of_mem_lines {t l : Text} (h : l ∈ lines t) : '\n' ∉ l := by
  induction t generalizing l with
  | nil => simp at h
  | cons c r ih =>
    rw [lines] at h
    split at h
    · rcases List.mem_cons.1 h with rfl | h
      · exact List.not_mem_nil
      · exact ih h
    · next hc =>
      split at h
      · exact ih h
      · rcases mem_consHead h with rfl | h | ⟨k, hk, rfl⟩
        · simpa using Ne.symm hc
        · exact ih h
        · simpa [Ne.symm hc] using ih hk

theorem lines_concat_newline_ne_nil (x : Text) : lines (x ++ ['\n']) ≠ [] := by
  induction x with
  | nil => simp
  | cons c r ih =>
    rw [List.cons_append, lines]
    split
    · simp
    · split
      · exact ih
      · cases h : lines (r ++ ['\n']) <;> simp [consHead]

theorem lines_append_newline (x y : Text) :
    lines (x ++ '\n' :: y) = lines (x ++ ['\n']) ++ lines y := by
  induction x with
  | nil => simp
  | cons c r ih =>
    have hhead : (r ++ '\n' :: y).head? = (r ++ ['\n']).head? := by cases r <;> rfl
    simp only [List.cons_append, lines, hhead]
    split
    · rw [ih, List.cons_append]
    · split
      · exact ih
      · rw [ih, consHead_append (lines_concat_newline_ne_nil r)]

theorem lines_append {x : Text} (hx : WholeLines x) (y : Text) :
    lines (x ++ y) = lines x ++ lines y := by
  rcases hx with rfl | ⟨x, rfl⟩
  · rfl
  · simpa using lines_append_newline x y

theorem dropReturn_cons {c : Char} {r : Text} (h : c = '\r' → r ≠ []) :
    dropReturn (c :: r) = c :: dropReturn r := by
  cases r with
  | nil =>
    have hc : c ≠ '\r' := fun hc => h hc rfl
    simp [dropReturn, List.suffix_cons_iff, Ne.symm hc]
  | cons d r => simp [dropReturn, List.suffix_cons_iff, List.dropLast]; split <;> rfl

theorem dropReturn_append_cons {d : Char} (hd : d ≠ '\r') (x s : Text) :
    dropReturn (x ++ d :: s) = x ++ d :: dropReturn s := by
  induction x with
  | nil => exact dropReturn_cons fun h => absurd h hd
  | cons c x ih =>
    rw [List.cons_append, dropReturn_cons fun _ => by simp, ih]
    rfl

/-- A line without its newline comes out as it is, less a carriage return at its end. -/
theorem lines_line {l : Text} (hl : '\n' ∉ l) (y : Text) :
    lines (l ++ '\n' :: y) = dropReturn l :: lines y := by
  induction l with
  | nil => simp [dropReturn]
  | cons c r ih =>
    simp only [List.mem_cons, not_or] at hl
    have hc : c ≠ '\n' := Ne.symm hl.1
    by_cases h : c = '\r' ∧ r = []
    · obtain ⟨rfl, rfl⟩ := h
      simp [dropReturn]
    · have hhead : c = '\r' → (r ++ '\n' :: y).head? ≠ some '\n' := by
        rintro rfl
        cases r with
        | nil => simp at h
        | cons d r =>
          simp only [List.mem_cons, not_or] at hl
          simpa using Ne.symm hl.2.1
      rw [List.cons_append, lines_cons hc hhead, ih hl.2,
        dropReturn_cons fun hr hnil => h ⟨hr, hnil⟩]
      rfl

theorem lines_of_newline_notMem {l : Text} (hl : '\n' ∉ l) (hne : l ≠ []) : lines l = [l] := by
  induction l with
  | nil => contradiction
  | cons c r ih =>
    simp only [List.mem_cons, not_or] at hl
    have hhead : r.head? ≠ some '\n' := fun h => hl.2 (List.mem_of_mem_head? h)
    rw [lines_cons (Ne.symm hl.1) fun _ => hhead]
    cases r with
    | nil => rfl
    | cons d r => rw [ih hl.2 (by simp)]; rfl

/-- Where the lines of a text are divided, the text can be divided. -/
theorem exists_append_of_lines_eq {t : Text} {as bs : List Text} (h : lines t = as ++ bs)
    (hbs : bs ≠ []) : ∃ x y, t = x ++ y ∧ WholeLines x ∧ lines x = as ∧ lines y = bs := by
  induction as generalizing t with
  | nil => exact ⟨[], t, rfl, .inl rfl, rfl, h⟩
  | cons a as ih =>
    by_cases hmem : '\n' ∈ t
    · obtain ⟨l, r, rfl, hl⟩ := List.eq_append_cons_of_mem hmem
      rw [lines_line hl, List.cons_append, List.cons.injEq] at h
      obtain ⟨x, y, rfl, hx, hxs, hys⟩ := ih h.2
      refine ⟨l ++ '\n' :: x, y, by simp, ?_, ?_, hys⟩
      · rcases hx with rfl | ⟨z, rfl⟩
        · exact .inr ⟨l, rfl⟩
        · exact .inr ⟨l ++ '\n' :: z, by simp⟩
      · rw [lines_line hl, h.1, hxs]
    · -- without a newline there is one line at most
      have hlen : (lines t).length ≤ 1 := by
        by_cases hne : t = []
        · simp [hne]
        · simp [lines_of_newline_notMem hmem hne]
      have hpos := List.length_pos_iff.2 hbs
      simp only [h, List.cons_append, List.length_cons, List.length_append] at hlen
      omega

theorem exists_eq_dropReturn (l : Text) :
    ∃ w, isBlankText w = true ∧ l = dropReturn l ++ w := by
  by_cases h : ['\r'] <:+ l
  · obtain ⟨k, rfl⟩ := h
    exact ⟨['\r'], rfl, by simp [dropReturn]⟩
  · exact ⟨[], rfl, by simp [dropReturn, h]⟩

theorem trim_dropReturn (l : Text) : (dropReturn l).trim = l.trim := by
  obtain ⟨w, hw, h⟩ := exists_eq_dropReturn l
  conv => rhs; rw [h]
  rw [trim_append_blank hw]

theorem isBlankText_dropReturn (l : Text) : isBlankText (dropReturn l) = isBlankText l := by
  obtain ⟨w, hw, h⟩ := exists_eq_dropReturn l
  conv => rhs; rw [h, isBlankText_append, hw, Bool.and_true]

/-! ### Joining -/

theorem unlines_cons {ls : List Text} (h : ls ≠ []) (l : Text) :
    unlines (l :: ls) = l ++ '\n' :: unlines ls := by
  cases ls with
  | nil => contradiction
  | cons k ls => rfl

theorem unlines_consHead (c : Char) (ls : List Text) :
    unlines (consHead c ls) = c :: unlines ls := by
  rcases ls with _ | ⟨l, _ | ⟨k, ls⟩⟩ <;> rfl

theorem sublist_unlines_cons (l : Text) (ls : List Text) : List.Sublist l (unlines (l :: ls)) := by
  cases ls with
  | nil => exact List.Sublist.refl l
  | cons k ls => exact List.sublist_append_left ..

theorem unlines_sublist_cons (l : Text) (ls : List Text) :
    List.Sublist (unlines ls) (unlines (l :: ls)) := by
  cases ls with
  | nil => exact List.nil_sublist _
  | cons k ls => exact ((List.Sublist.refl _).cons '\n').trans (List.sublist_append_right ..)

/-- Parts of some of the lines, joined, are a part of all the lines joined: the newline between two
of the parts is one between two of the lines. -/
theorem unlines_sublist {ks ls : List Text} (h : List.SublistForall₂ List.Sublist ks ls) :
    List.Sublist (unlines ks) (unlines ls) := by
  induction h with
  | nil => exact List.nil_sublist _
  | @cons k l ks ls hk hks ih =>
    cases ks with
    | nil => exact hk.trans (sublist_unlines_cons l ls)
    | cons k' ks =>
      have hls : ls ≠ [] := by
        rintro rfl
        cases hks
      rw [unlines_cons (by simp) k, unlines_cons hls]
      exact hk.append (ih.cons_cons '\n')
  | @cons_right l ks ls _ ih => exact ih.trans (unlines_sublist_cons l ls)

theorem isInfix_unlines {l : Text} {ls : List Text} (h : l ∈ ls) : l <:+: unlines ls := by
  induction ls with
  | nil => cases h
  | cons k ls ih =>
    cases ls with
    | nil =>
      rw [List.mem_singleton.1 h]
      exact List.infix_rfl
    | cons k' ls =>
      rw [unlines_cons (by simp)]
      rcases List.mem_cons.1 h with rfl | h
      · exact (List.prefix_append ..).isInfix
      · exact (ih h).trans ((List.suffix_cons ..).trans (List.suffix_append ..)).isInfix

/-! ### Pieces between newlines -/

theorem takeWhile_ne_of_notMem {sep : Char} {x : Text} (h : sep ∉ x) :
    x.takeWhile (· ≠ sep) = x := by
  apply List.takeWhile_eq_self_iff.2
  intro c hc
  apply decide_eq_true
  rintro rfl
  exact h hc

theorem takeWhile_ne_append {sep : Char} {x : Text} (h : sep ∉ x) (y : Text) :
    (x ++ sep :: y).takeWhile (· ≠ sep) = x := by
  have hpos := List.takeWhile_eq_self_iff.1 (takeWhile_ne_of_notMem h)
  rw [List.takeWhile_append_of_pos hpos, List.takeWhile_cons_of_neg (by simp), List.append_nil]

theorem piecesAt_ne_nil (sep : Char) (t : Text) : piecesAt sep t ≠ [] := by
  cases t with
  | nil => simp [piecesAt]
  | cons c r =>
    rw [piecesAt]
    split
    · simp
    · cases piecesAt sep r <;> simp [consHead]

theorem piecesAt_append (sep : Char) (x y : Text) :
    piecesAt sep (x ++ sep :: y) = piecesAt sep x ++ piecesAt sep y := by
  induction x with
  | nil => simp [piecesAt]
  | cons c r ih =>
    simp only [List.cons_append, piecesAt, ih]
    split
    · rfl
    · exact consHead_append (piecesAt_ne_nil sep r) c _

theorem piecesAt_of_notMem {sep : Char} {x : Text} (h : sep ∉ x) : piecesAt sep x = [x] := by
  induction x with
  | nil => rfl
  | cons c r ih =>
    simp only [List.mem_cons, not_or] at h
    simp [piecesAt, Ne.symm h.1, ih h.2, consHead]

theorem piecesAt_append_of_notMem {sep : Char} {x : Text} (h : sep ∉ x) {y p : Text}
    {ps : List Text} (hy : piecesAt sep y = p :: ps) : piecesAt sep (x ++ y) = (x ++ p) :: ps := by
  induction x with
  | nil => exact hy
  | cons c r ih =>
    simp only [List.mem_cons, not_or] at h
    simp [piecesAt, Ne.symm h.1, ih h.2, consHead]

theorem notMem_of_mem_piecesAt {sep : Char} {t p : Text} (h : p ∈ piecesAt sep t) : sep ∉ p := by
  induction t generalizing p with
  | nil => simp [List.mem_singleton.1 h]
  | cons c r ih =>
    rw [piecesAt] at h
    split at h
    · rcases List.mem_cons.1 h with rfl | h
      · exact List.not_mem_nil
      · exact ih h
    · next hc =>
      rcases mem_consHead h with rfl | h | ⟨k, hk, rfl⟩
      · simpa using Ne.symm hc
      · exact ih h
      · simpa [Ne.symm hc] using ih hk

theorem subset_of_mem_piecesAt {sep : Char} {t p : Text} (h : p ∈ piecesAt sep t) : p ⊆ t := by
  induction t generalizing p with
  | nil => simp [List.mem_singleton.1 h]
  | cons c r ih =>
    rw [piecesAt] at h
    split at h
    · rcases List.mem_cons.1 h with rfl | h
      · exact List.nil_subset _
      · exact List.subset_cons_of_subset c (ih h)
    · rcases mem_consHead h with rfl | h | ⟨k, hk, rfl⟩
      · simp
      · exact List.subset_cons_of_subset c (ih h)
      · exact List.cons_subset_cons c (ih hk)

theorem isBlankText_of_mem_piecesAt {sep : Char} {t p : Text} (ht : isBlankText t = true)
    (h : p ∈ piecesAt sep t) : isBlankText p = true :=
  List.all_eq_true.2 fun _ hc => isBlank_of_mem ht (subset_of_mem_piecesAt h hc)

theorem unlines_piecesAt (t : Text) : unlines (piecesAt '\n' t) = t := by
  induction t with
  | nil => rfl
  | cons c r ih =>
    rw [piecesAt]
    split
    · next hc => rw [unlines_cons (piecesAt_ne_nil '\n' r), ih, hc]; rfl
    · rw [unlines_consHead, ih]

theorem piecesAt_unlines {ls : List Text} (hne : ls ≠ []) (h : ∀ l ∈ ls, '\n' ∉ l) :
    piecesAt '\n' (unlines ls) = ls := by
  induction ls with
  | nil => contradiction
  | cons l ls ih =>
    have hl := h l List.mem_cons_self
    cases ls with
    | nil => exact piecesAt_of_notMem hl
    | cons k ls =>
      rw [unlines_cons (by simp), piecesAt_append, piecesAt_of_notMem hl,
        ih (by simp) fun l hl => h l (List.mem_cons_of_mem _ hl)]
      rfl

theorem unlines_concat_append (xs : List Text) (l w : Text) :
    unlines (xs ++ [l]) ++ w = unlines (xs ++ [l ++ w]) := by
  induction xs with
  | nil => rfl
  | cons k xs ih =>
    rw [List.cons_append, List.cons_append, unlines_cons (by simp), unlines_cons (by simp), ← ih]
    simp

theorem piecesAt_append_of_notMem_right {x w : Text} (h : '\n' ∉ w) {xs : List Text} {l : Text}
    (hx : piecesAt '\n' x = xs ++ [l]) : piecesAt '\n' (x ++ w) = xs ++ [l ++ w] := by
  have hmem : ∀ k ∈ xs ++ [l], '\n' ∉ k := fun k hk => notMem_of_mem_piecesAt (hx ▸ hk)
  rw [← unlines_piecesAt x, hx, unlines_concat_append, piecesAt_unlines (by simp)]
  intro k hk
  rcases List.mem_append.1 hk with hk | hk
  · exact hmem k (List.mem_append_left _ hk)
  · rw [List.mem_singleton.1 hk, List.mem_append, not_or]
    exact ⟨hmem l (by simp), h⟩

theorem lines_unlines_concat {ls : List Text} (hne : ls ≠ []) (h : ∀ l ∈ ls, '\n' ∉ l) :
    lines (unlines ls ++ ['\n']) = ls.map dropReturn := by
  induction ls with
  | nil => contradiction
  | cons l ls ih =>
    have hl := h l List.mem_cons_self
    cases ls with
    | nil => exact lines_line hl []
    | cons k ls =>
      rw [unlines_cons (by simp), List.append_assoc, List.cons_append, lines_line hl,
        ih (by simp) fun l hl => h l (List.mem_cons_of_mem _ hl)]
      rfl

theorem lines_concat_newline_eq_map (t : Text) :
    lines (t ++ ['\n']) = (piecesAt '\n' t).map dropReturn := by
  conv => lhs; rw [← unlines_piecesAt t]
  exact lines_unlines_concat (piecesAt_ne_nil '\n' t) fun _ => notMem_of_mem_piecesAt

/-- Without a carriage return before a newline the lines are the pieces between newlines. -/
theorem lines_concat_newline {t : Text} (h : ¬ ['\r', '\n'] <:+: t ++ ['\n']) :
    lines (t ++ ['\n']) = piecesAt '\n' t := by
  induction t with
  | nil => rfl
  | cons c r ih =>
    rw [List.cons_append, List.infix_cons_iff, not_or] at h
    rw [List.cons_append, lines, piecesAt, ih h.2]
    split
    · rfl
    · rw [if_neg]
      rintro ⟨rfl, hr⟩
      refine h.1 ?_
      cases hs : r ++ ['\n'] with
      | nil => simp at hs
      | cons d s =>
        rw [hs, List.head?_cons, Option.some.injEq] at hr
        exact ⟨s, by simp [hr]⟩

/-! ### What is lost -/

theorem nonblank_unlines (ls : List Text) : nonblank (unlines ls) = nonblank ls.flatten := by
  induction ls with
  | nil => rfl
  | cons l ls ih =>
    cases ls with
    | nil => simp [unlines]
    | cons k ls => rw [unlines_cons (by simp), List.flatten_cons, nonblank_append, nonblank_newline,
        ih, nonblank_append]

theorem nonblank_flatten_lines (t : Text) : nonblank (lines t).flatten = nonblank t := by
  induction t with
  | nil => rfl
  | cons c r ih =>
    rw [lines]
    split
    · next hc => rw [hc, List.flatten_cons, List.nil_append, nonblank_newline, ih]
    · split
      · next hc => rw [hc.1, ih]; rfl
      · rw [flatten_consHead, nonblank_cons, nonblank_cons, ih]

theorem flatten_lines_sublist (t : Text) : List.Sublist (lines t).flatten t := by
  induction t with
  | nil => exact List.Sublist.refl _
  | cons c r ih =>
    rw [lines]
    split
    · exact ih.cons c
    · split
      · exact ih.cons c
      · rw [flatten_consHead]
        exact ih.cons_cons c

theorem unlines_lines_sublist (t : Text) : List.Sublist (unlines (lines t)) t := by
  induction t with
  | nil => exact List.Sublist.refl _
  | cons c r ih =>
    rw [lines]
    split
    · next hc =>
      cases h : lines r with
      | nil => exact List.nil_sublist _
      | cons l ls =>
        rw [h] at ih
        rw [hc, unlines_cons (by simp)]
        exact ih.cons_cons '\n'
    · split
      · exact ih.cons c
      · rw [unlines_consHead]
        exact ih.cons_cons c

theorem count_return_unlines (ls : List Text) :
    List.count '\r' (unlines ls) = ls.flatten.count '\r' := by
  induction ls with
  | nil => rfl
  | cons l ls ih =>
    cases ls with
    | nil => simp [unlines]
    | cons k ls => rw [unlines_cons (by simp), List.count_append, List.count_cons_of_ne (by decide),
        ih, ← List.count_append, List.flatten_cons (l := l)]

theorem count_return_lines_lt {t : Text} (h : ['\r', '\n'] <:+: t) :
    (lines t).flatten.count '\r' < List.count '\r' t := by
  induction t with
  | nil => simp at h
  | cons c r ih =>
    rcases List.infix_cons_iff.1 h with ⟨s, hs⟩ | h
    · have hle := (flatten_lines_sublist s).count_le '\r'
      rw [← hs]
      simp only [List.cons_append, List.nil_append, lines_return_newline, List.flatten_cons,
        List.count_cons_self, List.count_cons_of_ne (by decide : '\n' ≠ '\r')]
      omega
    · have hlt := ih h
      have hle : List.count '\r' r ≤ List.count '\r' (c :: r) :=
        (List.sublist_cons_self c r).count_le '\r'
      rw [lines]
      split
      · exact Nat.lt_of_lt_of_le hlt hle
      · split
        · exact Nat.lt_of_lt_of_le hlt hle
        · rw [flatten_consHead, List.count_cons, List.count_cons]
          exact Nat.add_lt_add_right hlt _

end Uncomment.Text
