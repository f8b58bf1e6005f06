import Mathlib.Data.List.Chain
import Uncomment.Proofs.Layout
import Uncomment.Proofs.Text.Lines

/-! # Blank lines between other lines

What laying out does to lines. A stretch of blank lines before a line that is not blank is one gap
of the text, with one newline more than it has lines. So two or more of them become one empty line
(`squeeze`), and every other line stays as it is (`collapse_onNewLines`).

It is easier to collapse lines that are all written behind a newline (`onNewLines`) than lines with
newlines between them; the first newline is trimmed in the end (`finish_unlines`). -/

namespace Uncomment

namespace Text

/-- The lines, each behind a newline. -/
def onNewLines (ls : List Text) : Text := ls.flatMap ('\n' :: ·)

@[simp] theorem onNewLines_nil : onNewLines [] = [] := rfl

@[simp] theorem onNewLines_cons (l : Text) (ls : List Text) :
    onNewLines (l :: ls) = '\n' :: (l ++ onNewLines ls) := rfl

@[simp] theorem onNewLines_append (xs ys : List Text) :
    onNewLines (xs ++ ys) = onNewLines xs ++ onNewLines ys := List.flatMap_append

theorem newline_cons_unlines {ls : List Text} (h : ls ≠ []) :
    '\n' :: unlines ls = onNewLines ls := by
  induction ls with
  | nil => contradiction
  | cons l ls ih =>
    cases ls with
    | nil => simp [unlines]
    | cons k ls => rw [unlines_cons (by simp), onNewLines_cons, ← ih (by simp)]

theorem nonblank_onNewLines (ls : List Text) : nonblank (onNewLines ls) = nonblank ls.flatten := by
  induction ls with
  | nil => rfl
  | cons l ls ih => simp [ih]

theorem isBlankText_onNewLines {ls : List Text} (h : ∀ l ∈ ls, isBlankText l = true) :
    isBlankText (onNewLines ls) = true := by
  rw [← nonblank_eq_nil_iff, nonblank_onNewLines, nonblank_eq_nil_iff]
  exact List.all_flatten.trans (List.all_eq_true.2 h)

end Text

namespace Layout

open Text

/-! ### Squeezing -/

/-- Puts a line before others, and makes one empty line of it and a second blank line. -/
def squeezeCons (l : Text) : List Text → List Text
  | [] => [l]
  | k :: ls => if isBlankText l && isBlankText k then [] :: ls else l :: k :: ls

/-- The lines, with every stretch of two or more blank lines made one empty line. -/
def squeeze (ls : List Text) : List Text := ls.foldr squeezeCons []

@[simp] theorem squeeze_cons (l : Text) (ls : List Text) :
    squeeze (l :: ls) = squeezeCons l (squeeze ls) := rfl

theorem squeezeCons_of_not_blank {l k : Text} (h : isBlankText l = false ∨ isBlankText k = false)
    (ls : List Text) : squeezeCons l (k :: ls) = l :: k :: ls := by
  rcases h with h | h <;> simp [squeezeCons, h]

theorem squeeze_append_cons {z : Text} (hz : isBlankText z = false) (xs ys : List Text) :
    squeeze (xs ++ z :: ys) = squeeze xs ++ z :: squeeze ys := by
  induction xs with
  | nil =>
    rw [List.nil_append, squeeze_cons]
    cases squeeze ys with
    | nil => rfl
    | cons k ls => exact squeezeCons_of_not_blank (.inl hz) ls
  | cons x xs ih =>
    rw [List.cons_append, squeeze_cons, squeeze_cons, ih]
    cases squeeze xs with
    | nil => exact squeezeCons_of_not_blank (.inr hz) _
    | cons k ls =>
      simp only [List.cons_append, squeezeCons]
      split <;> rfl

theorem squeeze_of_blank {b b' : Text} {bs : List Text}
    (h : ∀ l ∈ b :: b' :: bs, isBlankText l = true) : squeeze (b :: b' :: bs) = [[]] := by
  induction bs generalizing b b' with
  | nil =>
    have hb := h b List.mem_cons_self
    have hb' := h b' (by simp)
    simp [squeeze, squeezeCons, hb, hb']
  | cons c bs ih =>
    have hb := h b List.mem_cons_self
    rw [squeeze_cons, ih fun l hl => h l (List.mem_cons_of_mem b hl), squeezeCons, hb]
    rfl

theorem squeeze_eq_self {ls : List Text}
    (h : ls.IsChain fun a b => isBlankText a = false ∨ isBlankText b = false) :
    squeeze ls = ls := by
  induction ls with
  | nil => rfl
  | cons l ls ih =>
    rw [squeeze_cons, ih h.tail]
    cases ls with
    | nil => rfl
    | cons k ls => exact squeezeCons_of_not_blank (List.isChain_cons_cons.1 h).1 ls

theorem nonblank_flatten_squeeze (ls : List Text) :
    nonblank (squeeze ls).flatten = nonblank ls.flatten := by
  induction ls with
  | nil => rfl
  | cons l ls ih =>
    rw [List.flatten_cons, nonblank_append, ← ih, squeeze_cons]
    cases squeeze ls with
    | nil => simp [squeezeCons]
    | cons k ks =>
      rw [squeezeCons]
      split
      · next h =>
        simp only [Bool.and_eq_true] at h
        simp [nonblank_eq_nil_iff.2 h.1, nonblank_eq_nil_iff.2 h.2]
      · simp

/-! ### Collapsing lines -/

theorem collapse_append_of_newline_notMem {x : Text} (hx : '\n' ∉ x) (y : Text) :
    collapse (x ++ y) = x ++ collapse y := by
  induction x with
  | nil => rfl
  | cons c x ih =>
    simp only [List.mem_cons, not_or] at hx
    have hnone : runLength? (c :: (x ++ y)) = none := if_neg (Ne.symm hx.1)
    rw [List.cons_append, collapse_cons hnone, ih hx.2, List.cons_append]

/-- One gap: blank lines, and the blanks `v` before the next line. -/
theorem collapse_blank_onNewLines {bs : List Text} {v : Text} (hbs : ∀ b ∈ bs, isBlankText b = true)
    (hnl : ∀ b ∈ bs, '\n' ∉ b) (hv : isBlankText v = true) (hv' : '\n' ∉ v) :
    collapse (onNewLines bs ++ '\n' :: v) = onNewLines (squeeze bs) ++ '\n' :: v := by
  have hv0 : List.count '\n' v = 0 := List.count_eq_zero.2 hv'
  match bs, hbs, hnl with
  | [], _, _ => exact collapse_of_count_lt (by simp [hv0])
  | [b], _, hnl =>
    have hb0 : List.count '\n' b = 0 := List.count_eq_zero.2 (hnl b List.mem_cons_self)
    exact collapse_of_count_lt (by simp [hv0, hb0])
  | b :: b' :: bs, hbs, _ =>
    have hgap : isBlankText (onNewLines (b :: b' :: bs) ++ '\n' :: v) = true := by
      rw [isBlankText_append, isBlankText_onNewLines hbs, isBlankText_cons, hv]
      rfl
    have hcount : 3 ≤ List.count '\n' (onNewLines (b :: b' :: bs) ++ '\n' :: v) := by
      simp only [onNewLines_cons, List.count_append, List.count_cons_self]
      omega
    have hdrop : ∀ x : Text, (x ++ '\n' :: v).drop (x.length + 1) = v := by
      intro x
      simp [List.drop_append]
    rw [collapse_of_le_count hgap hcount, throughLast_append hv', hdrop, squeeze_of_blank hbs]
    simp

theorem collapse_blank_append_line {bs : List Text} {z : Text}
    (hbs : ∀ b ∈ bs, isBlankText b = true) (hnl : ∀ b ∈ bs, '\n' ∉ b) (hz : '\n' ∉ z)
    (hz' : isBlankText z = false) (y : Text) :
    collapse (onNewLines bs ++ '\n' :: (z ++ y)) =
      onNewLines (squeeze bs) ++ '\n' :: (z ++ collapse y) := by
  obtain ⟨v, c, w, hv, hc, rfl⟩ := exists_not_blank hz'
  simp only [List.mem_append, List.mem_cons, not_or] at hz
  have h := collapse_append_cons hc (onNewLines bs ++ '\n' :: v) (w ++ y)
  rw [collapse_blank_onNewLines hbs hnl hv hz.1, collapse_append_of_newline_notMem hz.2.2] at h
  simpa using h

/-- **Lines, laid out** before a line `z` that is not blank: blank lines are squeezed, and every
other line is kept. -/
theorem collapse_onNewLines {ls : List Text} (hls : ∀ l ∈ ls, '\n' ∉ l) {z : Text} (hz : '\n' ∉ z)
    (hz' : isBlankText z = false) (y : Text) :
    collapse (onNewLines ls ++ '\n' :: (z ++ y)) =
      onNewLines (squeeze ls) ++ '\n' :: (z ++ collapse y) := by
  -- `bs` are the blank lines since the last line that is not blank
  suffices h : ∀ bs : List Text, (∀ b ∈ bs, isBlankText b = true) → (∀ b ∈ bs, '\n' ∉ b) →
      collapse (onNewLines (bs ++ ls) ++ '\n' :: (z ++ y)) =
        onNewLines (squeeze (bs ++ ls)) ++ '\n' :: (z ++ collapse y) from h [] nofun nofun
  induction ls with
  | nil =>
    intro bs hbs hnl
    rw [List.append_nil]
    exact collapse_blank_append_line hbs hnl hz hz' y
  | cons l ls ih =>
    intro bs hbs hnl
    have hl := hls l List.mem_cons_self
    have ih := ih fun k hk => hls k (List.mem_cons_of_mem l hk)
    cases hb : isBlankText l with
    | true =>
      have hbs' : ∀ b ∈ bs ++ [l], isBlankText b = true := by
        simpa [or_imp, forall_and] using ⟨hbs, hb⟩
      have hnl' : ∀ b ∈ bs ++ [l], '\n' ∉ b := by
        simpa [or_imp, forall_and] using ⟨hnl, hl⟩
      simpa using ih (bs ++ [l]) hbs' hnl'
    | false =>
      have hrest := ih [] nofun nofun
      have h := collapse_blank_append_line hbs hnl hl hb (onNewLines ls ++ '\n' :: (z ++ y))
      rw [List.nil_append] at hrest
      rw [hrest] at h
      simpa [squeeze_append_cons hb] using h

/-! ### The final form -/

theorem finish_unlines (ls : List Text) :
    finish (unlines ls) = trim (collapse (onNewLines ls)) ++ ['\n'] := by
  by_cases h : ls = []
  · rw [h]
    rfl
  · have hnl : isBlankText ['\n'] = true := rfl
    rw [← newline_cons_unlines h, trim_collapse, ← List.singleton_append, trim_blank_append hnl,
      ← trim_collapse, finish]

theorem collapse_finish (j : Text) : collapse (finish j) = finish j := by
  have hstable : collapse (trim (collapse j)) = trim (collapse j) := by
    rw [trim_collapse, collapse_collapse]
  rw [finish]
  rcases List.eq_nil_or_concat (trim (collapse j)) with h | ⟨r, c, h⟩
  · rw [h]
    decide
  · have hc : isBlank c = false := not_blank_of_mem_getLast?_trim (t := collapse j) (by simp [h])
    have hr : collapse r = r := by
      rw [h, List.concat_eq_append, collapse_append_cons hc] at hstable
      exact List.append_cancel_right hstable
    rw [h, List.concat_eq_append, List.append_assoc, List.singleton_append,
      collapse_append_cons hc, hr, collapse_of_count_lt (by decide)]

end Layout

end Uncomment
