import Mathlib.Data.List.DropRight
import Mathlib.Data.List.SplitBy
import Uncomment.Proofs.Strip.BlankLines
import Uncomment.Proofs.Strip.Stability

/-! # Collapsing stretch by stretch

A text falls into `stretches`, of blanks or of other characters, each as long as possible. What
becomes of one of them when the text is collapsed depends on that stretch alone: it is `shortened`
if it is blank and has three newlines, and kept otherwise (`collapse_flatten`).

The reader of runs is not mentioned in this description. It starts at the first newline of a stretch
that has two more behind it and reaches to the last one, whichever of its two greedy parts takes the
newlines between. -/

namespace Uncomment

open Text Comment

namespace Text

/-- The stretches of a text, each of blanks only or of other characters only, and as long as
possible. -/
def stretches (t : Text) : List Text := t.splitBy fun c d => isBlank c == isBlank d

theorem isBlankText_or_of_mem_stretches {t x : Text} (h : x ∈ stretches t) :
    isBlankText x = true ∨ ∀ c ∈ x, isBlank c = false := by
  have hchain := List.isChain_of_mem_splitBy h
  cases x with
  | nil => exact .inl rfl
  | cons c r =>
    have hsame : ∀ d ∈ r, isBlank c = isBlank d := by
      have htrans : ∀ a b d : Char, (isBlank a == isBlank b) = true →
          (isBlank b == isBlank d) = true → (isBlank a == isBlank d) = true := by
        simp only [beq_iff_eq]
        exact fun _ _ _ => Eq.trans
      have : IsTrans Char fun a b => (isBlank a == isBlank b) = true := ⟨htrans⟩
      simpa using (List.pairwise_cons.1 (List.isChain_iff_pairwise.1 hchain)).1
    cases hc : isBlank c with
    | true =>
      refine .inl (List.all_eq_true.2 fun d hd => ?_)
      rcases List.mem_cons.1 hd with rfl | hd
      · exact hc
      · rw [← hsame d hd, hc]
    | false =>
      refine .inr fun d hd => ?_
      rcases List.mem_cons.1 hd with rfl | hd
      · exact hc
      · rw [← hsame d hd, hc]

/-- A stretch of blanks ends where another character stands. -/
theorem isChain_stretches (t : Text) :
    (stretches t).IsChain fun x y =>
      isBlankText x = true → ∃ c r, y = c :: r ∧ isBlank c = false := by
  refine (List.isChain_getLast_head_splitBy (fun c d => isBlank c == isBlank d) t).imp ?_
  rintro x y ⟨hx, hy, hne⟩ hblank
  obtain ⟨c, r, rfl⟩ := List.exists_cons_of_ne_nil hy
  rw [isBlank_of_mem hblank (List.getLast_mem hx)] at hne
  exact ⟨c, r, rfl, by simpa using hne⟩

end Text

namespace Layout

/-- A blank stretch with three newlines or more has two newlines in place of everything from the
first of them to the last. Any other stretch stays as it is. -/
def shortened (w : Text) : Text :=
  if isBlankText w = true ∧ 3 ≤ List.count '\n' w then
    w.takeWhile (· ≠ '\n') ++ ['\n', '\n'] ++ w.rtakeWhile (· ≠ '\n')
  else w

theorem drop_throughLast {w : Text} (h : '\n' ∈ w) :
    w.drop (throughLast w) = w.rtakeWhile (· ≠ '\n') := by
  obtain ⟨m, z, rfl, hz⟩ := exists_last_newline (List.count_pos_iff.2 h)
  have hz' : '\n' ∉ z.reverse := by simpa using hz
  have hrev : (m ++ '\n' :: z).reverse = z.reverse ++ '\n' :: m.reverse := by simp
  rw [throughLast_append hz, List.rtakeWhile, hrev, takeWhile_ne_append hz', List.reverse_reverse]
  simp

theorem collapse_eq_shortened {w : Text} (hw : isBlankText w = true) :
    collapse w = shortened w := by
  rw [shortened]
  split
  · next h =>
    have hmem : '\n' ∈ w := List.count_pos_iff.1 (by omega)
    rw [collapse_of_le_count hw h.2, drop_throughLast hmem]
    simp
  · next h => exact collapse_of_count_lt (by have := not_and.1 h hw; omega)

theorem shortened_of_newline_notMem {x : Text} (h : '\n' ∉ x) : shortened x = x := by
  rw [shortened, List.count_eq_zero.2 h, if_neg (by omega)]

theorem collapse_append_of_head {y : Text} (hy : ∀ c ∈ y.head?, isBlank c = false) (x : Text) :
    collapse (x ++ y) = collapse x ++ collapse y := by
  cases y with
  | nil => simp
  | cons c r =>
    have hc : isBlank c = false := hy c rfl
    rw [collapse_append_cons hc, ← List.nil_append (c :: r), collapse_append_cons hc]
    rfl

/-- Stretches of blanks and of other characters are collapsed one by one, if no two stretches of
blanks stand side by side. -/
theorem collapse_flatten {ls : List Text}
    (hls : ∀ x ∈ ls, isBlankText x = true ∨ ∀ c ∈ x, isBlank c = false)
    (hchain : ls.IsChain fun x y =>
      isBlankText x = true → ∃ c r, y = c :: r ∧ isBlank c = false) :
    collapse ls.flatten = ls.flatMap shortened := by
  induction ls with
  | nil => rfl
  | cons x ls ih =>
    have hrest := ih (fun y hy => hls y (List.mem_cons_of_mem x hy)) hchain.tail
    rw [List.flatten_cons, List.flatMap_cons, ← hrest]
    rcases hls x List.mem_cons_self with hx | hx
    · have hhead : ∀ c ∈ ls.flatten.head?, isBlank c = false := by
        cases ls with
        | nil => exact nofun
        | cons y ls =>
          obtain ⟨d, r, rfl, hd⟩ := (List.isChain_cons_cons.1 hchain).1 hx
          rintro c ⟨⟩
          exact hd
      rw [collapse_append_of_head hhead, collapse_eq_shortened hx]
    · have hnl : '\n' ∉ x := fun hmem => nomatch hx '\n' hmem
      rw [collapse_append_of_newline_notMem hnl, shortened_of_newline_notMem hnl]

/-- Lines that are not blank have one newline between them, whatever blanks stand at their ends. -/
theorem collapse_onNewLines_of_not_blank {ls : List Text} (hnl : ∀ l ∈ ls, '\n' ∉ l)
    (hls : ∀ l ∈ ls, isBlankText l = false) : collapse (onNewLines ls) = onNewLines ls := by
  induction ls with
  | nil => rfl
  | cons l ls ih =>
    have h := @collapse_blank_append_line [] l nofun nofun (hnl l List.mem_cons_self)
      (hls l List.mem_cons_self) (onNewLines ls)
    rwa [ih (fun k hk => hnl k (List.mem_cons_of_mem l hk))
      fun k hk => hls k (List.mem_cons_of_mem l hk)] at h

theorem collapse_unlines {ls : List Text} (hnl : ∀ l ∈ ls, '\n' ∉ l)
    (hls : ∀ l ∈ ls, isBlankText l = false) : collapse (unlines ls) = unlines ls := by
  cases ls with
  | nil => rfl
  | cons l ls =>
    have hl : unlines (l :: ls) = l ++ onNewLines ls :=
      (List.cons.inj (newline_cons_unlines (List.cons_ne_nil l ls))).2
    rw [hl, collapse_append_of_newline_notMem (hnl l List.mem_cons_self),
      collapse_onNewLines_of_not_blank (fun k hk => hnl k (List.mem_cons_of_mem l hk))
        fun k hk => hls k (List.mem_cons_of_mem l hk)]

end Layout

open Layout

theorem collapse_unlines_kept {l : Language} (hl : l ≠ .python) (t : Text) :
    collapse (unlines (readSource l.rules t).kept) = unlines (readSource l.rules t).kept := by
  have hsettled : Settled l.rules .code (readSource l.rules t).kept :=
    settled_kept l.rules_wellSpelled .code _
  exact collapse_unlines (fun k hk => newline_notMem_of_mem_kept hk)
    (hsettled.not_blank (Language.docQuotes_eq_nil hl))

/-- **Blank runs are collapsed exactly.** Every stretch of a text is shortened by itself. So nothing
is left to collapse in the result, nor is there anything to collapse in the kept lines of a language
without literals over several lines. -/
theorem collapse_eq_flatMap_shortened (t : Text) :
    collapse t = (stretches t).flatMap shortened ∧
      collapse (collapse t) = collapse t ∧
      ∀ l : Language, l ≠ .python →
        collapse (unlines (readSource l.rules t).kept) = unlines (readSource l.rules t).kept := by
  refine ⟨?_, collapse_collapse t, fun l hl => collapse_unlines_kept hl t⟩
  rw [← collapse_flatten (fun x hx => isBlankText_or_of_mem_stretches hx) (isChain_stretches t),
    stretches, List.flatten_splitBy]

/-- The blanks before the first newline and behind the last one stay, and the stretch with two
newlines stays whole. -/
theorem collapse_eq_flatMap_shortened_indented :
    let t : Text := "a \n \n\n  b\n\t\nc".toList
    stretches t = ["a".toList, " \n \n\n  ".toList, "b".toList, "\n\t\n".toList, "c".toList] ∧
      collapse t = "a \n\n  b\n\t\nc".toList ∧ Language.lua ≠ .python ∧
      collapse (unlines (readSource Language.lua.rules t).kept) =
        unlines (readSource Language.lua.rules t).kept := by
  intro t
  obtain ⟨hcollapse, -, hkept⟩ := collapse_eq_flatMap_shortened t
  have hne : Language.lua ≠ .python := by decide
  exact ⟨by decide, hcollapse.trans (by decide), hne, hkept .lua hne⟩

end Uncomment
