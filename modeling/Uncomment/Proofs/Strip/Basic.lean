import Uncomment.Strip
import Uncomment.Proofs.Text.Lines
import Uncomment.Proofs.Layout
import Uncomment.Proofs.Comment.Block
import Uncomment.Proofs.Comment.Reading

/-! # What stripping loses, and texts put together

The counters of an outcome account for everything that is lost. Laying out and reading lines cost
blanks only; a block, a line comment and a docstring cost at least one other character each
(`length_nonblank_strip_le`). So the characters that are not blank all survive exactly when nothing
was counted (`nonblank_strip_eq_iff`).

A text is `Closed` when nothing that can span lines is open behind it: no block, no docstring and no
literal. Behind whole lines that are closed, the reading of a text goes on as if the text stood
alone (`readSource_append`), starting with the next line (`readSource_append_line`). -/

namespace Uncomment

open Text Comment

/-! ### What is lost -/

theorem text_strip (l : Language) (t : Text) :
    (strip l t).text = Layout.finish (unlines (readSource l.rules t).kept) := rfl

theorem nonblank_strip (l : Language) (t : Text) :
    nonblank (strip l t).text = nonblank (readSource l.rules t).kept.flatten := by
  rw [text_strip, Layout.nonblank_finish, nonblank_unlines]

theorem length_nonblank_strip_le (l : Language) (t : Text) :
    (nonblank (strip l t).text).length + (strip l t).stats.blockComments +
      (strip l t).stats.lineComments + (strip l t).stats.docstrings ≤ (nonblank t).length := by
  have hr := l.rules_wellSpelled
  have hlines := length_nonblank_kept_le hr .code (lines (withoutBlocks l.rules t))
  have hblocks := length_nonblank_withoutBlocks_le hr t
  rw [nonblank_flatten_lines] at hlines
  rw [nonblank_strip]
  simp only [strip, readSource]
  omega

/-- Every character that is not blank survives exactly when no block, no line comment and no
docstring was counted. -/
theorem nonblank_strip_eq_iff (l : Language) (t : Text) :
    nonblank (strip l t).text = nonblank t ↔
      (strip l t).stats.blockComments = 0 ∧ (strip l t).stats.lineComments = 0 ∧
        (strip l t).stats.docstrings = 0 := by
  constructor
  · intro h
    have hle := length_nonblank_strip_le l t
    rw [h] at hle
    omega
  · rintro ⟨hblocks, hcomments, hdocstrings⟩
    have hself := withoutBlocks_eq_self l.rules_wellSpelled hblocks
    simp only [strip, readSource, hself] at hcomments hdocstrings
    rw [nonblank_strip, readSource, hself, nonblank_kept id hcomments hdocstrings,
      nonblank_flatten_lines]

/-! ### Closed texts -/

variable {rules : Rules}

/-- Nothing is open behind the text. -/
structure Closed (rules : Rules) (a : Text) : Prop where
  blocks : ∀ o c, rules.block? = some (o, c) → ¬ o <:+: behindBlocks o c a
  mode : rules.docQuotes ≠ [] → (readSource rules a).mode = .code

theorem Closed.mode_eq {a : Text} (h : Closed rules a) : (readSource rules a).mode = .code := by
  by_cases hq : rules.docQuotes = []
  · exact mode_readLines_of_docQuotes_eq_nil hq _
  · exact h.mode hq

/-- A block that is open before the last newline is open behind it, so none is. -/
theorem Closed.before_newline (hr : rules.WellSpelled) {x : Text} (h : Closed rules (x ++ ['\n']))
    (y : Text) : ∀ o c, rules.block? = some (o, c) →
      ¬ o <:+: behindBlocks o c x ∨ ¬ c <:+: y := by
  intro o c hb
  obtain ⟨ho, hc⟩ := hr.block? (o, c) hb
  refine .inl fun hx => h.blocks o c hb ?_
  rw [behindBlocks_concat_newline ho hc]
  exact hx.trans (List.prefix_append ..).isInfix

/-! ### Reading -/

theorem withoutBlocks_append (hr : rules.WellSpelled) {a : Text} (ha : WholeLines a)
    (h : Closed rules a) (y : Text) :
    withoutBlocks rules (a ++ y) = withoutBlocks rules a ++ withoutBlocks rules y := by
  rcases ha with rfl | ⟨x, rfl⟩
  · rw [List.sublist_nil.1 (withoutBlocks_sublist hr [])]
    rfl
  · rw [List.append_assoc, List.singleton_append,
      withoutBlocks_append_newline hr (h.before_newline hr y), withoutBlocks_concat_newline hr,
      List.append_assoc]
    rfl

theorem blockCount_append (hr : rules.WellSpelled) {a : Text} (ha : WholeLines a)
    (h : Closed rules a) (y : Text) :
    blockCount rules (a ++ y) = blockCount rules a + blockCount rules y := by
  rcases ha with rfl | ⟨x, rfl⟩
  · rw [blockCount_nil hr, Nat.zero_add]
    rfl
  · rw [List.append_assoc, List.singleton_append,
      blockCount_append_newline hr (h.before_newline hr y),
      blockCount_append_newline hr (h.before_newline hr []), blockCount_nil hr, Nat.add_zero]

theorem readSource_append (hr : rules.WellSpelled) {a : Text} (ha : WholeLines a)
    (h : Closed rules a) (y : Text) :
    readSource rules (a ++ y) = (readSource rules a).append (readSource rules y) := by
  have hmode : (readLines rules .code (lines (withoutBlocks rules a))).mode = .code := h.mode_eq
  rw [readSource, withoutBlocks_append hr ha h, lines_append (wholeLines_withoutBlocks hr ha),
    readLines_append, hmode]
  rfl

/-- The line behind closed whole lines is read as code, if no block reaches out of it. -/
theorem readSource_append_line (hr : rules.WellSpelled) {a x y : Text} (ha : WholeLines a)
    (hclosed : Closed rules a) (hx : '\n' ∉ x)
    (hopen : ∀ o c, rules.block? = some (o, c) → ¬ o <:+: behindBlocks o c x ∨ ¬ c <:+: y) :
    readSource rules (a ++ x ++ '\n' :: y) =
      (readSource rules a).append (readLines rules .code
        (dropReturn (withoutBlocks rules x) :: lines (withoutBlocks rules y))) := by
  have hnl : '\n' ∉ withoutBlocks rules x := fun hmem =>
    hx ((withoutBlocks_sublist hr x).subset hmem)
  have hline : readSource rules (x ++ '\n' :: y) = readLines rules .code
      (dropReturn (withoutBlocks rules x) :: lines (withoutBlocks rules y)) := by
    rw [readSource, withoutBlocks_append_newline hr hopen, lines_line hnl]
  rw [List.append_assoc, readSource_append hr ha hclosed, hline]

end Uncomment
