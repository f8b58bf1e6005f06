import Uncomment.Proofs.Strip.Stability
import Uncomment.Proofs.Strip.Basic
import Uncomment.Proofs.Text.Utf8

/-! # The counters of an outcome

Laying out a text moves and removes blank lines only, so the lines that are not blank are as many
after it as before (`filledLines_finish`). They are the kept lines, less those that are blank
(`linesOut_strip`). A line that is not blank has a first character that is not blank; it is counted
where this character stands. The blanks before it tell whether it is on the same line as what stands
before them (`filledBehind_append_cons`).

A source may be stripped section by section, where a section consists of whole lines and leaves
nothing open: the kept lines of the sections follow each other, and the counters add up
(`strip_append`). For the lines that are counted in the result this is so although they are counted
at the very end, in the text that is laid out as a whole, because layout does not change how many
there are.

The counters are taken from three texts: the lines of the source from the source, the comments and
docstrings from the source without its blocks, the lines of the result from the result. They can be
compared because a text never has more lines than one from which characters were taken to make it
(`Text.length_lines_le_of_sublist`), because a line is counted as one thing at most
(`Comment.length_readLines`), and because blocks do not overlap (`Comment.mul_countBlocks_le`). -/

namespace Uncomment

open Text Comment Layout

/-! ### Lines as pieces between newlines -/

theorem filledLines_unlines {ls : List Text} (h : ∀ l ∈ ls, '\n' ∉ l) :
    filledLines (unlines ls) = ls.countP (!isBlankText ·) := by
  induction ls with
  | nil => rfl
  | cons l ls ih =>
    have hl := h l List.mem_cons_self
    cases ls with
    | nil =>
      by_cases hne : l = []
      · subst hne
        rfl
      · rw [unlines, filledLines, lines_of_newline_notMem hl hne]
    | cons k ls =>
      rw [unlines_cons (by simp), filledLines, lines_line hl, List.countP_cons,
        isBlankText_dropReturn, List.countP_cons, ← filledLines,
        ih fun l hl => h l (List.mem_cons_of_mem _ hl)]

/-- The number of lines that are not blank behind the first newline of a text. -/
def filledBehind (t : Text) : Nat := (piecesAt '\n' t).tail.countP (!isBlankText ·)

theorem filledLines_eq_filledBehind (t : Text) : filledLines t = filledBehind ('\n' :: t) := by
  conv => lhs; rw [← unlines_piecesAt t]
  exact filledLines_unlines fun _ => notMem_of_mem_piecesAt

/-! ### Counting gap by gap -/

theorem countP_piecesAt_of_blank {w : Text} (hw : isBlankText w = true) :
    (piecesAt '\n' w).countP (!isBlankText ·) = 0 := by
  refine List.countP_eq_zero.2 fun p hp => ?_
  simp [isBlankText_of_mem_piecesAt hw hp]

theorem filledBehind_of_blank {w : Text} (hw : isBlankText w = true) : filledBehind w = 0 :=
  Nat.le_zero.1 (countP_piecesAt_of_blank hw ▸ (List.tail_sublist _).countP_le)

theorem filledBehind_append_cons {w : Text} (hw : isBlankText w = true) {c : Char}
    (hc : isBlank c = false) (r : Text) :
    filledBehind (w ++ c :: r) = (if '\n' ∈ w then 1 else 0) + filledBehind r := by
  obtain ⟨p, ps, hr⟩ := List.exists_cons_of_ne_nil (piecesAt_ne_nil '\n' r)
  -- the line of `c` starts behind the last newline of the blanks
  have hline : ∀ {z : Text}, '\n' ∉ z → piecesAt '\n' (z ++ c :: r) = (z ++ c :: p) :: ps := by
    intro z hz
    have hzc : '\n' ∉ z ++ [c] := by
      rw [List.mem_append, List.mem_singleton, not_or]
      exact ⟨hz, (ne_of_not_blank hc rfl).symm⟩
    simpa using piecesAt_append_of_notMem hzc hr
  rw [filledBehind, filledBehind, hr]
  split
  · next hmem =>
    obtain ⟨m, z, rfl, hz⟩ := exists_last_newline (List.count_pos_iff.2 hmem)
    simp only [isBlankText_append, Bool.and_eq_true] at hw
    have hm := filledBehind_of_blank hw.1
    rw [filledBehind] at hm
    rw [List.append_assoc, List.cons_append, piecesAt_append, hline hz,
      List.tail_append_of_ne_nil (piecesAt_ne_nil '\n' m), List.countP_append, hm]
    simp [hc, Nat.add_comm]
  · next hmem => rw [hline hmem, Nat.zero_add]; rfl

theorem filledBehind_append_blank {w : Text} (hw : isBlankText w = true) (t : Text) :
    filledBehind (t ++ w) = filledBehind t := by
  induction t using gap_induction with
  | blank v hv => rw [filledBehind_of_blank (by simp [hv, hw]), filledBehind_of_blank hv]
  | step v c r hv hc ih =>
    rw [List.append_assoc, List.cons_append, filledBehind_append_cons hv hc,
      filledBehind_append_cons hv hc, ih]

theorem filledBehind_collapse (t : Text) : filledBehind (collapse t) = filledBehind t := by
  induction t using gap_induction with
  | blank w hw =>
    rw [filledBehind_of_blank ((isBlankText_collapse w).trans hw), filledBehind_of_blank hw]
  | step w c r hw hc ih =>
    rw [collapse_append_cons hc, filledBehind_append_cons ((isBlankText_collapse w).trans hw) hc,
      filledBehind_append_cons hw hc, ih]
    simp only [newline_mem_collapse_iff]

/-! ### Layout -/

theorem filledLines_of_blank {w : Text} (hw : isBlankText w = true) : filledLines w = 0 := by
  rw [filledLines_eq_filledBehind]
  exact filledBehind_of_blank hw

theorem filledLines_append_cons {w : Text} (hw : isBlankText w = true) {c : Char}
    (hc : isBlank c = false) (r : Text) : filledLines (w ++ c :: r) = 1 + filledBehind r := by
  have hw' : isBlankText ('\n' :: w) = true := hw
  rw [filledLines_eq_filledBehind, ← List.cons_append, filledBehind_append_cons hw' hc,
    if_pos List.mem_cons_self]

theorem filledLines_eq_zero_iff {t : Text} : filledLines t = 0 ↔ isBlankText t = true := by
  refine ⟨fun h => ?_, filledLines_of_blank⟩
  cases ht : isBlankText t with
  | true => rfl
  | false =>
    obtain ⟨w, c, r, hw, hc, rfl⟩ := exists_not_blank ht
    rw [filledLines_append_cons hw hc] at h
    omega

theorem filledLines_append_blank {w : Text} (hw : isBlankText w = true) (t : Text) :
    filledLines (t ++ w) = filledLines t := by
  rw [filledLines_eq_filledBehind, filledLines_eq_filledBehind, ← List.cons_append]
  exact filledBehind_append_blank hw _

theorem filledLines_blank_append {w : Text} (hw : isBlankText w = true) (t : Text) :
    filledLines (w ++ t) = filledLines t := by
  cases ht : isBlankText t with
  | true => rw [filledLines_of_blank (by simp [hw, ht]), filledLines_of_blank ht]
  | false =>
    obtain ⟨v, c, r, hv, hc, rfl⟩ := exists_not_blank ht
    rw [← List.append_assoc, filledLines_append_cons (by simp [hw, hv]) hc,
      filledLines_append_cons hv hc]

theorem filledLines_trim (t : Text) : filledLines (trim t) = filledLines t := by
  obtain ⟨v, w, hv, hw, h⟩ := exists_eq_trim t
  conv => rhs; rw [h]
  rw [filledLines_append_blank hw, filledLines_blank_append hv]

theorem filledLines_collapse (t : Text) : filledLines (collapse t) = filledLines t := by
  cases ht : isBlankText t with
  | true =>
    rw [filledLines_of_blank ((isBlankText_collapse t).trans ht), filledLines_of_blank ht]
  | false =>
    obtain ⟨w, c, r, hw, hc, rfl⟩ := exists_not_blank ht
    rw [collapse_append_cons hc, filledLines_append_cons ((isBlankText_collapse w).trans hw) hc,
      filledLines_append_cons hw hc, filledBehind_collapse]

theorem filledLines_finish (j : Text) : filledLines (finish j) = filledLines j := by
  rw [finish, filledLines_append_blank rfl, filledLines_trim, filledLines_collapse]

theorem linesOut_eq_filledLines (l : Language) (t : Text) :
    (strip l t).stats.linesOut = filledLines (strip l t).text := by
  simp only [strip]

/-- The lines that are counted in the result are the kept lines that are not blank. -/
theorem linesOut_strip (l : Language) (t : Text) :
    (strip l t).stats.linesOut = (readSource l.rules t).kept.countP (!isBlankText ·) := by
  have hkept : ∀ k ∈ (readSource l.rules t).kept, '\n' ∉ k := fun k => newline_notMem_of_mem_kept
  rw [linesOut_eq_filledLines, text_strip, filledLines_finish, filledLines_unlines hkept]

/-! ### Sections -/

/-- The counters of two sections together. -/
instance : Add Stats where
  add s s' :=
    { linesIn := s.linesIn + s'.linesIn
      linesOut := s.linesOut + s'.linesOut
      blockComments := s.blockComments + s'.blockComments
      lineComments := s.lineComments + s'.lineComments
      docstrings := s.docstrings + s'.docstrings }

theorem stats_strip (l : Language) (t : Text) :
    (strip l t).stats =
      { linesIn := (lines t).length
        linesOut := (readSource l.rules t).kept.countP (!isBlankText ·)
        blockComments := blockCount l.rules t
        lineComments := (readSource l.rules t).lineComments
        docstrings := (readSource l.rules t).docstrings } := by
  rw [← linesOut_strip]
  rfl

/-- **Stripping is a homomorphism** on closed sections. -/
theorem strip_append {l : Language} {a : Text} (ha : WholeLines a) (hclosed : Closed l.rules a)
    (b : Text) :
    (readSource l.rules (a ++ b)).kept =
        (readSource l.rules a).kept ++ (readSource l.rules b).kept ∧
      (strip l (a ++ b)).stats = (strip l a).stats + (strip l b).stats := by
  have hr := l.rules_wellSpelled
  have hread := readSource_append hr ha hclosed b
  refine ⟨by rw [hread]; rfl, ?_⟩
  rw [stats_strip, stats_strip, stats_strip, hread, blockCount_append hr ha hclosed,
    lines_append ha, List.length_append]
  simp only [Reading.append, List.countP_append]
  rfl

/-- The first section holds a docstring, and a literal whose empty lines layout takes out. -/
theorem strip_append_python :
    let a : Text := "'''d\n'''\ns = '''\n\n\n'''  # c\n".toList
    let b : Text := "x # c\n'''".toList
    Closed Language.python.rules a ∧
      (strip .python (a ++ b)).stats = (strip .python a).stats + (strip .python b).stats := by
  intro a b
  have hclosed : Closed Language.python.rules a := by
    unfold a
    exact ⟨fun _ _ h => (nomatch h), fun _ => rfl⟩
  have hlines : WholeLines a := by
    unfold a
    decide
  exact ⟨hclosed, (strip_append hlines hclosed b).2⟩

/-! ### Lines -/

namespace Text

theorem length_lines_cons (c : Char) (r : Text) :
    (lines (c :: r)).length =
      if c = '\n' then (lines r).length + 1 else max 1 (lines r).length := by
  rw [lines]
  split
  · rfl
  · split
    · next h =>
      -- the newline behind the carriage return closes a line
      obtain ⟨s, rfl⟩ : ∃ s, r = '\n' :: s := by
        cases r with
        | nil => cases h.2
        | cons d s => exact ⟨s, by rw [Option.some.inj h.2]⟩
      rw [lines_newline, List.length_cons]
      omega
    · cases lines r with
      | nil => rfl
      | cons l ls =>
        rw [consHead, List.length_cons, List.length_cons]
        omega

/-- Taking characters out of a text makes no lines. -/
theorem length_lines_le_of_sublist {s t : Text} (h : List.Sublist s t) :
    (lines s).length ≤ (lines t).length := by
  induction h with
  | slnil => exact Nat.le_refl _
  | cons c _ ih =>
    rw [length_lines_cons]
    split <;> omega
  | cons_cons c _ ih =>
    rw [length_lines_cons, length_lines_cons]
    split <;> omega

end Text

/-! ### Comments -/

namespace Comment

/-- A line is a docstring's first line, or has a comment, or neither; and a docstring's first line
is not kept. -/
theorem Fate.docstrings_add_le (f : Fate) :
    f.docstrings + f.lineComments ≤ 1 ∧ f.docstrings + f.kept?.toList.length ≤ 1 := by
  cases f with
  | code s =>
    have hkept : (Fate.code s).kept?.toList.length ≤ 1 := by
      rw [Option.length_toList]
      split <;> omega
    have hcomment : s.commented.toNat ≤ 1 := Bool.toNat_le s.commented
    simp only [docstrings, lineComments]
    omega
  | opensDocstring | docstring | literal l =>
    simp [docstrings, lineComments, kept?]

theorem length_readLines (rules : Rules) (m : Mode) (ls : List Text) :
    (readLines rules m ls).docstrings + (readLines rules m ls).lineComments ≤ ls.length ∧
      (readLines rules m ls).docstrings + (readLines rules m ls).kept.length ≤ ls.length := by
  induction ls generalizing m with
  | nil => exact ⟨Nat.le_refl _, Nat.le_refl _⟩
  | cons l ls ih =>
    obtain ⟨hcomment, hkept⟩ := (m.read rules l).docstrings_add_le
    obtain ⟨hcomments, hkepts⟩ := ih (m.after rules l)
    simp only [readLines, Reading.cons, List.length_append, List.length_cons]
    omega

theorem docstrings_readLines {rules : Rules} (h : rules.docQuotes = []) (ls : List Text) :
    (readLines rules .code ls).docstrings = 0 := by
  induction ls with
  | nil => rfl
  | cons l ls ih =>
    rw [readLines, Mode.after_of_docQuotes_eq_nil h, Reading.cons]
    simp only [ih, Mode.read, docQuote?, h, List.find?_nil]
    rfl

variable {o c : Text}

/-- Every block has the bytes of its two marks to itself. -/
theorem mul_countBlocks_le (ho : Solid o) (t : Text) :
    (Utf8.size o + Utf8.size c) * countBlocks o c t ≤ Utf8.size t := by
  have hf : Bounded (blockLength? o c) := bounded_blockLength? ho
  induction t using hf.cut_induction with
  | nil => exact Nat.le_refl _
  | char d r h ih =>
    rw [countBlocks_cons h]
    exact ih.trans (Utf8.size_le_of_sublist (List.sublist_cons_self d r))
  | stretch s n h ih =>
    rw [countBlocks_of_some ho h, Nat.mul_succ]
    obtain ⟨body, r, rfl, rfl⟩ := exists_of_blockLength?_eq_some h
    have hdrop : (o ++ body ++ c ++ r).drop (o.length + body.length + c.length) = r := by
      rw [← List.length_append, ← List.length_append, List.drop_left]
    rw [hdrop] at ih ⊢
    simp only [Utf8.size_append]
    omega

end Comment

/-! ### Outcomes -/

theorem length_lines_withoutBlocks_le (l : Language) (t : Text) :
    (lines (withoutBlocks l.rules t)).length ≤ (lines t).length :=
  length_lines_le_of_sublist (withoutBlocks_sublist l.rules_wellSpelled t)

/-- **Bounds on the counters.** No line of the source is counted as a docstring and a line comment,
nor as a docstring and a line of the result; a language has blocks or docstrings, and blocks take as
many bytes of the source as their marks have. -/
theorem stats_strip_le (l : Language) (t : Text) :
    let s := (strip l t).stats
    s.docstrings + s.lineComments ≤ s.linesIn ∧ s.docstrings + s.linesOut ≤ s.linesIn ∧
      (∀ o c, l.rules.block? = some (o, c) →
        (Utf8.size o + Utf8.size c) * s.blockComments ≤ Utf8.size t) ∧
      (l = .python → s.blockComments = 0) ∧ (l ≠ .python → s.docstrings = 0) := by
  have hlines := length_lines_withoutBlocks_le l t
  obtain ⟨hcomments, hkept⟩ := length_readLines l.rules .code (lines (withoutBlocks l.rules t))
  have hfilled : (readSource l.rules t).kept.countP (!isBlankText ·) ≤
      (readSource l.rules t).kept.length := List.countP_le_length
  simp only [stats_strip]
  refine ⟨hcomments.trans hlines, ?_, fun o c hb => ?_, ?_, fun hl => ?_⟩
  · exact ((Nat.add_le_add_left hfilled _).trans hkept).trans hlines
  · rw [blockCount, hb]
    exact mul_countBlocks_le (l.rules_wellSpelled.block? (o, c) hb).1 t
  · rintro rfl
    rfl
  · exact docstrings_readLines (Language.docQuotes_eq_nil hl) _

/-- The bounds are attained: by two blocks and nothing else, and by a docstring and a line that is
kept and has a comment. -/
theorem stats_strip_le_attained :
    let s := (strip .lua "--[[]]--[[]]".toList).stats
    let s' := (strip .python "'''d'''\nx#".toList).stats
    (6 * s.blockComments ≤ 12 ∧ 6 * s.blockComments = 12) ∧
      (s'.docstrings + s'.lineComments ≤ s'.linesIn ∧ s'.docstrings + s'.lineComments = 2) ∧
      (s'.docstrings + s'.linesOut ≤ s'.linesIn ∧ s'.docstrings + s'.linesOut = 2) := by
  intro s s'
  obtain ⟨-, -, hblocks, -⟩ := stats_strip_le .lua "--[[]]--[[]]".toList
  obtain ⟨hcomments, hlines, -⟩ := stats_strip_le .python "'''d'''\nx#".toList
  refine ⟨⟨hblocks _ _ rfl, ?_⟩, ⟨hcomments, ?_⟩, ⟨hlines, ?_⟩⟩ <;> decide

end Uncomment
