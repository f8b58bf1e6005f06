import Uncomment.Proofs.Strip.Counters

/-! # The form of a result

A result of stripping is a `Canonical` text and one newline: no blank stands at either end of it,
and no stretch of blanks within it holds three newlines. The counter of its lines leaves out those
that are blank; it is the number of kept lines that are not blank, and zero only for an empty text
(`strip_canonical`).

Blank lines can come only from literals over several lines. In a language without them each line of
the result is a kept line, and so none is blank (`not_blank_of_mem_lines_strip`) and none has a
comment (`splitLine_of_mem_strip`). -/

namespace Uncomment

open Text Comment

namespace Layout

/-- No blank stands at either end of the text, and no stretch of blanks in it has three newlines. -/
structure Canonical (t : Text) : Prop where
  starts : ∀ c ∈ t.head?, isBlank c = false
  ends : ∀ c ∈ t.getLast?, isBlank c = false
  /-- This holds for every stretch of blanks, and so for those that go as far as possible. -/
  gaps : ∀ w, isBlankText w = true → w <:+: t → List.count '\n' w < 3

/-- A stretch of blanks lies on one side of a character that is not blank. -/
theorem isInfix_or_of_blank {w x y : Text} (hw : isBlankText w = true) {c : Char}
    (hc : isBlank c = false) (h : w <:+: x ++ c :: y) : w <:+: x ∨ w <:+: y := by
  have hmem : c ∉ w := by
    intro hmem
    rw [isBlank_of_mem hw hmem] at hc
    cases hc
  rcases isInfix_of_isInfix_append (by simpa using hmem) h with h | h
  · exact .inl h
  · rcases List.infix_cons_iff.1 h with h | h
    · have hnil : w <+: [] := isPrefix_of_isPrefix_append (y := c :: y) (by simpa using hmem) h
      rw [List.prefix_nil.1 hnil]
      exact .inl List.nil_infix
    · exact .inr h

theorem count_newline_lt_of_isInfix_collapse {w t : Text} (hw : isBlankText w = true)
    (h : w <:+: collapse t) : List.count '\n' w < 3 := by
  induction t using gap_induction with
  | blank v hv => exact Nat.lt_of_le_of_lt (h.sublist.count_le '\n') (count_newline_collapse_lt hv)
  | step v c r hv hc ih =>
    rw [collapse_append_cons hc] at h
    rcases isInfix_or_of_blank hw hc h with h | h
    · exact Nat.lt_of_le_of_lt (h.sublist.count_le '\n') (count_newline_collapse_lt hv)
    · exact ih h

theorem canonical_collapse_trim (t : Text) : Canonical (collapse (trim t)) where
  starts c hc := by
    rw [← trim_collapse] at hc
    exact not_blank_of_mem_head?_trim hc
  ends c hc := by
    rw [← trim_collapse] at hc
    exact not_blank_of_mem_getLast?_trim hc
  gaps w hw h := count_newline_lt_of_isInfix_collapse hw h

theorem Canonical.eq_nil_iff {t : Text} (h : Canonical t) : t = [] ↔ isBlankText t = true := by
  constructor
  · rintro rfl
    rfl
  · intro hb
    cases t with
    | nil => rfl
    | cons c r =>
      rw [isBlankText_cons, h.starts c rfl] at hb
      cases hb

end Layout

open Layout

theorem canonical_core (l : Language) (t : Text) : Canonical (core l t) := canonical_collapse_trim _

theorem linesOut_eq_zero_iff (l : Language) (t : Text) :
    (strip l t).stats.linesOut = 0 ↔ core l t = [] := by
  rw [linesOut_eq_filledLines, text_strip_eq_core, filledLines_append_blank rfl,
    filledLines_eq_zero_iff, (canonical_core l t).eq_nil_iff]

theorem not_blank_of_mem_lines_strip {l : Language} (hl : l ≠ .python) {t : Text}
    (hne : core l t ≠ []) {k : Text} (hk : k ∈ lines (strip l t).text) : isBlankText k = false := by
  rw [text_strip_eq_core, lines_concat_newline_eq_map] at hk
  obtain ⟨p, hp, rfl⟩ := List.mem_map.1 hk
  rw [isBlankText_dropReturn]
  exact (settled_piecesAt_core hne).not_blank (Language.docQuotes_eq_nil hl) p hp

/-- **The canonical form** of a result, and what its line counter counts. -/
theorem strip_canonical (l : Language) (t : Text) :
    ∃ core, (strip l t).text = core ++ ['\n'] ∧ Canonical core ∧
      (strip l t).stats.linesOut = (readSource l.rules t).kept.countP (!isBlankText ·) ∧
      (core = [] ↔ (strip l t).stats.linesOut = 0) ∧
      (l ≠ .python → core ≠ [] →
        (∀ k ∈ lines (strip l t).text, isBlankText k = false) ∧
        (strip l t).stats.linesOut = (lines (strip l t).text).length) := by
  refine ⟨core l t, text_strip_eq_core l t, canonical_core l t, linesOut_strip l t,
    (linesOut_eq_zero_iff l t).symm, ?_⟩
  intro hl hne
  have hlines : ∀ k ∈ lines (strip l t).text, isBlankText k = false := by
    intro k hk
    exact not_blank_of_mem_lines_strip hl hne hk
  refine ⟨hlines, ?_⟩
  rw [linesOut_eq_filledLines, filledLines, List.countP_eq_length]
  intro k hk
  rw [hlines k hk]
  rfl

/-- A blank line and a line with nothing but a comment go, and no other line becomes blank. -/
theorem strip_canonical_lua :
    let t : Text := " x\n \n--\ny\r--\nz".toList
    Language.lua ≠ .python ∧ ∃ core, core ≠ [] ∧ (strip .lua t).text = core ++ ['\n'] ∧
      (∀ k ∈ lines (strip .lua t).text, isBlankText k = false) ∧
      (strip .lua t).stats.linesOut = (lines (strip .lua t).text).length := by
  intro t
  obtain ⟨core, htext, -, -, hnil, hlines⟩ := strip_canonical .lua t
  have hne : core ≠ [] := by
    rw [Ne, hnil]
    unfold t
    decide
  exact ⟨by decide, core, hne, htext, hlines (by decide) hne⟩

/-! ### No comment is left -/

theorem commented_of_mem_core {l : Language} (hl : l ≠ .python) {t k : Text}
    (hk : k ∈ piecesAt '\n' (core l t)) : (splitLine l.rules k).commented = false := by
  by_cases hne : core l t = []
  · rw [hne] at hk
    rw [List.mem_singleton.1 hk]
    rfl
  · have hkept := (settled_piecesAt_core hne).kept?_eq_some (Language.docQuotes_eq_nil hl) k hk
    exact commented_eq_false_of_code_eq l.rules_wellSpelled (kept?_code_eq_some_iff.1 hkept).2.1

/-- **No line comment is left** in a result, whether or not a carriage return before a newline
counts as part of the line. -/
theorem splitLine_of_mem_strip {l : Language} (hl : l ≠ .python) (t : Text) :
    (∀ k ∈ lines (strip l t).text, splitLine l.rules k = ⟨k, false⟩) ∧
      ∀ k ∈ piecesAt '\n' (strip l t).text, splitLine l.rules k = ⟨k, false⟩ := by
  rw [text_strip_eq_core]
  constructor
  · intro k hk
    rw [lines_concat_newline_eq_map] at hk
    obtain ⟨p, hp, rfl⟩ := List.mem_map.1 hk
    rw [splitLine_eq_self_iff, commented_dropReturn l.rules_wellSpelled]
    exact commented_of_mem_core hl hp
  · intro k hk
    rw [piecesAt_append] at hk
    rcases List.mem_append.1 hk with hk | hk
    · exact splitLine_eq_self_iff.2 (commented_of_mem_core hl hk)
    · rw [List.mem_singleton.1 hk]
      rfl

/-- The long bracket that is left open is no comment; without the blanks before it the line starts
with it. -/
theorem splitLine_of_mem_strip_bracket :
    let t : Text := " --[[ x -- y\n\"--\" --z\n".toList
    Language.lua ≠ .python ∧ lines (strip .lua t).text = ["--[[ x ".toList, "\"--\"".toList] ∧
      splitLine .dashes "--[[ x ".toList = ⟨"--[[ x ".toList, false⟩ := by
  intro t
  have ht : lines (strip .lua t).text = ["--[[ x ".toList, "\"--\"".toList] := by
    unfold t
    decide +kernel
  have hmem : "--[[ x ".toList ∈ lines (strip .lua t).text := by rw [ht]; exact List.mem_cons_self
  exact ⟨by decide, ht, (splitLine_of_mem_strip (l := .lua) (by decide) t).1 _ hmem⟩

end Uncomment
