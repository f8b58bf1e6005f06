import Uncomment.Comment
import Uncomment.Proofs.Comment.Line
import Uncomment.Proofs.Text.Lines

/-! # Reading lines

What one line comes to, and by induction what a list of lines comes to.

* Lists of lines are read one after the other, the second in the mode that the first leaves
  (`readLines_append`);
* a kept line is the start of a line that was read (`exists_isPrefix_of_mem_kept`), and the kept
  lines joined are a part of the lines joined (`unlines_kept_sublist`);
* every line comment and every docstring costs a character that is not blank
  (`length_nonblank_kept_le`), and nothing else does (`nonblank_kept`). -/

namespace Uncomment.Comment

open Text

variable {rules : Rules}

/-- The reading of some lines and of further lines behind them. -/
def Reading.append (r s : Reading) : Reading where
  kept := r.kept ++ s.kept
  lineComments := r.lineComments + s.lineComments
  docstrings := r.docstrings + s.docstrings
  mode := s.mode

theorem readLines_append (m : Mode) (xs ys : List Text) :
    readLines rules m (xs ++ ys) =
      (readLines rules m xs).append (readLines rules (readLines rules m xs).mode ys) := by
  induction xs generalizing m with
  | nil => simp [readLines, Reading.append]
  | cons l ls ih =>
    simp only [List.cons_append, readLines, ih]
    simp [Reading.append, Reading.cons, Nat.add_assoc]

/-! ### The quotes of docstrings -/

theorem docQuote?_eq_none_iff {t : Text} :
    docQuote? rules t = none ↔ ∀ q ∈ rules.docQuotes, ¬ q <+: t := by
  simp only [docQuote?, List.find?_eq_none, List.isPrefixOf_iff_prefix]

theorem mem_of_docQuote?_eq_some {t q : Text} (h : docQuote? rules t = some q) :
    q ∈ rules.docQuotes ∧ q <+: t :=
  ⟨List.mem_of_find?_eq_some h, List.isPrefixOf_iff_prefix.1 (List.find?_eq_some_iff_append.1 h).1⟩

/-- A line starts with no quote that its part before some character does not start with, if this
character is in no quote. -/
theorem docQuote?_append_cons (hr : rules.WellSpelled) {d : Char} (hd : isBlank d = false)
    (hq : ∀ q ∈ rules.docQuotes, d ∉ q) {x : Text} (hx : ∀ q ∈ rules.docQuotes, ¬ q <+: x.trim)
    (y : Text) : docQuote? rules (x ++ d :: y).trim = none := by
  rw [docQuote?_eq_none_iff]
  intro q hmem hpre
  have hsolid := hr.docQuotes q hmem
  rw [hsolid.isPrefix_trim_iff, trimLeft_append_cons hd] at hpre
  refine hx q hmem (hsolid.isPrefix_trim_iff.2 (isPrefix_of_isPrefix_append ?_ hpre))
  simpa using hq q hmem

/-! ### The modes of a reader -/

theorem Mode.after_of_docQuotes_eq_nil (h : rules.docQuotes = []) (l : Text) :
    Mode.code.after rules l = .code := by
  simp only [Mode.after, docQuote?, h, List.find?_nil]
  split
  · simp [Mode.ofCode, unclosed?, h]
  · rfl

theorem mode_readLines_of_docQuotes_eq_nil (h : rules.docQuotes = []) (ls : List Text) :
    (readLines rules .code ls).mode = .code := by
  induction ls with
  | nil => rfl
  | cons l ls ih =>
    rw [readLines, Mode.after_of_docQuotes_eq_nil h]
    exact ih

/-! ### The lines that are kept -/

theorem isPrefix_of_kept? {m : Mode} {l k : Text} (h : (m.read rules l).kept? = some k) :
    k <+: l := by
  cases m with
  | literal q =>
    cases h
    exact List.prefix_rfl
  | docstring q => cases h
  | code =>
    rw [Mode.read] at h
    split at h
    · cases h
    · rw [Fate.kept?] at h
      split at h
      · cases h
      · cases h
        exact splitFrom_code_isPrefix ..

theorem exists_isPrefix_of_mem_kept {m : Mode} {ls : List Text} {k : Text}
    (h : k ∈ (readLines rules m ls).kept) : ∃ l ∈ ls, k <+: l := by
  induction ls generalizing m with
  | nil => cases h
  | cons l ls ih =>
    rcases List.mem_append.1 h with h | h
    · exact ⟨l, List.mem_cons_self, isPrefix_of_kept? (Option.mem_toList.1 h)⟩
    · obtain ⟨l', hl', hk⟩ := ih h
      exact ⟨l', List.mem_cons_of_mem _ hl', hk⟩

/-- The kept lines are, in their order, parts of lines that were read. -/
theorem sublistForall₂_kept (m : Mode) (ls : List Text) :
    List.SublistForall₂ List.Sublist (readLines rules m ls).kept ls := by
  induction ls generalizing m with
  | nil => exact .nil
  | cons l ls ih =>
    rw [readLines, Reading.cons]
    cases h : (m.read rules l).kept? with
    | none => exact .cons_right (ih _)
    | some k => exact .cons (isPrefix_of_kept? h).sublist (ih _)

theorem unlines_kept_sublist (m : Mode) (ls : List Text) :
    List.Sublist (unlines (readLines rules m ls).kept) (unlines ls) :=
  unlines_sublist (sublistForall₂_kept m ls)

/-! ### Lines of code -/

/-- A carriage return at the end of a line goes to the comment if there is one. -/
theorem splitLine_eq_dropReturn (hr : rules.WellSpelled) (l : Text) :
    splitLine rules l =
      if (splitLine rules (dropReturn l)).commented then splitLine rules (dropReturn l)
      else ⟨l, false⟩ := by
  obtain ⟨w, hw, hl⟩ := exists_eq_dropReturn l
  have h := splitFrom_append_blank hr hw .code (dropReturn l)
  rwa [← hl] at h

theorem commented_dropReturn (hr : rules.WellSpelled) (l : Text) :
    (splitLine rules (dropReturn l)).commented = (splitLine rules l).commented := by
  rw [splitLine_eq_dropReturn hr l]
  split
  · rfl
  · next h => exact Bool.eq_false_iff.2 h

theorem kept?_code_eq_some_iff {l k : Text} :
    (Mode.code.read rules l).kept? = some k ↔
      docQuote? rules l.trim = none ∧ (splitLine rules l).code = k ∧ isBlankText k = false := by
  rw [Mode.read]
  split
  · next h =>
    refine ⟨fun h => (nomatch h), fun h' => ?_⟩
    rw [h'.1] at h
    cases h
  · next h =>
    rw [and_iff_right (Option.not_isSome_iff_eq_none.1 h), Fate.kept?]
    split
    · next hb =>
      refine ⟨fun h => (nomatch h), ?_⟩
      rintro ⟨rfl, hk⟩
      rw [hb] at hk
      cases hk
    · next hb =>
      rw [Option.some.injEq]
      refine ⟨fun h => ⟨h, ?_⟩, And.left⟩
      rw [← h]
      exact Bool.eq_false_iff.2 hb

theorem Mode.after_code_of_kept? {l k : Text} (h : (Mode.code.read rules l).kept? = some k) :
    Mode.code.after rules l = .ofCode rules k := by
  have hnone := (kept?_code_eq_some_iff.1 h).1
  rw [Mode.read, hnone] at h
  rw [Mode.after, hnone]
  dsimp only
  rw [show (Fate.code (splitLine rules l)).kept? = some k from h]

/-- A line that starts no docstring counts only by what it is cut into. -/
theorem readLines_congr {l l' : Text} (hl : docQuote? rules l.trim = none)
    (hl' : docQuote? rules l'.trim = none) (h : splitLine rules l = splitLine rules l')
    (ls : List Text) : readLines rules .code (l :: ls) = readLines rules .code (l' :: ls) := by
  simp only [readLines, Mode.read, Mode.after, hl, hl', h]

/-! ### What is lost -/

theorem nonblank_kept?_code (s : Split) :
    nonblank (Fate.code s).kept?.toList.flatten = nonblank s.code := by
  cases h : isBlankText s.code with
  | true => simp [Fate.kept?, h, nonblank_eq_nil_iff.2 h]
  | false => simp [Fate.kept?, h]

/-- A line comment that is cut off has the characters of the marker. -/
theorem length_nonblank_splitFrom_le (hr : rules.WellSpelled) (p : Place) (t : Text) :
    (nonblank (splitFrom rules p t).code).length + (splitFrom rules p t).commented.toNat ≤
      (nonblank t).length := by
  cases h : (splitFrom rules p t).commented with
  | false => simp [splitFrom_code_eq h]
  | true =>
    obtain ⟨r, ht, hstart⟩ := exists_eq_append_of_commented h
    obtain ⟨s, rfl⟩ := (startsComment_iff.1 hstart).1
    have hpos := List.length_pos_iff.2 hr.marker.ne_nil
    have hlen := congrArg (fun t => (nonblank t).length) ht
    simp only [nonblank_append, List.length_append, hr.marker.nonblank_eq] at hlen
    simp only [Bool.toNat_true]
    omega

theorem length_nonblank_pos_of_docQuote? (hr : rules.WellSpelled) {l : Text}
    (h : (docQuote? rules l.trim).isSome = true) : 0 < (nonblank l).length := by
  obtain ⟨q, hq⟩ := Option.isSome_iff_exists.1 h
  obtain ⟨hmem, hpre⟩ := mem_of_docQuote?_eq_some hq
  have hne : isBlankText l.trim = false :=
    (hr.docQuotes q hmem).not_isBlankText_of_isPrefix hpre
  rw [List.length_pos_iff, ← nonblank_trim]
  intro hnil
  rw [nonblank_eq_nil_iff.1 hnil] at hne
  cases hne

theorem length_nonblank_kept?_le (hr : rules.WellSpelled) (m : Mode) (l : Text) :
    (nonblank (m.read rules l).kept?.toList.flatten).length + (m.read rules l).lineComments +
      (m.read rules l).docstrings ≤ (nonblank l).length := by
  cases m with
  | literal q => simp [Mode.read, Fate.kept?, Fate.lineComments, Fate.docstrings]
  | docstring q => simp [Mode.read, Fate.kept?, Fate.lineComments, Fate.docstrings]
  | code =>
    rw [Mode.read]
    split
    · next h =>
      have := length_nonblank_pos_of_docQuote? hr h
      simp only [Fate.kept?, Fate.lineComments, Fate.docstrings, Option.toList_none,
        List.flatten_nil, nonblank_nil, List.length_nil]
      omega
    · rw [nonblank_kept?_code]
      exact length_nonblank_splitFrom_le hr .code l

theorem length_nonblank_kept_le (hr : rules.WellSpelled) (m : Mode) (ls : List Text) :
    (nonblank (readLines rules m ls).kept.flatten).length + (readLines rules m ls).lineComments +
      (readLines rules m ls).docstrings ≤ (nonblank ls.flatten).length := by
  induction ls generalizing m with
  | nil => simp [readLines]
  | cons l ls ih =>
    have hl := length_nonblank_kept?_le hr m l
    have hls := ih (m.after rules l)
    simp only [readLines, Reading.cons, List.flatten_append, List.flatten_cons, nonblank_append,
      List.length_append]
    omega

/-- The reader is in a docstring. -/
def Mode.InDocstring : Mode → Prop
  | .docstring _ => True
  | _ => False

/-- A line without a comment, outside docstrings, is kept or blank, and opens no docstring. -/
theorem nonblank_kept? {m : Mode} (hm : ¬ m.InDocstring) {l : Text}
    (hc : (m.read rules l).lineComments = 0) (hd : (m.read rules l).docstrings = 0) :
    nonblank (m.read rules l).kept?.toList.flatten = nonblank l ∧
      ¬ (m.after rules l).InDocstring := by
  cases m with
  | docstring q => exact absurd trivial hm
  | literal q =>
    refine ⟨by simp [Mode.read, Fate.kept?], ?_⟩
    rw [Mode.after]
    split <;> exact id
  | code =>
    rw [Mode.read] at hc hd ⊢
    split at hc
    · next h => rw [if_pos h] at hd; cases hd
    · next h =>
      have hnone : docQuote? rules l.trim = none := Option.not_isSome_iff_eq_none.1 h
      have hcomm : (splitLine rules l).commented = false := by simpa [Fate.lineComments] using hc
      have hcode : (splitLine rules l).code = l := splitFrom_code_eq hcomm
      refine ⟨by rw [if_neg h, nonblank_kept?_code, hcode], ?_⟩
      rw [Mode.after, hnone]
      dsimp only
      split
      · rw [Mode.ofCode]
        split <;> exact id
      · exact id

/-- Where nothing was counted, only blanks were lost. -/
theorem nonblank_kept {m : Mode} (hm : ¬ m.InDocstring) {ls : List Text}
    (hc : (readLines rules m ls).lineComments = 0) (hd : (readLines rules m ls).docstrings = 0) :
    nonblank (readLines rules m ls).kept.flatten = nonblank ls.flatten := by
  -- in a docstring lines go without being counted, but no docstring is open at any line
  induction ls generalizing m with
  | nil => rfl
  | cons l ls ih =>
    simp only [readLines, Reading.cons] at hc hd ⊢
    rw [Nat.add_eq_zero_iff] at hc hd
    obtain ⟨hl, hafter⟩ := nonblank_kept? hm hc.1 hd.1
    rw [List.flatten_append, nonblank_append, hl, ih hafter hc.2 hd.2, List.flatten_cons,
      nonblank_append]

end Uncomment.Comment
