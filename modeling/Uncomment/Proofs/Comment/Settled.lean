import Mathlib.Data.List.Find
import Uncomment.Proofs.Comment.Reading

/-! # Lines that are read as they are

`Settled rules m ls`: read in the mode `m`, each of the lines is kept whole.

* The lines that a reader keeps are settled (`settled_kept`). A reader of kept lines does not see
  the docstrings, and stands in the code where the first reader stood in one of them
  (`Mode.outside`); otherwise the two are in the same mode after every line
  (`Mode.read_outside`, `Mode.outside_after_of_dropped`);
* lines stay settled without the blanks before the first (`Settled.blank_append`), without the
  blanks behind the last (`Settled.append_blank`) and with any blank lines made one empty line
  (`Settled.empty_cons`). -/

namespace Uncomment.Comment

open Text

variable {rules : Rules} {m : Mode}

/-- Read in the given mode, each of the lines is kept whole. -/
def Settled (rules : Rules) : Mode → List Text → Prop
  | _, [] => True
  | m, l :: ls => (m.read rules l).kept? = some l ∧ Settled rules (m.after rules l) ls

theorem Settled.kept_eq {ls : List Text} (h : Settled rules m ls) :
    (readLines rules m ls).kept = ls := by
  induction ls generalizing m with
  | nil => rfl
  | cons l ls ih =>
    obtain ⟨hl, hls⟩ := h
    rw [readLines, Reading.cons, hl, ih hls]
    rfl

theorem settled_append {xs ys : List Text} :
    Settled rules m (xs ++ ys) ↔
      Settled rules m xs ∧ Settled rules (readLines rules m xs).mode ys := by
  induction xs generalizing m with
  | nil => exact (and_iff_right trivial).symm
  | cons l ls ih =>
    rw [List.cons_append, Settled, Settled, ih, and_assoc]
    rfl

/-- Where nothing can be left open, every settled line is a line of code. -/
theorem Settled.kept?_eq_some (hq : rules.docQuotes = []) {ls : List Text}
    (h : Settled rules .code ls) : ∀ l ∈ ls, (Mode.code.read rules l).kept? = some l := by
  induction ls with
  | nil => exact nofun
  | cons l ls ih =>
    obtain ⟨hl, hls⟩ := h
    rw [Mode.after_of_docQuotes_eq_nil hq] at hls
    intro k hk
    rcases List.mem_cons.1 hk with rfl | hk
    · exact hl
    · exact ih hls k hk

theorem Settled.not_blank (hq : rules.docQuotes = []) {ls : List Text}
    (h : Settled rules .code ls) : ∀ l ∈ ls, isBlankText l = false := by
  intro l hl
  exact (kept?_code_eq_some_iff.1 (h.kept?_eq_some hq l hl)).2.2

/-! ### Code -/

/-- Without its comment a line starts no docstring that it did not start before. -/
theorem docQuote?_of_isPrefix (hr : rules.WellSpelled) {l k : Text} (hk : k <+: l)
    (hb : isBlankText k = false) (h : docQuote? rules l.trim = none) :
    docQuote? rules k.trim = none := by
  rw [docQuote?_eq_none_iff] at h ⊢
  intro q hq hqk
  refine h q hq ?_
  obtain ⟨r, rfl⟩ := hk
  rw [(hr.docQuotes q hq).isPrefix_trim_iff] at hqk ⊢
  rw [trimLeft_append hb]
  exact hqk.trans (List.prefix_append ..)

/-- What is kept of a line of code is kept as it is a second time. -/
theorem kept?_code_of_kept? (hr : rules.WellSpelled) {l k : Text}
    (h : (Mode.code.read rules l).kept? = some k) :
    (Mode.code.read rules k).kept? = some k := by
  have hpre := isPrefix_of_kept? h
  obtain ⟨hnone, rfl, hb⟩ := kept?_code_eq_some_iff.1 h
  refine kept?_code_eq_some_iff.2 ⟨docQuote?_of_isPrefix hr hpre hb hnone, ?_, hb⟩
  rw [splitLine, splitLine, splitFrom_code hr]

/-! ### The lines that are kept -/

/-- The mode of a reader that does not see docstrings. -/
def Mode.outside : Mode → Mode
  | .code | .docstring _ => .code
  | .literal q => .literal q

theorem Mode.outside_ofCode (code : Text) :
    (Mode.ofCode rules code).outside = .ofCode rules code := by
  rw [Mode.ofCode]
  split <;> rfl

theorem Mode.outside_after_of_dropped {l : Text} (h : (m.read rules l).kept? = none) :
    (m.after rules l).outside = m.outside := by
  cases m with
  | literal q => cases h
  | docstring q =>
    rw [Mode.after]
    split <;> rfl
  | code =>
    rw [Mode.read] at h
    rw [Mode.after]
    split
    · split <;> rfl
    · next hnone =>
      rw [hnone] at h
      rw [show (Fate.code (splitLine rules l)).kept? = none from h]

/-- A kept line is kept again, and leaves both readers in the same mode. -/
theorem Mode.read_outside (hr : rules.WellSpelled) {l k : Text}
    (h : (m.read rules l).kept? = some k) :
    (m.outside.read rules k).kept? = some k ∧
      m.outside.after rules k = (m.after rules l).outside := by
  cases m with
  | docstring q => cases h
  | literal q =>
    cases h
    refine ⟨rfl, ?_⟩
    rw [Mode.outside, Mode.after]
    split <;> rfl
  | code =>
    have hk := kept?_code_of_kept? hr h
    refine ⟨hk, ?_⟩
    rw [Mode.outside, Mode.after_code_of_kept? h, Mode.after_code_of_kept? hk, Mode.outside_ofCode]

theorem settled_kept (hr : rules.WellSpelled) (m : Mode) (ls : List Text) :
    Settled rules m.outside (readLines rules m ls).kept := by
  -- the second reader is in the mode `m.outside` wherever the first is in `m`
  induction ls generalizing m with
  | nil => trivial
  | cons l ls ih =>
    have hls := ih (m.after rules l)
    rw [readLines, Reading.cons]
    cases h : (m.read rules l).kept? with
    | none =>
      rw [Mode.outside_after_of_dropped h] at hls
      exact hls
    | some k =>
      obtain ⟨hk, hafter⟩ := Mode.read_outside hr h
      rw [← hafter] at hls
      exact ⟨hk, hls⟩

/-! ### Blanks around settled lines -/

theorem unclosed?_blank_append (hr : rules.WellSpelled) {w : Text} (hw : isBlankText w = true)
    (l : Text) : unclosed? rules (w ++ l) = unclosed? rules l := by
  refine List.find?_congr fun q hq => ?_
  rw [(hr.docQuotes q hq).count_blank_append hw]

theorem Settled.blank_append (hr : rules.WellSpelled) {w l : Text} {ls : List Text}
    (hw : isBlankText w = true) (h : Settled rules .code ((w ++ l) :: ls)) :
    Settled rules .code (l :: ls) := by
  obtain ⟨hl, hls⟩ := h
  obtain ⟨hnone, hcode, hb⟩ := kept?_code_eq_some_iff.1 hl
  have hl' : (Mode.code.read rules l).kept? = some l := by
    refine kept?_code_eq_some_iff.2 ⟨trim_blank_append hw l ▸ hnone, ?_, by simpa [hw] using hb⟩
    rw [splitLine_blank_append hr hw] at hcode
    exact List.append_cancel_left hcode
  refine ⟨hl', ?_⟩
  rw [Mode.after_code_of_kept? hl, Mode.ofCode, unclosed?_blank_append hr hw] at hls
  rw [Mode.after_code_of_kept? hl', Mode.ofCode]
  exact hls

theorem Settled.append_blank (hr : rules.WellSpelled) {w l : Text} {xs : List Text}
    (hw : isBlankText w = true) (hl : isBlankText l = false)
    (h : Settled rules m (xs ++ [l ++ w])) : Settled rules m (xs ++ [l]) := by
  obtain ⟨hxs, hlast, -⟩ := settled_append.1 h
  refine settled_append.2 ⟨hxs, ?_, trivial⟩
  revert hlast
  cases (readLines rules m xs).mode with
  | literal q => exact fun _ => rfl
  | docstring q => exact nofun
  | code =>
    intro hlast
    obtain ⟨hnone, hcode, -⟩ := kept?_code_eq_some_iff.1 hlast
    refine kept?_code_eq_some_iff.2 ⟨trim_append_blank hw l ▸ hnone, ?_, hl⟩
    rw [splitLine, splitFrom_append_blank hr hw] at hcode
    split at hcode
    · -- a comment in `l` leaves no room for the blanks
      have hle := (splitFrom_code_isPrefix rules .code l).length_le
      rw [hcode, List.length_append] at hle
      rw [splitLine, hcode, List.length_eq_zero_iff.1 (by omega : w.length = 0), List.append_nil]
    · next hcomm => exact splitFrom_code_eq (Bool.eq_false_iff.2 hcomm)

/-! ### Blank lines among settled lines -/

/-- What is open was opened by a quote of the language. -/
def Mode.Valid (rules : Rules) : Mode → Prop
  | .code => True
  | .docstring q | .literal q => q ∈ rules.docQuotes

theorem Mode.valid_code : Mode.code.Valid rules := trivial

theorem Mode.Valid.after (hm : m.Valid rules) (l : Text) : (m.after rules l).Valid rules := by
  cases m with
  | literal q | docstring q =>
    rw [Mode.after]
    split
    · trivial
    · exact hm
  | code =>
    rw [Mode.after]
    split
    · next q hq =>
      split
      · trivial
      · exact (mem_of_docQuote?_eq_some hq).1
    · split
      · rw [Mode.ofCode]
        split
        · next q hq => exact List.mem_of_find?_eq_some hq
        · trivial
      · trivial

theorem Mode.after_literal_of_blank (hr : rules.WellSpelled) {q b : Text}
    (hq : q ∈ rules.docQuotes) (hb : isBlankText b = true) :
    (Mode.literal q).after rules b = .literal q := by
  rw [Mode.after, if_neg]
  rw [occurs_iff_isInfix]
  exact (hr.docQuotes q hq).not_isInfix_of_blank hb

/-- A blank line is settled only within a literal, and the literal goes on behind it. -/
theorem settled_blank_cons_iff (hr : rules.WellSpelled) (hm : m.Valid rules) {b : Text}
    (hb : isBlankText b = true) {ls : List Text} :
    Settled rules m (b :: ls) ↔ (∃ q, m = .literal q) ∧ Settled rules m ls := by
  cases m with
  | literal q =>
    rw [Settled, Mode.after_literal_of_blank hr hm hb]
    exact and_congr_left fun _ => iff_of_true rfl ⟨q, rfl⟩
  | docstring q => exact iff_of_false (fun h => nomatch h.1) fun h => nomatch h.1
  | code =>
    refine iff_of_false (fun h => ?_) fun h => nomatch h.1
    have := (kept?_code_eq_some_iff.1 h.1).2.2
    rw [hb] at this
    cases this

/-- Blank lines, at least one, may be one empty line instead. -/
theorem Settled.empty_cons (hr : rules.WellSpelled) (hm : m.Valid rules) {bs ls ls' : List Text}
    (hne : bs ≠ []) (hbs : ∀ b ∈ bs, isBlankText b = true) (h : Settled rules m (bs ++ ls))
    (hls : Settled rules m ls → Settled rules m ls') : Settled rules m ([] :: ls') := by
  rw [settled_blank_cons_iff hr hm isBlankText_nil]
  induction bs with
  | nil => contradiction
  | cons b bs ih =>
    rw [List.cons_append, settled_blank_cons_iff hr hm (hbs b List.mem_cons_self)] at h
    cases bs with
    | nil => exact ⟨h.1, hls h.2⟩
    | cons b' bs => exact ih (by simp) (fun b hb => hbs b (List.mem_cons_of_mem _ hb)) h.2

end Uncomment.Comment
