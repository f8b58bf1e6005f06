import Uncomment.Comment
import Uncomment.Proofs.Language.Spelling

/-! # Cutting lines at their comments

How `splitFrom` acts on a line that is longer or shorter than another. Behind some text the reader
stands at `Place.through`, and a comment there is found no matter what stands before
(`splitFrom_append`), as long as no marker lies across the seam.

* Blanks at either end of a line have no part in the decision (`splitFrom_append_blank`,
  `splitLine_blank_append`);
* the code of a line has no comment of its own (`splitFrom_code`);
* a marker of one character cuts a line whatever follows it (`splitFrom_append_marker`);
* a closed literal is passed over as a whole (`splitLine_literal`). `LiteralBody d` is what may
  stand between its delimiters. -/

namespace Uncomment.Comment

open Text

variable {rules : Rules}

theorem startsComment_iff {t : Text} :
    startsComment rules t = true ↔ rules.marker <+: t ∧ ∀ e ∈ rules.except?, ¬ e <+: t := by
  cases h : rules.except? with
  | none => simp [startsComment, h]
  | some e => simp [startsComment, h, ← List.isPrefixOf_iff_prefix]

theorem Place.cuts_eq_true_iff {c : Char} {r : Text} {p : Place} :
    p.cuts rules c r = true ↔
      p = .code ∧ c ∉ rules.delimiters ∧ startsComment rules (c :: r) = true := by
  cases p <;> simp [cuts]

theorem splitFrom_of_cuts {p : Place} {c : Char} {r : Text} (h : p.cuts rules c r = true) :
    splitFrom rules p (c :: r) = ⟨[], true⟩ := by
  rw [splitFrom, if_pos h]

theorem splitFrom_of_not_cuts {p : Place} {c : Char} {r : Text} (h : p.cuts rules c r = false) :
    splitFrom rules p (c :: r) =
      ⟨c :: (splitFrom rules (p.next rules c) r).code,
        (splitFrom rules (p.next rules c) r).commented⟩ := by
  rw [splitFrom, h]
  rfl

/-- A comment that was cut off starts where the code ends. -/
theorem exists_eq_append_of_commented {p : Place} {t : Text}
    (h : (splitFrom rules p t).commented = true) :
    ∃ r, t = (splitFrom rules p t).code ++ r ∧ startsComment rules r = true := by
  induction t generalizing p with
  | nil => cases h
  | cons c r ih =>
    cases hc : p.cuts rules c r with
    | true =>
      rw [splitFrom_of_cuts hc]
      exact ⟨c :: r, rfl, (Place.cuts_eq_true_iff.1 hc).2.2⟩
    | false =>
      rw [splitFrom_of_not_cuts hc] at h ⊢
      obtain ⟨s, hs, hstart⟩ := ih h
      exact ⟨s, by rw [List.cons_append, ← hs], hstart⟩

/-! ### Reading on behind some text -/

/-- Where the reader stands behind a text without a comment. -/
def Place.through (rules : Rules) (p : Place) (t : Text) : Place :=
  t.foldl (fun p c => p.next rules c) p

@[simp] theorem Place.through_nil (p : Place) : p.through rules [] = p := rfl

@[simp] theorem Place.through_cons (p : Place) (c : Char) (t : Text) :
    p.through rules (c :: t) = (p.next rules c).through rules t := rfl

/-- No comment starts across the seam between two texts, if the second starts with a character
that is not in the marker. -/
theorem startsComment_of_append {x y : Text} (hy : ∀ c ∈ y.head?, c ∉ rules.marker)
    (h : startsComment rules (x ++ y) = true) : startsComment rules x = true := by
  obtain ⟨hmarker, hexcept⟩ := startsComment_iff.1 h
  refine startsComment_iff.2 ⟨isPrefix_of_isPrefix_append hy hmarker, fun e he hx => ?_⟩
  exact hexcept e he (hx.trans (List.prefix_append ..))

/-- Behind a text without a comment the reader goes on from where it stands. -/
theorem splitFrom_append {x y : Text} (hy : ∀ c ∈ y.head?, c ∉ rules.marker) {p : Place}
    (hx : (splitFrom rules p x).commented = false) :
    splitFrom rules p (x ++ y) =
      ⟨x ++ (splitFrom rules (p.through rules x) y).code,
        (splitFrom rules (p.through rules x) y).commented⟩ := by
  induction x generalizing p with
  | nil => rfl
  | cons c r ih =>
    cases hc : p.cuts rules c r with
    | true =>
      rw [splitFrom_of_cuts hc] at hx
      cases hx
    | false =>
      have hc' : p.cuts rules c (r ++ y) = false := by
        refine Bool.eq_false_iff.2 fun hcut => ?_
        obtain ⟨hp, hd, hstart⟩ := Place.cuts_eq_true_iff.1 hcut
        rw [Place.cuts_eq_true_iff.2 ⟨hp, hd, startsComment_of_append hy hstart⟩] at hc
        cases hc
      rw [splitFrom_of_not_cuts hc] at hx
      rw [List.cons_append, splitFrom_of_not_cuts hc', ih hx, Place.through_cons, List.cons_append]

/-! ### Blanks at the ends of a line -/

theorem startsComment_append_blank (hr : rules.WellSpelled) {w : Text}
    (hw : isBlankText w = true) (t : Text) :
    startsComment rules (t ++ w) = startsComment rules t := by
  rw [Bool.eq_iff_iff, startsComment_iff, startsComment_iff,
    hr.marker.isPrefix_append_blank_iff hw]
  refine and_congr_right fun _ => forall₂_congr fun e he => ?_
  rw [(hr.except? e he).isPrefix_append_blank_iff hw]

theorem startsComment_of_blank (hr : rules.WellSpelled) {c : Char} (hc : isBlank c = true)
    (t : Text) : startsComment rules (c :: t) = false := by
  refine Bool.eq_false_iff.2 fun h => ?_
  exact hr.marker.not_isPrefix_blank_cons hc (startsComment_iff.1 h).1

theorem Place.cuts_of_blank (hr : rules.WellSpelled) {c : Char} (hc : isBlank c = true)
    (t : Text) (p : Place) : p.cuts rules c t = false := by
  refine Bool.eq_false_iff.2 fun h => ?_
  have hstart := (Place.cuts_eq_true_iff.1 h).2.2
  rw [startsComment_of_blank hr hc] at hstart
  contradiction

theorem splitFrom_of_blank (hr : rules.WellSpelled) {w : Text} (hw : isBlankText w = true)
    (p : Place) : splitFrom rules p w = ⟨w, false⟩ := by
  induction w generalizing p with
  | nil => rfl
  | cons c w ih =>
    simp only [isBlankText_cons, Bool.and_eq_true] at hw
    rw [splitFrom_of_not_cuts (Place.cuts_of_blank hr hw.1 w p), ih hw.2]

/-- Blanks at the end of a line go to the comment if there is one, and to the code otherwise. -/
theorem splitFrom_append_blank (hr : rules.WellSpelled) {w : Text} (hw : isBlankText w = true)
    (p : Place) (t : Text) :
    splitFrom rules p (t ++ w) =
      if (splitFrom rules p t).commented then splitFrom rules p t else ⟨t ++ w, false⟩ := by
  induction t generalizing p with
  | nil => exact splitFrom_of_blank hr hw p
  | cons c r ih =>
    have hcuts : p.cuts rules c (r ++ w) = p.cuts rules c r := by
      rw [Bool.eq_iff_iff, Place.cuts_eq_true_iff, Place.cuts_eq_true_iff, ← List.cons_append,
        startsComment_append_blank hr hw]
    rw [List.cons_append]
    cases hc : p.cuts rules c r with
    | true =>
      rw [splitFrom_of_cuts hc, splitFrom_of_cuts (hcuts.trans hc)]
      rfl
    | false =>
      rw [splitFrom_of_not_cuts hc, splitFrom_of_not_cuts (hcuts.trans hc), ih]
      split <;> rfl

theorem splitLine_blank_append (hr : rules.WellSpelled) {w : Text} (hw : isBlankText w = true)
    (t : Text) :
    splitLine rules (w ++ t) = ⟨w ++ (splitLine rules t).code, (splitLine rules t).commented⟩ := by
  induction w with
  | nil => rfl
  | cons c w ih =>
    simp only [isBlankText_cons, Bool.and_eq_true] at hw
    have hc : Place.code.cuts rules c (w ++ t) = false := Place.cuts_of_blank hr hw.1 _ _
    have hnext : Place.code.next rules c = .code :=
      if_neg fun hd => ne_of_not_blank (hr.delimiters c hd).1 hw.1 rfl
    rw [List.cons_append, splitLine, splitFrom_of_not_cuts hc, hnext]
    exact congrArg (fun s : Split => (⟨c :: s.code, s.commented⟩ : Split)) (ih hw.2)

/-! ### The code of a line -/

/-- A comment that starts `x` starts `x ++ r` too, if another one starts `r`: an exception to the
first would reach into the second and hold a character of the marker. -/
theorem startsComment_append (hr : rules.WellSpelled) {x r : Text}
    (hx : startsComment rules x = true) (h : startsComment rules r = true) :
    startsComment rules (x ++ r) = true := by
  obtain ⟨hmarker, hexcept⟩ := startsComment_iff.1 hx
  refine startsComment_iff.2 ⟨hmarker.trans (List.prefix_append ..), fun e he hpre => ?_⟩
  rcases List.prefix_or_prefix_of_prefix hpre (List.prefix_append x r) with h' | ⟨s, rfl⟩
  · exact hexcept e he h'
  · have hs : s <+: r := (List.prefix_append_right_inj x).1 hpre
    cases s with
    | nil => exact hexcept _ he (by simp)
    | cons c s =>
      obtain ⟨d, m, hm⟩ := List.exists_cons_of_ne_nil hr.marker.ne_nil
      have hc : c = d := by
        obtain ⟨y, rfl⟩ := hs
        have := (startsComment_iff.1 h).1
        rw [hm] at this
        exact (List.cons_prefix_cons.1 this).1.symm
      refine hr.except?_apart _ he c ?_ (by simp [hm, hc])
      rw [List.drop_append_of_le_length hmarker.length_le]
      simp

theorem splitFrom_code (hr : rules.WellSpelled) (p : Place) (t : Text) :
    splitFrom rules p (splitFrom rules p t).code = ⟨(splitFrom rules p t).code, false⟩ := by
  induction t generalizing p with
  | nil => rfl
  | cons c r ih =>
    cases hc : p.cuts rules c r with
    | true =>
      rw [splitFrom_of_cuts hc]
      rfl
    | false =>
      -- a marker that the end of the code completes would have been one in the whole line
      have hc' : p.cuts rules c (splitFrom rules (p.next rules c) r).code = false := by
        cases hs : (splitFrom rules (p.next rules c) r).commented with
        | false => rwa [splitFrom_code_eq hs]
        | true =>
          obtain ⟨s, hr', hstart⟩ := exists_eq_append_of_commented hs
          refine Bool.eq_false_iff.2 fun hcut => ?_
          obtain ⟨hp, hd, h⟩ := Place.cuts_eq_true_iff.1 hcut
          have := startsComment_append hr h hstart
          rw [List.cons_append, ← hr'] at this
          rw [Place.cuts_eq_true_iff.2 ⟨hp, hd, this⟩] at hc
          cases hc
      rw [splitFrom_of_not_cuts hc, splitFrom_of_not_cuts hc', ih]

theorem splitLine_eq_self_iff {l : Text} :
    splitLine rules l = ⟨l, false⟩ ↔ (splitLine rules l).commented = false := by
  constructor
  · intro h
    rw [h]
  · intro h
    calc
      splitLine rules l = ⟨(splitLine rules l).code, (splitLine rules l).commented⟩ := rfl
      _ = ⟨l, false⟩ := by rw [h, splitLine, splitFrom_code_eq h]

theorem commented_eq_false_of_code_eq (hr : rules.WellSpelled) {l : Text}
    (h : (splitLine rules l).code = l) : (splitLine rules l).commented = false := by
  have hcode : splitLine rules (splitLine rules l).code = ⟨(splitLine rules l).code, false⟩ :=
    splitFrom_code hr .code l
  rw [h] at hcode
  rw [hcode]

/-! ### Markers of one character -/

theorem Place.cuts_congr {d : Char} (hm : rules.marker = [d]) (he : rules.except? = none)
    (p : Place) (c : Char) (r s : Text) : p.cuts rules c r = p.cuts rules c s := by
  cases p <;> simp [cuts, startsComment, hm, he, List.isPrefixOf]

/-- Where a marker of one character cuts a line, it does so whatever follows it. -/
theorem splitFrom_append_marker {d : Char} (hm : rules.marker = [d]) (he : rules.except? = none)
    {p : Place} {x u : Text} (h : splitFrom rules p (x ++ d :: u) = ⟨x, true⟩) (v : Text) :
    splitFrom rules p (x ++ d :: v) = ⟨x, true⟩ := by
  induction x generalizing p with
  | nil =>
    cases hc : p.cuts rules d u with
    | true => exact splitFrom_of_cuts ((Place.cuts_congr hm he p d v u).trans hc)
    | false =>
      rw [List.nil_append, splitFrom_of_not_cuts hc] at h
      cases h
  | cons c x ih =>
    cases hc : p.cuts rules c (x ++ d :: u) with
    | true =>
      rw [List.cons_append, splitFrom_of_cuts hc] at h
      cases h
    | false =>
      have hc' : p.cuts rules c (x ++ d :: v) = false := (Place.cuts_congr hm he p c _ _).trans hc
      rw [List.cons_append, splitFrom_of_not_cuts hc] at h
      cases hs : splitFrom rules (p.next rules c) (x ++ d :: u) with
      | mk code commented =>
        rw [hs] at h
        cases h
        rw [List.cons_append, splitFrom_of_not_cuts hc', ih hs]

/-! ### Literals -/

/-- What may stand between two delimiters `d`: characters other than `d` and the backslash, and
pairs of a backslash and any character. -/
inductive LiteralBody (d : Char) : Text → Prop
  | nil : LiteralBody d []
  | char {c : Char} {t : Text} : c ≠ d → c ≠ '\\' → LiteralBody d t → LiteralBody d (c :: t)
  | pair (c : Char) {t : Text} : LiteralBody d t → LiteralBody d ('\\' :: c :: t)

/-- The reader passes through the body of a literal to the delimiter behind it. -/
theorem LiteralBody.splitFrom {d : Char} {body : Text} (h : LiteralBody d body) (y : Text) :
    splitFrom rules (.literal d) (body ++ y) =
      ⟨body ++ (splitFrom rules (.literal d) y).code,
        (splitFrom rules (.literal d) y).commented⟩ := by
  induction h with
  | nil => rfl
  | char hd hb _ ih =>
    rw [List.cons_append, splitFrom_of_not_cuts rfl, Place.next, if_neg hb, if_neg hd, ih,
      List.cons_append]
  | pair c _ ih =>
    rw [List.cons_append, splitFrom_of_not_cuts rfl, Place.next, if_pos rfl, List.cons_append,
      splitFrom_of_not_cuts rfl, Place.next, ih]
    rfl

theorem splitLine_literal {d : Char} (hd : d ∈ rules.delimiters) (hback : d ≠ '\\') {body : Text}
    (h : LiteralBody d body) (y : Text) :
    splitLine rules (d :: (body ++ d :: y)) =
      ⟨d :: (body ++ d :: (splitLine rules y).code), (splitLine rules y).commented⟩ := by
  have hcut : Place.code.cuts rules d (body ++ d :: y) = false := by simp [Place.cuts, hd]
  have hopen : Place.code.next rules d = .literal d := if_pos hd
  have hclose : (Place.literal d).next rules d = .code := by
    rw [Place.next, if_neg hback, if_pos rfl]
  rw [splitLine, splitFrom_of_not_cuts hcut, hopen, h.splitFrom, splitFrom_of_not_cuts rfl, hclose]
  rfl

end Uncomment.Comment
