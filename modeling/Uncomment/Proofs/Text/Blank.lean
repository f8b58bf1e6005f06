import Uncomment.Text.Basic

/-! # Blanks and what is left of a text without them

* `nonblank t`: the characters of `t` that are not blank, in their order. Trimming keeps them
  (`nonblank_trim`), and a text without any is blank (`nonblank_eq_nil_iff`);
* every text is its trimmed form between two blank texts (`exists_eq_trim`), and blanks around a
  text do not change its trimmed form (`trim_blank_append`, `trim_append_blank`);
* `gap_induction`: induction from one character that is not blank to the next. -/

namespace Uncomment.Text

/-! ### Blank texts -/

@[simp] theorem isBlankText_nil : isBlankText [] = true := rfl

@[simp] theorem isBlankText_cons {c : Char} {t : Text} :
    isBlankText (c :: t) = (isBlank c && isBlankText t) := rfl

@[simp] theorem isBlankText_append {s t : Text} :
    isBlankText (s ++ t) = (isBlankText s && isBlankText t) := List.all_append

theorem isBlank_of_mem {c : Char} {t : Text} (ht : isBlankText t = true) (hc : c ∈ t) :
    isBlank c = true := List.all_eq_true.1 ht c hc

theorem isBlankText_takeWhile (t : Text) : isBlankText (t.takeWhile isBlank) = true :=
  List.all_takeWhile

theorem ne_of_not_blank {c d : Char} (hc : isBlank c = false) (hd : isBlank d = true) : c ≠ d := by
  rintro rfl
  rw [hc] at hd
  cases hd

/-- A text that is not blank shows where its leading blanks end. -/
theorem exists_not_blank {t : Text} (h : isBlankText t = false) :
    ∃ w c r, isBlankText w = true ∧ isBlank c = false ∧ t = w ++ c :: r := by
  induction t with
  | nil => simp at h
  | cons c r ih =>
    cases hc : isBlank c with
    | false => exact ⟨[], c, r, rfl, hc, rfl⟩
    | true =>
      simp only [isBlankText_cons, hc, Bool.true_and] at h
      obtain ⟨w, d, s, hw, hd, rfl⟩ := ih h
      exact ⟨c :: w, d, s, by simp [hc, hw], hd, rfl⟩

/-- The same from behind. -/
theorem exists_not_blank_last {t : Text} (h : isBlankText t = false) :
    ∃ r c w, isBlankText w = true ∧ isBlank c = false ∧ t = r ++ c :: w := by
  obtain ⟨w, c, r, hw, hc, ht⟩ := exists_not_blank (t := t.reverse) (by simpa [isBlankText] using h)
  refine ⟨r.reverse, c, w.reverse, by simpa [isBlankText] using hw, hc, ?_⟩
  rw [← List.reverse_reverse t, ht]
  simp

/-- Texts are read gap by gap: blanks up to the end, or blanks, one other character and a rest. -/
theorem gap_induction {motive : Text → Prop}
    (blank : ∀ w, isBlankText w = true → motive w)
    (step : ∀ w c r, isBlankText w = true → isBlank c = false → motive r → motive (w ++ c :: r))
    (t : Text) : motive t := by
  induction h : t.length using Nat.strongRecOn generalizing t with
  | ind n ih =>
    cases ht : isBlankText t with
    | true => exact blank t ht
    | false =>
      obtain ⟨w, c, r, hw, hc, rfl⟩ := exists_not_blank ht
      refine step w c r hw hc (ih r.length ?_ r rfl)
      simp only [List.length_append, List.length_cons] at h
      omega

/-! ### The characters that are not blank -/

/-- The characters of a text that are not blank. -/
def nonblank (t : Text) : Text := t.filter (!isBlank ·)

@[simp] theorem nonblank_nil : nonblank [] = [] := rfl

@[simp] theorem nonblank_append (s t : Text) : nonblank (s ++ t) = nonblank s ++ nonblank t :=
  List.filter_append ..

theorem nonblank_cons (c : Char) (t : Text) :
    nonblank (c :: t) = if isBlank c then nonblank t else c :: nonblank t := by
  cases h : isBlank c <;> simp [nonblank, h]

theorem nonblank_eq_nil_iff {t : Text} : nonblank t = [] ↔ isBlankText t = true := by
  simp [nonblank, isBlankText, List.filter_eq_nil_iff]

@[simp] theorem nonblank_newline (t : Text) : nonblank ('\n' :: t) = nonblank t := rfl

/-! ### Trimming -/

theorem trimLeft_append_of_blank {w : Text} (hw : isBlankText w = true) (t : Text) :
    trimLeft (w ++ t) = trimLeft t :=
  List.dropWhile_append_of_pos fun _ hc => isBlank_of_mem hw hc

theorem trimLeft_append {s : Text} (hs : isBlankText s = false) (t : Text) :
    trimLeft (s ++ t) = trimLeft s ++ t := by
  obtain ⟨w, c, r, hw, hc, rfl⟩ := exists_not_blank hs
  rw [List.append_assoc, trimLeft_append_of_blank hw, trimLeft_append_of_blank hw]
  simp [trimLeft, hc]

theorem trimLeft_append_cons {c : Char} (hc : isBlank c = false) (x y : Text) :
    trimLeft (x ++ c :: y) = trimLeft x ++ c :: y := by
  cases hx : isBlankText x with
  | true =>
    rw [trimLeft_append_of_blank hx, trimLeft_eq_nil_iff.2 hx]
    simp [trimLeft, hc]
  | false => exact trimLeft_append hx _

theorem trimRight_eq_reverse (t : Text) : trimRight t = (trimLeft t.reverse).reverse := rfl

theorem trimRight_append_of_blank {w : Text} (hw : isBlankText w = true) (t : Text) :
    trimRight (t ++ w) = trimRight t := by
  have hr : isBlankText w.reverse = true := by simpa [isBlankText] using hw
  rw [trimRight_eq_reverse, List.reverse_append, trimLeft_append_of_blank hr, trimRight_eq_reverse]

theorem trimRight_append_cons {c : Char} (hc : isBlank c = false) (x y : Text) :
    trimRight (x ++ c :: y) = x ++ c :: trimRight y := by
  have h := trimLeft_append_cons hc y.reverse x.reverse
  rw [trimRight_eq_reverse, List.reverse_append, List.reverse_cons, List.append_assoc,
    List.singleton_append, h, trimRight_eq_reverse]
  simp

theorem trimRight_append {t : Text} (ht : isBlankText t = false) (s : Text) :
    trimRight (s ++ t) = s ++ trimRight t := by
  obtain ⟨r, c, w, -, hc, rfl⟩ := exists_not_blank_last ht
  rw [← List.append_assoc, trimRight_append_cons hc, trimRight_append_cons hc, List.append_assoc]

theorem exists_eq_trimLeft (t : Text) : ∃ w, isBlankText w = true ∧ t = w ++ trimLeft t :=
  ⟨t.takeWhile isBlank, isBlankText_takeWhile t, List.takeWhile_append_dropWhile.symm⟩

theorem exists_eq_trimRight (t : Text) : ∃ w, isBlankText w = true ∧ t = trimRight t ++ w := by
  obtain ⟨w, hw, h⟩ := exists_eq_trimLeft t.reverse
  refine ⟨w.reverse, by simpa [isBlankText] using hw, ?_⟩
  rw [trimRight_eq_reverse, ← List.reverse_append, ← h, List.reverse_reverse]

/-- A text is its trimmed form with blanks on either side. -/
theorem exists_eq_trim (t : Text) :
    ∃ w w', isBlankText w = true ∧ isBlankText w' = true ∧ t = w ++ trim t ++ w' := by
  obtain ⟨w, hw, hl⟩ := exists_eq_trimLeft t
  obtain ⟨w', hw', hr⟩ := exists_eq_trimRight (trimLeft t)
  refine ⟨w, w', hw, hw', ?_⟩
  rw [List.append_assoc, trim, ← hr, ← hl]

theorem trim_blank_append {w : Text} (hw : isBlankText w = true) (t : Text) :
    trim (w ++ t) = trim t := by
  rw [trim, trimLeft_append_of_blank hw, trim]

theorem trim_append_blank {w : Text} (hw : isBlankText w = true) (t : Text) :
    trim (t ++ w) = trim t := by
  cases ht : isBlankText t with
  | true =>
    have hb : isBlankText (t ++ w) = true := by simp [ht, hw]
    rw [trim_eq_nil_iff.2 hb, trim_eq_nil_iff.2 ht]
  | false => rw [trim, trimLeft_append ht, trimRight_append_of_blank hw, trim]

theorem trim_trim (t : Text) : trim (trim t) = trim t := by
  obtain ⟨w, w', hw, hw', h⟩ := exists_eq_trim t
  conv => rhs; rw [h]
  rw [trim_append_blank hw', trim_blank_append hw]

theorem nonblank_trimLeft (t : Text) : nonblank (trimLeft t) = nonblank t := by
  obtain ⟨w, hw, h⟩ := exists_eq_trimLeft t
  conv => rhs; rw [h]
  rw [nonblank_append, nonblank_eq_nil_iff.2 hw, List.nil_append]

theorem nonblank_trim (t : Text) : nonblank (trim t) = nonblank t := by
  obtain ⟨w, w', hw, hw', h⟩ := exists_eq_trim t
  conv => rhs; rw [h]
  simp [nonblank_eq_nil_iff.2 hw, nonblank_eq_nil_iff.2 hw']

theorem trim_sublist (t : Text) : List.Sublist (trim t) t := by
  obtain ⟨w, w', -, -, h⟩ := exists_eq_trim t
  conv => rhs; rw [h]
  exact (List.sublist_append_right ..).trans (List.sublist_append_left ..)

theorem not_blank_of_mem_head?_trim {t : Text} {c : Char} (h : c ∈ (trim t).head?) :
    isBlank c = false := by
  obtain ⟨r, hr⟩ := List.head?_eq_some_iff.1 h
  refine Bool.eq_false_iff.2 fun hc => ?_
  -- a blank at the start would be trimmed a second time
  have hw : isBlankText [c] = true := by simp [hc]
  have htrim : trim r = c :: r := by
    rw [← trim_blank_append hw, List.singleton_append, ← hr, trim_trim]
  have hle := (trim_sublist r).length_le
  rw [htrim, List.length_cons] at hle
  omega

theorem not_blank_of_mem_getLast?_trim {t : Text} {c : Char} (h : c ∈ (trim t).getLast?) :
    isBlank c = false := by
  obtain ⟨r, hr⟩ := List.getLast?_eq_some_iff.1 h
  refine Bool.eq_false_iff.2 fun hc => ?_
  have hw : isBlankText [c] = true := by simp [hc]
  have htrim : trim r = r ++ [c] := by rw [← trim_append_blank hw, ← hr, trim_trim]
  have hle := (trim_sublist r).length_le
  rw [htrim, List.length_append, List.length_singleton] at hle
  omega

end Uncomment.Text
