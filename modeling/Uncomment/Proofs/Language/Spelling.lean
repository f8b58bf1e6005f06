import Uncomment.Language
import Uncomment.Text.Cut
import Uncomment.Proofs.Text.Blank
import Uncomment.Proofs.Text.Cut

/-! # How marks are spelled

A mark is a `Solid` text: it has a character, and none of its characters is blank. So blanks around
a text neither make nor break a mark: a solid text starts `t ++ w`, for a blank `w`, only if it
starts `t` (`Solid.isPrefix_append_blank_iff`), and it has as many copies in `w ++ t` as in `t`
(`Solid.count_blank_append`).

`Rules.WellSpelled` gathers what the theory asks of the rules of a language; the rules of every
language are well spelled (`Language.rules_wellSpelled`). -/

namespace Uncomment

namespace Text

/-- What starts with `m` across a seam starts with it before the seam, if `m` has no copy of the
character behind the seam. -/
theorem isPrefix_of_isPrefix_append {m x y : Text} (hy : ∀ c ∈ y.head?, c ∉ m) (h : m <+: x ++ y) :
    m <+: x := by
  rcases List.prefix_or_prefix_of_prefix h (List.prefix_append x y) with hx | ⟨s, rfl⟩
  · exact hx
  · have hs : s <+: y := (List.prefix_append_right_inj x).1 h
    cases s with
    | nil => simp
    | cons c s =>
      obtain ⟨r, rfl⟩ := hs
      exact absurd (by simp) (hy c (by simp))

/-- The same for what stands somewhere in the two texts. -/
theorem isInfix_of_isInfix_append {m x y : Text} (hy : ∀ c ∈ y.head?, c ∉ m) (h : m <:+: x ++ y) :
    m <:+: x ∨ m <:+: y := by
  rcases List.infix_append_iff_ne_nil.1 h with h | h | ⟨s, r, -, hr, rfl, -, hy'⟩
  · exact .inl h
  · exact .inr h
  · obtain ⟨c, r, rfl⟩ := List.exists_cons_of_ne_nil hr
    obtain ⟨z, rfl⟩ := hy'
    exact absurd (by simp) (hy c (by simp))

/-- At least one character, and none of them blank. -/
structure Solid (t : Text) : Prop where
  ne_nil : t ≠ []
  not_blank : ∀ c ∈ t, isBlank c = false

instance (t : Text) : Decidable (Solid t) :=
  decidable_of_iff ((!t.isEmpty && t.all (!isBlank ·)) = true)
    ⟨fun h => by simp at h; exact ⟨h.1, h.2⟩, fun ⟨h, h'⟩ => by simpa using ⟨h, h'⟩⟩

namespace Solid

variable {m t w : Text}

theorem newline_notMem (hm : Solid m) : '\n' ∉ m := fun h => by
  have := hm.not_blank _ h
  contradiction

theorem nonblank_eq (hm : Solid m) : nonblank m = m :=
  List.filter_eq_self.2 fun c hc => by simp [hm.not_blank c hc]

theorem not_isBlankText_of_isPrefix (hm : Solid m) (h : m <+: t) : isBlankText t = false := by
  obtain ⟨c, r, rfl⟩ := List.exists_cons_of_ne_nil hm.ne_nil
  obtain ⟨s, rfl⟩ := h
  simp [hm.not_blank c (by simp)]

theorem not_isPrefix_blank_cons (hm : Solid m) {c : Char} (hc : isBlank c = true) :
    ¬ m <+: c :: t := by
  intro h
  obtain ⟨d, r, rfl⟩ := List.exists_cons_of_ne_nil hm.ne_nil
  have hd := hm.not_blank d List.mem_cons_self
  exact ne_of_not_blank hd hc (List.cons_prefix_cons.1 h).1

theorem isInfix_blank_cons_iff (hm : Solid m) {c : Char} (hc : isBlank c = true) :
    m <:+: c :: t ↔ m <:+: t := by
  rw [List.infix_cons_iff, or_iff_right (hm.not_isPrefix_blank_cons hc)]

/-- A solid text that reaches into a blank one ends before it. -/
theorem isPrefix_append_blank_iff (hm : Solid m) (hw : isBlankText w = true) :
    m <+: t ++ w ↔ m <+: t := by
  refine ⟨isPrefix_of_isPrefix_append ?_, fun h => h.trans (List.prefix_append ..)⟩
  intro c hc hmem
  have hblank := isBlank_of_mem hw (List.mem_of_mem_head? hc)
  exact ne_of_not_blank (hm.not_blank c hmem) hblank rfl

theorem isPrefix_trim_iff (hm : Solid m) : m <+: trim t ↔ m <+: trimLeft t := by
  obtain ⟨w, hw, h⟩ := exists_eq_trimRight (trimLeft t)
  conv => rhs; rw [h]
  rw [hm.isPrefix_append_blank_iff hw, trim]

theorem not_isInfix_of_blank (hm : Solid m) (ht : isBlankText t = true) : ¬ m <:+: t := by
  intro h
  obtain ⟨c, r, rfl⟩ := List.exists_cons_of_ne_nil hm.ne_nil
  have hblank := isBlank_of_mem ht (h.subset List.mem_cons_self)
  exact ne_of_not_blank (hm.not_blank c List.mem_cons_self) hblank rfl

theorem count_blank_append (hm : Solid m) (hw : isBlankText w = true) :
    count m (w ++ t) = count m t := by
  induction w with
  | nil => rfl
  | cons c r ih =>
    simp only [isBlankText_cons, Bool.and_eq_true] at hw
    have hnone : lengthAt? m (c :: (r ++ t)) = none := by
      rw [lengthAt?, if_neg]
      intro h
      exact hm.not_isPrefix_blank_cons hw.1 (List.isPrefixOf_iff_prefix.1 h)
    rw [← ih hw.2, count, List.cons_append, countStretches_cons_of_none hnone, count]

end Solid

end Text

open Text

/-- Marks are solid, and they do not get into each other's way: behind the marker an exception has
no character of the marker, and no delimiter is a blank, a backslash or part of the marker. -/
structure Rules.WellSpelled (rules : Rules) : Prop where
  marker : Solid rules.marker
  except? : ∀ e ∈ rules.except?, Solid e
  except?_apart : ∀ e ∈ rules.except?, ∀ c ∈ e.drop rules.marker.length, c ∉ rules.marker
  block? : ∀ b ∈ rules.block?, Solid b.1 ∧ Solid b.2
  docQuotes : ∀ q ∈ rules.docQuotes, Solid q
  delimiters : ∀ d ∈ rules.delimiters, isBlank d = false ∧ d ≠ '\\' ∧ d ∉ rules.marker

theorem Language.rules_wellSpelled (l : Language) : l.rules.WellSpelled := by
  cases l with
  | javascript | cpp =>
    refine ⟨by decide, nofun, nofun, by decide, nofun, ?_⟩
    simp [rules, Rules.slashes, isBlank]
  | lua =>
    refine ⟨by decide, by decide, ?_, by decide, nofun, ?_⟩
    · simp [rules, Rules.dashes]
    · simp [rules, Rules.dashes, isBlank]
  | python =>
    refine ⟨by decide, nofun, nofun, nofun, by decide, ?_⟩
    simp [rules, Rules.hashes, isBlank]

theorem Language.docQuotes_eq_nil {l : Language} (h : l ≠ .python) : l.rules.docQuotes = [] := by
  cases l with
  | javascript | cpp | lua => rfl
  | python => contradiction

end Uncomment
