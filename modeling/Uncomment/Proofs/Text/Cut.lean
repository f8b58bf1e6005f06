import Uncomment.Text.Cut

/-! # The pieces of a text

A reader of stretches is `Bounded` when every stretch that it finds has a character and lies within
the text. For such a reader

* there is no stretch among its pieces exactly when none is found at any place
  (`countStretches_eq_zero_iff`), and then replacing changes nothing (`replace_eq_self`);
* two texts put together are cut into the pieces of the one and the pieces of the other, if the
  second changes no answer at a place where the first is cut (`cut_append`).

`lastGap ps` is the text behind the last stretch of the pieces `ps`. -/

namespace Uncomment.Text

theorem replace_cons_of_none {found : Text → Option Nat} {c : Char} {r : Text}
    (h : found (c :: r) = none) (new : Text → Text) :
    replace found new (c :: r) = c :: replace found new r := by
  rw [replace, cut_cons_of_none h]
  rfl

theorem countStretches_cons_of_none {found : Text → Option Nat} {c : Char} {r : Text}
    (h : found (c :: r) = none) : countStretches found (c :: r) = countStretches found r := by
  rw [countStretches, cut_cons_of_none h]
  exact List.countP_cons_of_neg Bool.false_ne_true

/-- Every stretch that is found has a character and lies within the text. -/
def Bounded (found : Text → Option Nat) : Prop :=
  ∀ ⦃s n⦄, found s = some n → 0 < n ∧ n ≤ s.length

namespace Bounded

variable {found : Text → Option Nat} (hf : Bounded found)
include hf

theorem found_nil : found [] = none := by
  cases h : found [] with
  | none => rfl
  | some n =>
    have := hf h
    simp only [List.length_nil] at this
    omega

theorem cut_of_some {s : Text} {n : Nat} (h : found s = some n) :
    cut found s = .stretch (s.take n) :: cut found (s.drop n) := by
  obtain ⟨hpos, hle⟩ := hf h
  cases s with
  | nil =>
    simp only [List.length_nil] at hle
    omega
  | cons c r =>
    cases n with
    | zero => omega
    | succ n => exact cut_cons_of_some h

theorem replace_of_some {s : Text} {n : Nat} (h : found s = some n) (new : Text → Text) :
    replace found new s = new (s.take n) ++ replace found new (s.drop n) := by
  rw [replace, hf.cut_of_some h]
  rfl

theorem countStretches_of_some {s : Text} {n : Nat} (h : found s = some n) :
    countStretches found s = countStretches found (s.drop n) + 1 := by
  rw [countStretches, hf.cut_of_some h]
  exact List.countP_cons_of_pos rfl

/-- Induction along the places where a text is cut. -/
theorem cut_induction {motive : Text → Prop} (nil : motive [])
    (char : ∀ c r, found (c :: r) = none → motive r → motive (c :: r))
    (stretch : ∀ s n, found s = some n → motive (s.drop n) → motive s) (t : Text) : motive t := by
  induction h : t.length using Nat.strongRecOn generalizing t with
  | ind k ih =>
    cases ht : found t with
    | some n =>
      obtain ⟨hpos, hle⟩ := hf ht
      refine stretch t n ht (ih (t.drop n).length ?_ _ rfl)
      rw [List.length_drop]
      omega
    | none =>
      cases t with
      | nil => exact nil
      | cons c r => exact char c r ht (ih r.length (by simp [← h]) r rfl)

omit hf in
theorem cut_eq_map_char {t : Text} (h : ∀ s, s <:+ t → found s = none) :
    cut found t = t.map .char := by
  induction t with
  | nil => rfl
  | cons c r ih =>
    rw [cut_cons_of_none (h _ List.suffix_rfl), List.map_cons,
      ih fun s hs => h s (hs.trans (List.suffix_cons ..))]

theorem countStretches_eq_zero_iff {t : Text} :
    countStretches found t = 0 ↔ ∀ s, s <:+ t → found s = none := by
  refine ⟨fun h => ?_, fun h => ?_⟩
  · rw [countStretches, List.countP_eq_zero] at h
    induction t using hf.cut_induction with
    | nil =>
      intro s hs
      rw [List.suffix_nil.1 hs]
      exact hf.found_nil
    | char c r hn ih =>
      rw [cut_cons_of_none hn] at h
      intro s hs
      rcases List.suffix_cons_iff.1 hs with rfl | hs
      · exact hn
      · exact ih (fun p hp => h p (List.mem_cons_of_mem _ hp)) s hs
    | stretch s n hs _ =>
      -- the first piece is a stretch, against the assumption
      rw [hf.cut_of_some hs] at h
      exact absurd rfl (h _ List.mem_cons_self)
  · rw [countStretches, cut_eq_map_char h, List.countP_eq_zero]
    simp [Piece.isStretch]

theorem replace_eq_self {t : Text} (h : countStretches found t = 0) (new : Text → Text) :
    replace found new t = t := by
  rw [replace, cut_eq_map_char (hf.countStretches_eq_zero_iff.1 h), List.flatMap_map]
  simp

/-- Cutting two texts put together. The second one may change no answer at a place where the first
is cut; `P` is what is known of the text at such a place. -/
theorem cut_append {P : Text → Prop} {x y : Text}
    (hfound : ∀ s, s ≠ [] → P s → found (s ++ y) = found s)
    (hchar : ∀ c r, found (c :: r) = none → P (c :: r) → P r)
    (hstretch : ∀ s n, found s = some n → P s → P (s.drop n)) (hx : P x) :
    cut found (x ++ y) = cut found x ++ cut found y := by
  induction x using hf.cut_induction with
  | nil => rfl
  | char c r h ih =>
    have h' : found (c :: (r ++ y)) = none := (hfound (c :: r) (by simp) hx).trans h
    rw [List.cons_append, cut_cons_of_none h', cut_cons_of_none h, ih (hchar c r h hx)]
    rfl
  | stretch s n h ih =>
    obtain ⟨hpos, hle⟩ := hf h
    have hs : s ≠ [] := by
      rintro rfl
      simp only [List.length_nil] at hle
      omega
    have h' : found (s ++ y) = some n := (hfound s hs hx).trans h
    rw [hf.cut_of_some h', hf.cut_of_some h, List.take_append_of_le_length hle,
      List.drop_append_of_le_length hle, ih (hstretch s n h hx)]
    rfl

end Bounded

/-! ### Behind the last stretch -/

/-- The text behind the last stretch. -/
def lastGap : List Piece → Text
  | [] => []
  | .stretch _ :: ps => lastGap ps
  | .char c :: ps => if ps.any (·.isStretch) then lastGap ps else c :: lastGap ps

theorem lastGap_suffix_cons (p : Piece) (ps : List Piece) : lastGap ps <:+ lastGap (p :: ps) := by
  cases p with
  | stretch u => exact List.suffix_rfl
  | char c =>
    rw [lastGap]
    split
    · exact List.suffix_rfl
    · exact List.suffix_cons ..

theorem lastGap_append_char (ps : List Piece) (c : Char) :
    lastGap (ps ++ [.char c]) = lastGap ps ++ [c] := by
  induction ps with
  | nil => rfl
  | cons p ps ih =>
    cases p with
    | stretch u => exact ih
    | char d =>
      have hany : (ps ++ [Piece.char c]).any (·.isStretch) = ps.any (·.isStretch) := by
        rw [List.any_append]
        exact Bool.or_false _
      simp only [List.cons_append, lastGap, hany, ih]
      split <;> rfl

theorem lastGap_map_char (t : Text) : lastGap (t.map .char) = t := by
  induction t with
  | nil => rfl
  | cons c r ih =>
    have hany : (r.map Piece.char).any (·.isStretch) = false := by
      rw [List.any_eq_false]
      simp [Piece.isStretch]
    rw [List.map_cons, lastGap, hany, ih]
    rfl

end Uncomment.Text
