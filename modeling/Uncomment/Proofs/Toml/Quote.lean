import Mathlib.Data.List.Basic
import Uncomment.Toml.Document

/-! # What strings stand for

A string in double quotes stands for what is between its quotes, or, if there is an escape between
them, for a shorter text (`basic_cases`). Between triple quotes it is shorter than what is between
the first of the three and the last (`length_multiBasic`). So a text that is put between quotes
reads as itself only if its characters all stand for themselves (`all_isVerbatim_of_quoted?`), and
then it does (`quoted?_of_all_isVerbatim`). If it has neither quotes nor backslashes, nothing else
can come of it (`quoted?_of_notMem_of_notMem`).

A value that starts with a double quote is a string (`flat?_quote`). -/

namespace Uncomment.Toml

/-- A character that stands for itself between double quotes. -/
def isVerbatim (c : Char) : Bool := isPlain c && c != '"' && c != '\\'

theorem isVerbatim_iff {c : Char} :
    isVerbatim c = true ↔ isPlain c = true ∧ c ≠ '"' ∧ c ≠ '\\' := by
  simp [isVerbatim, and_assoc]

variable {k : Nat} {t s v w rest : Text}

/-! ### One line -/

/-- An escape has at least one character behind the backslash. -/
theorem escape?_pos {e : Char} {n : Nat} (h : escape? t = some (e, n)) : 0 < n := by
  unfold escape? at h
  split at h
  all_goals first
    | cases h <;> omega
    | (obtain ⟨c, -, heq⟩ := Option.map_eq_some_iff.1 h; cases heq; omega)

/-- What the first character of the rest of a string can be. -/
theorem basic_zero_cons {c : Char} {r : Text} (h : basic 0 (c :: r) = some (s, rest)) :
    (c = '"' ∧ s = [] ∧ rest = r) ∨
      (c = '\\' ∧ ∃ e n s', 0 < n ∧ basic n r = some (s', rest) ∧ s = e :: s') ∨
      (isVerbatim c = true ∧ ∃ s', basic 0 r = some (s', rest) ∧ s = c :: s') := by
  rw [basic] at h
  split at h
  · next hc =>
    cases h
    exact .inl ⟨hc, rfl, rfl⟩
  · next hquote =>
    split at h
    · next hc =>
      split at h
      · next e n he =>
        obtain ⟨⟨s', rest'⟩, hs, heq⟩ := Option.map_eq_some_iff.1 h
        cases heq
        exact .inr (.inl ⟨hc, e, n, s', escape?_pos he, hs, rfl⟩)
      · cases h
    · next hescape =>
      split at h
      · next hplain =>
        obtain ⟨⟨s', rest'⟩, hs, heq⟩ := Option.map_eq_some_iff.1 h
        cases heq
        exact .inr (.inr ⟨isVerbatim_iff.2 ⟨hplain, hquote, hescape⟩, s', hs, rfl⟩)
      · cases h

theorem length_basic (h : basic k t = some (s, rest)) :
    ∃ inner, t = inner ++ '"' :: rest ∧ s.length + k ≤ inner.length := by
  induction t generalizing k s with
  | nil => cases k <;> cases h
  | cons c r ih =>
    cases k with
    | succ k =>
      obtain ⟨inner, rfl, hle⟩ := ih h
      exact ⟨c :: inner, rfl, Nat.succ_le_succ hle⟩
    | zero =>
      obtain ⟨rfl, rfl, rfl⟩ | ⟨-, e, n, s', -, hs, rfl⟩ | ⟨-, s', hs, rfl⟩ := basic_zero_cons h
      · exact ⟨[], rfl, Nat.le_refl _⟩
      all_goals
        obtain ⟨inner, rfl, hle⟩ := ih hs
        refine ⟨c :: inner, rfl, ?_⟩
        simp only [List.length_cons]
        omega

/-- Without an escape the string is what stands between the quotes, and with one it is shorter. -/
theorem basic_cases (h : basic 0 t = some (s, rest)) :
    ∃ inner, t = inner ++ '"' :: rest ∧
      ((s = inner ∧ inner.all isVerbatim = true) ∨ (s.length < inner.length ∧ '\\' ∈ inner)) := by
  induction t generalizing s with
  | nil => cases h
  | cons c r ih =>
    obtain ⟨rfl, rfl, rfl⟩ | ⟨rfl, e, n, s', hn, hs, rfl⟩ | ⟨hc, s', hs, rfl⟩ := basic_zero_cons h
    · exact ⟨[], rfl, .inl ⟨rfl, rfl⟩⟩
    · obtain ⟨inner, rfl, hle⟩ := length_basic hs
      refine ⟨'\\' :: inner, rfl, .inr ⟨?_, List.mem_cons_self⟩⟩
      simp only [List.length_cons]
      omega
    · obtain ⟨inner, rfl, ⟨rfl, hall⟩ | ⟨hlt, hmem⟩⟩ := ih hs
      · exact ⟨c :: s', rfl, .inl ⟨rfl, by simp [hc, hall]⟩⟩
      · exact ⟨c :: inner, rfl, .inr ⟨Nat.succ_lt_succ hlt, List.mem_cons_of_mem _ hmem⟩⟩

theorem basic_of_all_isVerbatim (hv : v.all isVerbatim = true) (rest : Text) :
    basic 0 (v ++ '"' :: rest) = some (v, rest) := by
  induction v with
  | nil => rfl
  | cons c v ih =>
    rw [List.all_cons, Bool.and_eq_true, isVerbatim_iff] at hv
    obtain ⟨⟨hplain, hquote, hescape⟩, hv⟩ := hv
    rw [List.cons_append, basic, if_neg hquote, if_neg hescape, if_pos hplain, ih hv]
    rfl

/-! ### Several lines -/

theorem length_closing? {q : Char} (h : closing? q t = some (s, rest)) :
    s.length + 3 ≤ t.length := by
  unfold closing? at h
  split at h
  · split at h
    · split at h
      · split at h
        · cases h
          simp
        · split at h <;> cases h <;> simp
      · split at h <;> cases h <;> simp
      · cases h
        simp
    · cases h
  · cases h

theorem length_multiBasic (h : multiBasic k t = some (s, rest)) : s.length + k + 3 ≤ t.length := by
  induction t generalizing k s with
  | nil => cases k <;> cases h
  | cons c r ih =>
    rw [List.length_cons]
    cases k with
    | succ k =>
      have hle := ih h
      omega
    | zero =>
      rw [multiBasic] at h
      split at h
      · next hclosing =>
        cases h
        exact length_closing? hclosing
      · split at h
        · split at h
          · obtain ⟨⟨s', rest'⟩, hs, heq⟩ := Option.map_eq_some_iff.1 h
            cases heq
            have hle := ih hs
            rw [List.length_cons]
            omega
          · have hle := ih h
            omega
          · cases h
        · split at h
          · obtain ⟨⟨s', rest'⟩, hs, heq⟩ := Option.map_eq_some_iff.1 h
            cases heq
            have hle := ih hs
            rw [List.length_cons]
            omega
          · cases h

theorem length_dropNewline?_le (r : Text) : ((dropNewline? r).getD r).length ≤ r.length := by
  unfold dropNewline?
  split
  all_goals
    simp only [Option.getD_some, Option.getD_none, List.length_cons]
    omega

/-! ### A text between quotes -/

/-- What starts with a double quote is a string on one line, or two further quotes follow and it is
much shorter. -/
theorem quoted?_cases (h : quoted? ('"' :: t) = some (w, rest)) :
    basic 0 t = some (w, rest) ∨ (['"', '"'] <+: t ∧ w.length + 5 ≤ t.length) := by
  unfold quoted? at h
  split at h
  · next r heq =>
    cases heq
    have hle := length_multiBasic h
    have hdrop := length_dropNewline?_le r
    refine .inr ⟨⟨r, rfl⟩, ?_⟩
    simp only [List.length_cons]
    omega
  · next heq =>
    cases heq
    exact .inl h
  · next heq => cases heq
  · next heq => cases heq
  · cases h

/-- A text between quotes that reads as itself has nothing but characters that stand for
themselves. -/
theorem all_isVerbatim_of_quoted? (h : quoted? ('"' :: (v ++ ['"', '\n'])) = some (v, rest)) :
    v.all isVerbatim = true := by
  rcases quoted?_cases h with h | ⟨-, hlen⟩
  · obtain ⟨inner, hinner, ⟨rfl, hall⟩ | ⟨hlt, -⟩⟩ := basic_cases h
    · exact hall
    · -- the quote that closes the string is not behind the last one, which a newline follows
      have hlen := congrArg List.length hinner
      have hlast := congrArg List.getLast? hinner
      cases rest with
      | nil => simp at hlast
      | cons c rest =>
        simp only [List.length_append, List.length_cons, List.length_nil] at hlen
        omega
  · simp only [List.length_append, List.length_cons, List.length_nil] at hlen
    omega

/-- A text between quotes that holds no quote itself is read whole, and as itself unless it holds a
backslash. -/
theorem quoted?_of_notMem (hv : '"' ∉ v)
    (h : quoted? ('"' :: (v ++ ['"', '\n'])) = some (w, rest)) :
    rest = ['\n'] ∧ ((w = v ∧ v.all isVerbatim = true) ∨ '\\' ∈ v) := by
  rcases quoted?_cases h with h | ⟨hpre, -⟩
  · obtain ⟨inner, hinner, hcases⟩ := basic_cases h
    obtain ⟨rfl, -, rfl⟩ := (List.append_cons_inj_of_notMem hv (by decide)).1 hinner
    exact ⟨rfl, hcases.imp_right And.right⟩
  · cases v with
    | nil => simp at hpre
    | cons c v =>
      rw [List.cons_append, List.cons_prefix_cons] at hpre
      exact absurd (hpre.1 ▸ List.mem_cons_self) hv

theorem quoted?_of_all_isVerbatim (hv : v.all isVerbatim = true) :
    quoted? ('"' :: (v ++ ['"', '\n'])) = some (v, ['\n']) := by
  cases v with
  | nil => rfl
  | cons c v =>
    have hc : c ≠ '"' := (isVerbatim_iff.1 (List.all_eq_true.1 hv c List.mem_cons_self)).2.1
    have hbasic := basic_of_all_isVerbatim hv ['\n']
    rw [← hbasic, List.cons_append, quoted?]
    exact fun r heq => hc (List.cons.inj heq).1

/-- Without quotes and backslashes only characters that TOML does not take stand in the way. -/
theorem quoted?_of_notMem_of_notMem (hquote : '"' ∉ v) (hescape : '\\' ∉ v) :
    quoted? ('"' :: (v ++ ['"', '\n'])) =
      if v.all isPlain = true then some (v, ['\n']) else none := by
  have hverbatim : v.all isVerbatim = v.all isPlain := by
    rw [Bool.eq_iff_iff, List.all_eq_true, List.all_eq_true]
    refine forall₂_congr fun c hc => ?_
    have hcquote : c ≠ '"' := fun heq => hquote (heq ▸ hc)
    have hcescape : c ≠ '\\' := fun heq => hescape (heq ▸ hc)
    simp [isVerbatim_iff, hcquote, hcescape]
  split
  · next hplain => exact quoted?_of_all_isVerbatim (hverbatim.trans hplain)
  · next hplain =>
    rw [Option.eq_none_iff_forall_ne_some]
    rintro ⟨w, r⟩ h
    obtain ⟨-, ⟨rfl, hall⟩ | hmem⟩ := quoted?_of_notMem hquote h
    · exact hplain (hverbatim.symm.trans hall)
    · exact hescape hmem

/-! ### Values that start with a quote -/

theorem digits?_cons_of_not {digit : Char → Bool} {c : Char} (h : digit c = false) (r : Text) :
    digits? digit (c :: r) = none := by
  unfold digits?
  split <;> simp_all

theorem decimal?_quote (r : Text) : decimal? ('"' :: r) = none := by
  rw [decimal?, digits?_cons_of_not (by decide)]

theorem fixed?_quote (n : Nat) (r : Text) : fixed? (n + 1) ('"' :: r) = none := by
  have hquote : Text.isDigit '"' = false := by decide
  simp [fixed?, hquote]

theorem exponent?_quote {r head : Text} {e : Option Int}
    (h : exponent? ('"' :: r) = some (head, e)) : ∃ r', head = '"' :: r' := by
  unfold exponent? at h
  simp only at h
  split at h
  · cases h
    exact ⟨_, rfl⟩
  · obtain ⟨ds, -, heq⟩ := Option.map_eq_some_iff.1 h
    cases heq
    exact ⟨_, rfl⟩

theorem fraction?_quote {r whole : Text} {f : Option Text}
    (h : fraction? ('"' :: r) = some (whole, f)) : ∃ r', whole = '"' :: r' := by
  unfold fraction? at h
  simp only at h
  split at h
  · cases h
    exact ⟨_, rfl⟩
  · obtain ⟨ds, -, heq⟩ := Option.map_eq_some_iff.1 h
    cases heq
    exact ⟨_, rfl⟩

theorem float?_quote (r : Text) : float? ('"' :: r) = none := by
  have hsign : sign ('"' :: r) = (false, '"' :: r) := rfl
  rw [Option.eq_none_iff_forall_ne_some]
  intro b h
  simp only [float?, hsign, Option.bind_eq_bind, List.cons.injEq, Char.reduceEq, false_and,
    decide_false, Bool.or_self, Bool.false_eq_true, if_false, Option.bind_eq_some_iff] at h
  obtain ⟨⟨head, e⟩, hhead, ⟨whole, f⟩, hwhole, ds, hds, -⟩ := h
  obtain ⟨r', rfl⟩ := exponent?_quote hhead
  obtain ⟨r'', rfl⟩ := fraction?_quote hwhole
  rw [decimal?_quote] at hds
  cases hds

theorem scalar?_quote (r : Text) : scalar? ('"' :: r) = none := by
  have hinteger : integer? ('"' :: r) = none := by
    simp [integer?, sign, decimal?_quote]
  have hmoment : isMoment ('"' :: r) = false := by
    simp [isMoment, date?, time?, clock?, fixed?_quote]
  rw [scalar?, if_neg (by simp), if_neg (by simp), hinteger, float?_quote, hmoment]
  rfl

theorem flat?_quote (r : Text) :
    flat? ('"' :: r) = (quoted? ('"' :: r)).map fun (s, rest) => (.string s, rest) := by
  have hscalar : ∀ n, scalar? (('"' :: r).take n) = none := by
    intro n
    cases n with
    | zero => rfl
    | succ n => exact scalar?_quote _
  rw [flat?]
  cases quoted? ('"' :: r) with
  | none => simp [hscalar]
  | some p => rfl

end Uncomment.Toml
