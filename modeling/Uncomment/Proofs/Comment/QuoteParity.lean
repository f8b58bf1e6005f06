import Mathlib.Algebra.Group.Nat.Even
import Uncomment.Proofs.Comment.Settled

/-! # Closed lines and odd numbers of quotes

Two readers look for what a line of code leaves open. The one that finds comments follows single
delimiters and escapes (`Place`); the other counts triple quotes and asks whether their number is
odd (`unclosed?`). They can disagree (`not_forall_unclosed?_eq_none`). Where the first stands in
code at the end of a line, the second finds nothing open exactly when, for each delimiter, the
copies that the first takes as the content of a literal (`inertCount`) and the runs with one
delimiter more than triples of it (`looseRuns`) are together an even number
(`unclosed?_eq_none_iff_even`).

* A delimiter that is not content opens a literal or closes one, so there is an even number of them
  where the reader is back in the code (`Place.holds_through`);
* of a run of `n` delimiters `n / 3` triples are counted, and `n + n / 3` is odd just when the run
  is loose (`count_triple_add`). -/

namespace Uncomment

namespace Text

variable {d : Char} {m x z : Text}

/-! ### Triples of a character -/

theorem lengthAt?_append_of_short (hz : ∀ c ∈ z.head?, c ∉ m) (hx : x.length < m.length) :
    lengthAt? m (x ++ z) = none := by
  rw [lengthAt?, if_neg]
  intro hpre
  have hle := (isPrefix_of_isPrefix_append hz (List.isPrefixOf_iff_prefix.1 hpre)).length_le
  omega

theorem count_append_of_short (hz : ∀ c ∈ z.head?, c ∉ m) (hx : x.length < m.length) :
    count m (x ++ z) = count m z := by
  induction x with
  | nil => rfl
  | cons c x ih =>
    have hnone : lengthAt? m (c :: (x ++ z)) = none := lengthAt?_append_of_short hz hx
    rw [count, List.cons_append, countStretches_cons_of_none hnone]
    exact ih (Nat.lt_of_succ_lt hx)

theorem count_append_self (hm : m ≠ []) (t : Text) : count m (m ++ t) = count m t + 1 := by
  have hbounded : Bounded (lengthAt? m) := by
    intro s n h
    rw [lengthAt?] at h
    split at h
    · next hpre =>
      cases h
      exact ⟨List.length_pos_iff.2 hm, (List.isPrefixOf_iff_prefix.1 hpre).length_le⟩
    · cases h
  have hsome : lengthAt? m (m ++ t) = some m.length :=
    if_pos (List.isPrefixOf_iff_prefix.2 (List.prefix_append m t))
  rw [count, hbounded.countStretches_of_some hsome, List.drop_left, ← count]

theorem count_triple_append (hz : ∀ c ∈ z.head?, c ≠ d) (k : Nat) :
    count [d, d, d] (List.replicate k d ++ z) = k / 3 + count [d, d, d] z := by
  induction k using Nat.strongRecOn with
  | ind k ih =>
    by_cases hk : k < 3
    · rw [count_append_of_short (by simpa using hz) (by simpa using hk), Nat.div_eq_of_lt hk,
        Nat.zero_add]
    · obtain ⟨j, rfl⟩ : ∃ j, k = 3 + j := ⟨k - 3, by omega⟩
      have h := count_append_self (List.cons_ne_nil d [d, d]) (List.replicate j d ++ z)
      rw [← List.replicate_append_replicate, List.append_assoc, List.replicate, List.replicate,
        List.replicate, List.replicate, h, ih j (by omega)]
      omega

/-- The runs of `d`, some of them empty: what stands between the other characters of a text. -/
def runs (d : Char) (t : Text) : List Text := t.splitOnP (· != d)

/-- The number of runs of `d` with one character more than triples. -/
def looseRuns (d : Char) (t : Text) : Nat := (runs d t).countP (·.length % 3 == 1)

theorem looseRuns_replicate (k : Nat) :
    looseRuns d (List.replicate k d) = if k % 3 = 1 then 1 else 0 := by
  have hruns : runs d (List.replicate k d) = [List.replicate k d] :=
    List.splitOnP_eq_singleton fun c hc => by simp [(List.mem_replicate.1 hc).2]
  simp [looseRuns, hruns]

theorem looseRuns_replicate_append {c : Char} (hc : c ≠ d) (k : Nat) (r : Text) :
    looseRuns d (List.replicate k d ++ c :: r) = (if k % 3 = 1 then 1 else 0) + looseRuns d r := by
  have hruns : runs d (List.replicate k d ++ c :: r) = List.replicate k d :: runs d r :=
    List.splitOnP_append_cons_of_forall_mem (fun e he => by simp [(List.mem_replicate.1 he).2]) c
      (by simpa using hc) r
  simp [looseRuns, hruns, List.countP_cons, Nat.add_comm]

/-- Texts are read run by run: copies of `d` to the end, or copies of `d`, another character and a
rest. -/
theorem run_induction {motive : Text → Prop} (d : Char)
    (run : ∀ k, motive (List.replicate k d))
    (step : ∀ k c r, c ≠ d → motive r → motive (List.replicate k d ++ c :: r)) (t : Text) :
    motive t := by
  suffices h : ∀ k, motive (List.replicate k d ++ t) from h 0
  induction t with
  | nil =>
    intro k
    rw [List.append_nil]
    exact run k
  | cons c r ih =>
    intro k
    by_cases hc : c = d
    · subst hc
      have h := ih (k + 1)
      rwa [List.replicate_succ', List.append_assoc] at h
    · exact step k c r hc (ih 0)

theorem count_triple_add (d : Char) (t : Text) :
    (count [d, d, d] t + List.count d t + looseRuns d t) % 2 = 0 := by
  induction t using run_induction d with
  | run k =>
    have hcount := count_triple_append (z := []) (d := d) nofun k
    rw [List.append_nil] at hcount
    have hnil : count [d, d, d] [] = 0 := rfl
    rw [hcount, hnil, List.count_replicate_self, looseRuns_replicate]
    split <;> omega
  | step k c r hc ih =>
    have hcount := count_triple_append (z := c :: r) (d := d) (by simpa using hc) k
    have hnone : lengthAt? [d, d, d] (c :: r) = none :=
      lengthAt?_append_of_short (x := []) (by simpa using hc) (Nat.zero_lt_succ 2)
    rw [hcount, count, countStretches_cons_of_none hnone, ← count, List.count_append,
      List.count_replicate_self, List.count_cons_of_ne hc, looseRuns_replicate_append hc]
    split <;> omega

end Text

namespace Comment

open Text

variable {rules : Rules} {d : Char}

/-! ### Delimiters that the reader of a line passes -/

/-- The reader is in a literal that `d` closes. -/
def Place.holds (d : Char) : Place → Bool
  | .code => false
  | .literal e | .escape e => e = d

/-- Here the delimiter `d` would be content, neither the start of a literal nor its end. -/
def Place.inert (d : Char) : Place → Bool
  | .code => false
  | .literal e => e ≠ d
  | .escape _ => true

/-- The number of copies of `d` that the reader takes as content. -/
def inertCount (rules : Rules) (d : Char) : Place → Text → Nat
  | _, [] => 0
  | p, c :: r => (c == d && p.inert d).toNat + inertCount rules d (p.next rules c) r

theorem Place.holds_next_of_ne {c : Char} (hc : c ≠ d) (p : Place) :
    (p.next rules c).holds d = p.holds d := by
  cases p with
  | code =>
    rw [next]
    split
    · exact decide_eq_false hc
    · rfl
  | literal e =>
    rw [next]
    split
    · rfl
    · split
      · next he => exact (decide_eq_false (he ▸ hc)).symm
      · rfl
  | escape e => rfl

theorem Place.holds_next_self (hd : d ∈ rules.delimiters) (hd' : d ≠ '\\') (p : Place) :
    ((p.next rules d).holds d).toNat % 2 = ((p.holds d).toNat + 1 + (p.inert d).toNat) % 2 := by
  cases p with
  | code => simp [next, holds, inert, hd]
  | literal e =>
    by_cases he : e = d
    · simp [next, holds, inert, he, hd']
    · simp [next, holds, inert, he, hd', Ne.symm he]
  | escape e => cases h : decide (e = d) <;> simp [next, holds, inert, h]

theorem Place.holds_through (hd : d ∈ rules.delimiters) (hd' : d ≠ '\\') (p : Place) (t : Text) :
    ((p.through rules t).holds d).toNat % 2 =
      ((p.holds d).toNat + List.count d t + inertCount rules d p t) % 2 := by
  induction t generalizing p with
  | nil => simp [inertCount]
  | cons c r ih =>
    rw [through_cons, ih, inertCount]
    by_cases hc : c = d
    · subst hc
      have hstep := holds_next_self hd hd' p
      rw [List.count_cons_self, beq_self_eq_true, Bool.true_and]
      omega
    · rw [holds_next_of_ne hc, List.count_cons_of_ne hc, beq_false_of_ne hc, Bool.false_and,
        Bool.toNat_false, Nat.zero_add]

/-! ### The two readers -/

theorem count_triple_mod_two (hd : d ∈ rules.delimiters) (hd' : d ≠ '\\') {t : Text}
    (ht : Place.code.through rules t = .code) :
    Text.count [d, d, d] t % 2 = (inertCount rules d .code t + looseRuns d t) % 2 := by
  have hpairs := Place.holds_through hd hd' .code t
  have htriples := count_triple_add d t
  rw [ht] at hpairs
  simp only [Place.holds, Bool.toNat_false] at hpairs
  omega

theorem unclosed?_of_blank (hr : rules.WellSpelled) {t : Text} (ht : isBlankText t = true) :
    unclosed? rules t = none := by
  have h := unclosed?_blank_append hr ht []
  rw [List.append_nil] at h
  rw [h, unclosed?, List.find?_eq_none]
  intro q _
  simp [Text.count, countStretches]

theorem Mode.ofCode_eq_code_iff {code : Text} :
    Mode.ofCode rules code = .code ↔ unclosed? rules code = none := by
  rw [Mode.ofCode]
  cases unclosed? rules code <;> simp

theorem Mode.after_eq_code_iff (hr : rules.WellSpelled) {l : Text}
    (hl : docQuote? rules l.trim = none) :
    Mode.code.after rules l = .code ↔ unclosed? rules (splitLine rules l).code = none := by
  cases hb : isBlankText (splitLine rules l).code with
  | true =>
    have hnone : (Fate.code (splitLine rules l)).kept? = none := if_pos hb
    rw [Mode.after, hl]
    dsimp only
    rw [hnone]
    exact iff_of_true rfl (unclosed?_of_blank hr hb)
  | false =>
    rw [Mode.after_code_of_kept? (kept?_code_eq_some_iff.2 ⟨hl, rfl, hb⟩), Mode.ofCode_eq_code_iff]

theorem unclosed?_hashes_eq_none_iff {t : Text} :
    unclosed? .hashes t = none ↔
      ∀ d ∈ Rules.hashes.delimiters, Text.count [d, d, d] t % 2 = 0 := by
  simp only [unclosed?, List.find?_eq_none, Rules.hashes, List.forall_mem_cons, beq_iff_eq,
    Nat.mod_two_not_eq_one, List.not_mem_nil, false_imp_iff, implies_true, and_true]
  exact and_comm

/-- For each delimiter, the copies that are content and the loose runs are together an even
number. -/
def EvenQuotes (rules : Rules) (code : Text) : Prop :=
  ∀ d ∈ rules.delimiters, Even (inertCount rules d .code code + looseRuns d code)

instance (rules : Rules) (code : Text) : Decidable (EvenQuotes rules code) :=
  List.decidableBAll (fun d => Even (inertCount rules d .code code + looseRuns d code)) _

/-- **The two readers compared** on a line that starts no docstring, if the reader of comments
stands in code where it stops: the other one finds nothing open, and so the next line is read as
code, exactly when the quotes are even. -/
theorem unclosed?_eq_none_iff_even {l : Text} (hl : docQuote? .hashes l.trim = none)
    (hplace : Place.code.through .hashes (splitLine .hashes l).code = .code) :
    (unclosed? .hashes (splitLine .hashes l).code = none ↔
      EvenQuotes .hashes (splitLine .hashes l).code) ∧
    (Mode.code.after .hashes l = .code ↔ EvenQuotes .hashes (splitLine .hashes l).code) := by
  have hr := Language.python.rules_wellSpelled
  have hiff : unclosed? .hashes (splitLine .hashes l).code = none ↔
      EvenQuotes .hashes (splitLine .hashes l).code := by
    rw [unclosed?_hashes_eq_none_iff]
    refine forall₂_congr fun d hd => ?_
    rw [count_triple_mod_two hd (hr.delimiters d hd).2.1 hplace, Nat.even_iff]
  exact ⟨hiff, (Mode.after_eq_code_iff hr hl).trans hiff⟩

/-- The apostrophe is content here and also a loose run; the triples of the other delimiter make
pairs. -/
theorem unclosed?_eq_none_iff_even_apostrophe :
    let l : Text := "s = \"\"\"it's\"\"\" # '".toList
    EvenQuotes .hashes (splitLine .hashes l).code ∧
      unclosed? .hashes (splitLine .hashes l).code = none ∧ Mode.code.after .hashes l = .code := by
  intro l
  have heven : EvenQuotes .hashes (splitLine .hashes l).code := by decide
  have h := unclosed?_eq_none_iff_even (l := l) (by decide) (by decide)
  exact ⟨heven, h.1.2 heven, h.2.2 heven⟩

/-- The reader of comments takes two delimiters as an empty literal, and the third one as the start
of a literal that ends on the line. -/
theorem not_forall_unclosed?_eq_none :
    ¬ ∀ l : Text, docQuote? .hashes l.trim = none →
      Place.code.through .hashes (splitLine .hashes l).code = .code →
        unclosed? .hashes (splitLine .hashes l).code = none := by
  intro h
  have hnone := h "x = \"\"\"a\"".toList (by decide) (by decide)
  exact absurd hnone (by decide)

end Comment

end Uncomment
