import Uncomment.Comment
import Uncomment.Proofs.Language.Spelling
import Uncomment.Proofs.Text.Lines

/-! # Blocks

Here `o` and `c` are the marks that open and close a block.

* A block is found where `o` stands and `c` behind it (`blockLength?_isSome_iff`), so there is
  nothing to remove exactly when the text has no block (`countBlocks_eq_zero_iff`);
* every block that is removed takes a character with it that is not blank
  (`length_nonblank_removeBlocks_le`);
* blocks are removed before and behind a newline apart from each other, if what is open before the
  newline is not closed behind it (`cut_append_newline`, `removeBlocks_append_newline`). The part of
  a text in which a block may still be open is `behindBlocks o c t`. -/

namespace Uncomment.Comment

open Text

variable {o c t : Text}

/-- Somewhere in the text `o` stands, and behind it `c`. -/
def HasBlock (o c t : Text) : Prop := ∃ x y z, t = x ++ o ++ y ++ c ++ z

/-- The part of a text behind its last block. -/
def behindBlocks (o c t : Text) : Text := lastGap (cut (blockLength? o c) t)

/-! ### Finding a block -/

theorem exists_of_endOf?_eq_some {p t : Text} {n : Nat} (h : endOf? p t = some n) :
    ∃ x y, t = x ++ p ++ y ∧ n = x.length + p.length := by
  induction t generalizing n with
  | nil =>
    cases p with
    | nil =>
      cases h
      exact ⟨[], [], rfl, rfl⟩
    | cons d p => cases h
  | cons d r ih =>
    rw [endOf?] at h
    split at h
    · next hp =>
      cases h
      obtain ⟨y, hy⟩ := List.isPrefixOf_iff_prefix.1 hp
      exact ⟨[], y, hy.symm, by simp⟩
    · obtain ⟨k, hk, rfl⟩ := Option.map_eq_some_iff.1 h
      obtain ⟨x, y, rfl, rfl⟩ := ih hk
      exact ⟨d :: x, y, rfl, by rw [List.length_cons]; omega⟩

/-- The first copy of a text stays the first when something follows. -/
theorem endOf?_append {p t : Text} {n : Nat} (h : endOf? p t = some n) (y : Text) :
    endOf? p (t ++ y) = some n := by
  induction t generalizing n with
  | nil =>
    cases p with
    | nil => cases y <;> exact h
    | cons d p => cases h
  | cons d r ih =>
    rw [endOf?] at h
    rw [List.cons_append, endOf?]
    split at h
    · next hp =>
      have hp' : p <+: d :: (r ++ y) :=
        (List.isPrefixOf_iff_prefix.1 hp).trans (List.prefix_append (d :: r) y)
      rw [if_pos (List.isPrefixOf_iff_prefix.2 hp'), h]
    · next hp =>
      obtain ⟨k, hk, rfl⟩ := Option.map_eq_some_iff.1 h
      rw [if_neg, ih hk]
      · rfl
      · -- the copy that ends within `r` is as long, so that one at the start would end in it too
        intro hpre
        obtain ⟨u, v, hr, -⟩ := exists_of_endOf?_eq_some hk
        have hle : p.length ≤ (d :: r).length := by
          rw [hr]
          simp only [List.length_cons, List.length_append]
          omega
        exact hp (List.isPrefixOf_iff_prefix.2 (List.prefix_of_prefix_length_le
          (List.isPrefixOf_iff_prefix.1 hpre) (List.prefix_append (d :: r) y) hle))

theorem exists_of_blockLength?_eq_some {n : Nat} (h : blockLength? o c t = some n) :
    ∃ body r, t = o ++ body ++ c ++ r ∧ n = o.length + body.length + c.length := by
  rw [blockLength?] at h
  split at h
  · next ho =>
    obtain ⟨s, rfl⟩ := List.isPrefixOf_iff_prefix.1 ho
    rw [List.drop_left] at h
    obtain ⟨k, hk, rfl⟩ := Option.map_eq_some_iff.1 h
    obtain ⟨body, r, rfl, rfl⟩ := exists_of_endOf?_eq_some hk
    exact ⟨body, r, by simp, by omega⟩
  · cases h

theorem blockLength?_isSome_iff :
    (blockLength? o c t).isSome = true ↔ ∃ s, t = o ++ s ∧ c <:+: s := by
  rw [blockLength?]
  split
  · next ho =>
    obtain ⟨s, rfl⟩ := List.isPrefixOf_iff_prefix.1 ho
    rw [List.drop_left, Option.isSome_map, ← occurs_iff_endOf?, occurs_iff_isInfix]
    refine ⟨fun h => ⟨s, rfl, h⟩, ?_⟩
    rintro ⟨s', hs, h⟩
    rwa [List.append_cancel_left hs]
  · next ho =>
    refine ⟨fun h => absurd h (by simp), ?_⟩
    rintro ⟨s, rfl, -⟩
    exact absurd (List.isPrefixOf_iff_prefix.2 (List.prefix_append o s)) ho

theorem blockLength?_append {n : Nat} (h : blockLength? o c t = some n) (y : Text) :
    blockLength? o c (t ++ y) = some n := by
  rw [blockLength?] at h
  split at h
  · next ho =>
    obtain ⟨s, rfl⟩ := List.isPrefixOf_iff_prefix.1 ho
    rw [List.drop_left] at h
    obtain ⟨k, hk, rfl⟩ := Option.map_eq_some_iff.1 h
    rw [blockLength?, if_pos (List.isPrefixOf_iff_prefix.2 (by simp)), List.append_assoc,
      List.drop_left, endOf?_append hk]
    rfl
  · cases h

theorem bounded_blockLength? (ho : Solid o) : Bounded (blockLength? o c) := by
  intro s n h
  obtain ⟨body, r, rfl, rfl⟩ := exists_of_blockLength?_eq_some h
  have := List.length_pos_iff.2 ho.ne_nil
  simp only [List.length_append]
  omega

theorem blockLength?_blank_cons (ho : Solid o) {d : Char} (hd : isBlank d = true) (r : Text) :
    blockLength? o c (d :: r) = none := by
  rw [blockLength?, if_neg]
  intro h
  exact ho.not_isPrefix_blank_cons hd (List.isPrefixOf_iff_prefix.1 h)

/-! ### One character or one block at a time -/

theorem removeBlocks_cons {d : Char} {r : Text} (h : blockLength? o c (d :: r) = none) :
    removeBlocks o c (d :: r) = d :: removeBlocks o c r := replace_cons_of_none h _

theorem countBlocks_cons {d : Char} {r : Text} (h : blockLength? o c (d :: r) = none) :
    countBlocks o c (d :: r) = countBlocks o c r := countStretches_cons_of_none h

theorem removeBlocks_of_some (ho : Solid o) {n : Nat} (h : blockLength? o c t = some n) :
    removeBlocks o c t = removeBlocks o c (t.drop n) :=
  (bounded_blockLength? ho).replace_of_some h _

theorem countBlocks_of_some (ho : Solid o) {n : Nat} (h : blockLength? o c t = some n) :
    countBlocks o c t = countBlocks o c (t.drop n) + 1 :=
  (bounded_blockLength? ho).countStretches_of_some h

/-! ### Texts without a block -/

theorem HasBlock.of_isSuffix {s : Text} (h : HasBlock o c s) (hs : s <:+ t) : HasBlock o c t := by
  obtain ⟨u, rfl⟩ := hs
  obtain ⟨x, y, z, rfl⟩ := h
  exact ⟨u ++ x, y, z, by simp⟩

theorem HasBlock.isInfix (h : HasBlock o c t) : o <:+: t := by
  obtain ⟨x, y, z, rfl⟩ := h
  exact ⟨x, y ++ c ++ z, by simp⟩

theorem countBlocks_eq_zero_iff (ho : Solid o) : countBlocks o c t = 0 ↔ ¬ HasBlock o c t := by
  rw [countBlocks, (bounded_blockLength? ho).countStretches_eq_zero_iff]
  refine ⟨?_, fun h s hs => ?_⟩
  · rintro h ⟨x, y, z, rfl⟩
    have hsome : (blockLength? o c (o ++ (y ++ c ++ z))).isSome = true :=
      blockLength?_isSome_iff.2 ⟨_, rfl, List.infix_append ..⟩
    rw [h (o ++ (y ++ c ++ z)) ⟨x, by simp⟩] at hsome
    contradiction
  · cases hs' : blockLength? o c s with
    | none => rfl
    | some n =>
      obtain ⟨body, r, rfl, -⟩ := exists_of_blockLength?_eq_some hs'
      exact absurd (HasBlock.of_isSuffix ⟨[], body, r, by simp⟩ hs) h

theorem removeBlocks_eq_self (ho : Solid o) (h : countBlocks o c t = 0) : removeBlocks o c t = t :=
  (bounded_blockLength? ho).replace_eq_self h _

theorem behindBlocks_eq_self (ho : Solid o) (h : ¬ HasBlock o c t) : behindBlocks o c t = t := by
  have hnone := (bounded_blockLength? ho).countStretches_eq_zero_iff.1
    ((countBlocks_eq_zero_iff ho).2 h)
  rw [behindBlocks, Bounded.cut_eq_map_char hnone, lastGap_map_char]

theorem not_isInfix_behindBlocks (ho : Solid o) (h : ¬ o <:+: t) : ¬ o <:+: behindBlocks o c t := by
  rwa [behindBlocks_eq_self ho fun hb => h hb.isInfix]

theorem removeBlocks_sublist (ho : Solid o) (t : Text) : List.Sublist (removeBlocks o c t) t := by
  have hf : Bounded (blockLength? o c) := bounded_blockLength? ho
  induction t using hf.cut_induction with
  | nil => exact List.Sublist.refl _
  | char d r h ih =>
    rw [removeBlocks_cons h]
    exact ih.cons_cons d
  | stretch s n h ih =>
    rw [removeBlocks_of_some ho h]
    exact ih.trans (List.drop_sublist n s)

/-- Every block that goes takes a character with it that is not blank. -/
theorem length_nonblank_removeBlocks_le (ho : Solid o) (t : Text) :
    (nonblank (removeBlocks o c t)).length + countBlocks o c t ≤ (nonblank t).length := by
  have hf : Bounded (blockLength? o c) := bounded_blockLength? ho
  induction t using hf.cut_induction with
  | nil => simp [removeBlocks, replace, countBlocks, countStretches]
  | char d r h ih =>
    rw [removeBlocks_cons h, countBlocks_cons h, nonblank_cons, nonblank_cons]
    split
    · exact ih
    · simp only [List.length_cons]
      omega
  | stretch s n h ih =>
    have hpos : 0 < (nonblank (s.take n)).length := by
      obtain ⟨body, r, rfl, rfl⟩ := exists_of_blockLength?_eq_some h
      have := List.length_pos_iff.2 ho.ne_nil
      simp only [List.append_assoc, List.take_append, Nat.add_assoc, Nat.le_add_right,
        List.take_of_length_le, nonblank_append, ho.nonblank_eq, List.length_append]
      omega
    have hs : nonblank s = nonblank (s.take n) ++ nonblank (s.drop n) := by
      rw [← nonblank_append, List.take_append_drop]
    rw [removeBlocks_of_some ho h, countBlocks_of_some ho h, hs, List.length_append]
    omega

/-! ### Blocks before and behind a newline -/

theorem behindBlocks_suffix_cons {d : Char} {r : Text} (h : blockLength? o c (d :: r) = none) :
    behindBlocks o c r <:+ behindBlocks o c (d :: r) := by
  rw [behindBlocks, behindBlocks, cut_cons_of_none h]
  exact lastGap_suffix_cons ..

theorem behindBlocks_of_some (ho : Solid o) {n : Nat} (h : blockLength? o c t = some n) :
    behindBlocks o c t = behindBlocks o c (t.drop n) := by
  rw [behindBlocks, (bounded_blockLength? ho).cut_of_some h]
  rfl

/-- Behind an opening mark there is a block only if a closing mark stands there. -/
theorem not_hasBlock_append {v : Text} (h : ¬ c <:+: v) : ¬ HasBlock o c (o ++ v) := by
  rintro ⟨x, y, z, hxyz⟩
  refine h ?_
  have hv : v = (x ++ o).drop o.length ++ (y ++ c ++ z) := by
    have hdrop : v = (o ++ v).drop o.length := by simp
    rw [hdrop, hxyz, ← List.drop_append_of_le_length (by simp)]
    simp
  rw [hv]
  exact (List.infix_append ..).trans (List.suffix_append ..).isInfix

/-- A newline and what follows it change no answer about a text in which nothing is open that they
could close. -/
theorem blockLength?_append_newline (ho : Solid o) (hc : Solid c) {s b : Text}
    (h : ¬ o <:+: behindBlocks o c s ∨ ¬ c <:+: b) :
    blockLength? o c (s ++ '\n' :: b) = blockLength? o c s := by
  cases hs : blockLength? o c s with
  | some n => exact blockLength?_append hs _
  | none =>
    refine Option.not_isSome_iff_eq_none.1 fun hsome => ?_
    obtain ⟨u, hu, hcu⟩ := blockLength?_isSome_iff.1 hsome
    obtain ⟨v, rfl⟩ : o <+: s :=
      isPrefix_of_isPrefix_append (by simpa using ho.newline_notMem) ⟨u, hu.symm⟩
    rw [List.append_assoc] at hu
    cases List.append_cancel_left hu
    have hcv : ¬ c <:+: v := fun hcv => by
      have hsome : (blockLength? o c (o ++ v)).isSome = true :=
        blockLength?_isSome_iff.2 ⟨v, rfl, hcv⟩
      rw [hs] at hsome
      contradiction
    rcases isInfix_of_isInfix_append (by simpa using hc.newline_notMem) hcu with h' | h'
    · exact hcv h'
    · -- the block would be closed behind the newline, so it is open before it
      rw [behindBlocks_eq_self ho (not_hasBlock_append hcv)] at h
      rcases h with h | h
      · exact h (List.prefix_append ..).isInfix
      · exact h ((hc.isInfix_blank_cons_iff rfl).1 h')

/-- A newline separates the pieces before it from those behind it. -/
theorem cut_append_newline (ho : Solid o) (hc : Solid c) {x b : Text}
    (h : ¬ o <:+: behindBlocks o c x ∨ ¬ c <:+: b) :
    cut (blockLength? o c) (x ++ '\n' :: b) =
      cut (blockLength? o c) x ++ .char '\n' :: cut (blockLength? o c) b := by
  rw [← cut_cons_of_none (blockLength?_blank_cons ho rfl b)]
  -- what is open behind a place of `x` is open at its end too
  refine (bounded_blockLength? ho).cut_append
    (P := fun s => ¬ o <:+: behindBlocks o c s ∨ ¬ c <:+: b) ?_ ?_ ?_ h
  · exact fun s _ hs => blockLength?_append_newline ho hc hs
  · intro d r hd hr
    exact hr.imp_left fun hr h => hr (h.trans (behindBlocks_suffix_cons hd).isInfix)
  · intro s n hn hs
    rwa [behindBlocks_of_some ho hn] at hs

theorem removeBlocks_append_newline (ho : Solid o) (hc : Solid c) {x b : Text}
    (h : ¬ o <:+: behindBlocks o c x ∨ ¬ c <:+: b) :
    removeBlocks o c (x ++ '\n' :: b) = removeBlocks o c x ++ '\n' :: removeBlocks o c b := by
  rw [removeBlocks, replace, cut_append_newline ho hc h, List.flatMap_append]
  rfl

theorem countBlocks_append_newline (ho : Solid o) (hc : Solid c) {x b : Text}
    (h : ¬ o <:+: behindBlocks o c x ∨ ¬ c <:+: b) :
    countBlocks o c (x ++ '\n' :: b) = countBlocks o c x + countBlocks o c b := by
  rw [countBlocks, countStretches, cut_append_newline ho hc h, List.countP_append]
  rfl

theorem behindBlocks_concat_newline (ho : Solid o) (hc : Solid c) (x : Text) :
    behindBlocks o c (x ++ ['\n']) = behindBlocks o c x ++ ['\n'] := by
  have h : ¬ c <:+: [] := fun h => hc.ne_nil (List.infix_nil.1 h)
  rw [behindBlocks, cut_append_newline ho hc (.inr h)]
  exact lastGap_append_char ..

/-! ### The blocks of a language -/

variable {rules : Rules}

theorem withoutBlocks_of_block? {o c : Text} (h : rules.block? = some (o, c)) (t : Text) :
    withoutBlocks rules t = removeBlocks o c t := by
  rw [withoutBlocks, h]

theorem withoutBlocks_of_none (h : rules.block? = none) (t : Text) : withoutBlocks rules t = t := by
  rw [withoutBlocks, h]

theorem withoutBlocks_eq_self (hr : rules.WellSpelled) (ht : blockCount rules t = 0) :
    withoutBlocks rules t = t := by
  cases h : rules.block? with
  | none => exact withoutBlocks_of_none h t
  | some b =>
    rw [blockCount, h] at ht
    rw [withoutBlocks_of_block? h]
    exact removeBlocks_eq_self (hr.block? b h).1 ht

theorem blockCount_eq_zero_iff (hr : rules.WellSpelled) :
    blockCount rules t = 0 ↔ ∀ o c, rules.block? = some (o, c) → ¬ HasBlock o c t := by
  cases h : rules.block? with
  | none =>
    rw [blockCount, h]
    exact iff_of_true rfl nofun
  | some b =>
    rw [blockCount, h]
    refine (countBlocks_eq_zero_iff (hr.block? b h).1).trans ⟨fun hno o c hb => ?_, fun hno => ?_⟩
    · cases hb
      exact hno
    · exact hno _ _ rfl

theorem withoutBlocks_of_not_isInfix (hr : rules.WellSpelled)
    (h : ∀ o c, rules.block? = some (o, c) → ¬ o <:+: t) : withoutBlocks rules t = t :=
  withoutBlocks_eq_self hr ((blockCount_eq_zero_iff hr).2 fun o c hb hblock =>
    h o c hb hblock.isInfix)

theorem length_nonblank_withoutBlocks_le (hr : rules.WellSpelled) (t : Text) :
    (nonblank (withoutBlocks rules t)).length + blockCount rules t ≤ (nonblank t).length := by
  cases h : rules.block? with
  | none =>
    rw [withoutBlocks_of_none h, blockCount, h]
    exact Nat.le_refl _
  | some b =>
    rw [withoutBlocks_of_block? h, blockCount, h]
    exact length_nonblank_removeBlocks_le (hr.block? b h).1 t

theorem withoutBlocks_sublist (hr : rules.WellSpelled) (t : Text) :
    List.Sublist (withoutBlocks rules t) t := by
  cases h : rules.block? with
  | none => simp [withoutBlocks_of_none h]
  | some b =>
    rw [withoutBlocks_of_block? h]
    exact removeBlocks_sublist (hr.block? b h).1 t

theorem withoutBlocks_append_newline (hr : rules.WellSpelled) {x y : Text}
    (h : ∀ o c, rules.block? = some (o, c) → ¬ o <:+: behindBlocks o c x ∨ ¬ c <:+: y) :
    withoutBlocks rules (x ++ '\n' :: y) =
      withoutBlocks rules x ++ '\n' :: withoutBlocks rules y := by
  cases hb : rules.block? with
  | none => simp only [withoutBlocks_of_none hb]
  | some b =>
    obtain ⟨ho, hc⟩ := hr.block? b hb
    simp only [withoutBlocks_of_block? hb]
    exact removeBlocks_append_newline ho hc (h _ _ hb)

theorem blockCount_append_newline (hr : rules.WellSpelled) {x y : Text}
    (h : ∀ o c, rules.block? = some (o, c) → ¬ o <:+: behindBlocks o c x ∨ ¬ c <:+: y) :
    blockCount rules (x ++ '\n' :: y) = blockCount rules x + blockCount rules y := by
  cases hb : rules.block? with
  | none => simp only [blockCount, hb]
  | some b =>
    obtain ⟨ho, hc⟩ := hr.block? b hb
    simp only [blockCount, hb]
    exact countBlocks_append_newline ho hc (h _ _ hb)

theorem blockCount_nil (hr : rules.WellSpelled) : blockCount rules [] = 0 := by
  refine (blockCount_eq_zero_iff hr).2 fun o c hb h => ?_
  exact (hr.block? (o, c) hb).1.ne_nil (List.infix_nil.1 h.isInfix)

theorem withoutBlocks_concat_newline (hr : rules.WellSpelled) (x : Text) :
    withoutBlocks rules (x ++ ['\n']) = withoutBlocks rules x ++ ['\n'] := by
  have h := withoutBlocks_append_newline hr (x := x) (y := []) fun o c hb =>
    .inr fun hc => (hr.block? (o, c) hb).2.ne_nil (List.infix_nil.1 hc)
  have hnil : withoutBlocks rules [] = [] :=
    List.sublist_nil.1 (withoutBlocks_sublist hr [])
  rwa [hnil] at h

theorem wholeLines_withoutBlocks (hr : rules.WellSpelled) {a : Text} (ha : WholeLines a) :
    WholeLines (withoutBlocks rules a) := by
  rcases ha with rfl | ⟨x, rfl⟩
  · exact .inl (List.sublist_nil.1 (withoutBlocks_sublist hr []))
  · rw [withoutBlocks_concat_newline hr]
    exact .inr (List.suffix_append ..)

end Uncomment.Comment
