import Uncomment.Strip
import Uncomment.Proofs.Text.Lines
import Uncomment.Proofs.Comment.Block

/-! # Line endings

`withReturns t` is `t` with a carriage return before every newline. Stripping comes to the same for
both (`strip_withReturns`). The line cutter takes the carriage returns away again
(`lines_withReturns`), but the block remover sees the text before it: there the blocks of
`withReturns t` are those of `t` with carriage returns in them (`blocks_withReturns`), since neither
a carriage return nor a newline is part of a mark. -/

namespace Uncomment

open Text Comment

namespace Text

/-- The text with a carriage return before every newline. -/
def withReturns (t : Text) : Text := t.flatMap fun c => if c = '\n' then ['\r', '\n'] else [c]

@[simp] theorem withReturns_nil : withReturns [] = [] := rfl

@[simp] theorem withReturns_newline (t : Text) :
    withReturns ('\n' :: t) = '\r' :: '\n' :: withReturns t := rfl

theorem withReturns_cons {c : Char} (hc : c ≠ '\n') (t : Text) :
    withReturns (c :: t) = c :: withReturns t := by
  rw [withReturns, List.flatMap_cons, if_neg hc]
  rfl

theorem withReturns_append (s t : Text) :
    withReturns (s ++ t) = withReturns s ++ withReturns t := List.flatMap_append

/-- What becomes of the rest of a text behind some of its characters. -/
theorem drop_withReturns (n : Nat) (t : Text) :
    (withReturns t).drop (withReturns (t.take n)).length = withReturns (t.drop n) := by
  have h : withReturns t = withReturns (t.take n) ++ withReturns (t.drop n) := by
    rw [← withReturns_append, List.take_append_drop]
  rw [h, List.drop_left]

theorem withReturns_eq_self {t : Text} (h : '\n' ∉ t) : withReturns t = t := by
  induction t with
  | nil => rfl
  | cons c r ih =>
    rw [List.mem_cons, not_or] at h
    rw [withReturns_cons (Ne.symm h.1), ih h.2]

theorem lines_withReturns {t : Text} (h : '\r' ∉ t) : lines (withReturns t) = lines t := by
  induction t with
  | nil => rfl
  | cons c r ih =>
    rw [List.mem_cons, not_or] at h
    by_cases hc : c = '\n'
    · rw [hc, withReturns_newline, lines_return_newline, lines_newline, ih h.2]
    · have hreturn : c ≠ '\r' := Ne.symm h.1
      rw [withReturns_cons hc, lines_cons hc fun hr => absurd hr hreturn,
        lines_cons hc fun hr => absurd hr hreturn, ih h.2]

/-! ### Marks -/

theorem isPrefix_withReturns_iff {m : Text} (hm : ∀ c ∈ m, isBlank c = false) {t : Text} :
    m <+: withReturns t ↔ m <+: t := by
  induction m generalizing t with
  | nil => exact iff_of_true List.nil_prefix List.nil_prefix
  | cons d m ih =>
    have hd := hm d List.mem_cons_self
    cases t with
    | nil => exact Iff.rfl
    | cons c r =>
      by_cases hc : c = '\n'
      · subst hc
        rw [withReturns_newline, List.cons_prefix_cons, List.cons_prefix_cons]
        exact iff_of_false (fun h => ne_of_not_blank hd rfl h.1) fun h => ne_of_not_blank hd rfl h.1
      · rw [withReturns_cons hc, List.cons_prefix_cons, List.cons_prefix_cons,
          ih fun c hc => hm c (List.mem_cons_of_mem _ hc)]

theorem Solid.isPrefixOf_withReturns {m : Text} (hm : Solid m) (t : Text) :
    m.isPrefixOf (withReturns t) = m.isPrefixOf t := by
  rw [Bool.eq_iff_iff, List.isPrefixOf_iff_prefix, List.isPrefixOf_iff_prefix,
    isPrefix_withReturns_iff hm.not_blank]

/-- The first copy of a mark ends where it did, if the carriage returns before that are counted. -/
theorem Solid.endOf?_withReturns {p : Text} (hp : Solid p) (t : Text) :
    endOf? p (withReturns t) = (endOf? p t).map fun n => (withReturns (t.take n)).length := by
  induction t with
  | nil =>
    have hne : ¬ p.isEmpty = true := fun h => hp.ne_nil (List.isEmpty_iff.1 h)
    rw [withReturns_nil, endOf?, if_neg hne]
    rfl
  | cons c r ih =>
    by_cases hc : c = '\n'
    · subst hc
      have hno : ∀ {d : Char} {s : Text}, isBlank d = true → ¬ p.isPrefixOf (d :: s) = true :=
        fun hd h => hp.not_isPrefix_blank_cons hd (List.isPrefixOf_iff_prefix.1 h)
      rw [withReturns_newline, endOf?, endOf?, endOf?, if_neg (hno rfl), if_neg (hno rfl),
        if_neg (hno rfl), ih]
      simp [Function.comp_def]
    · rw [endOf?, ← hp.isPrefixOf_withReturns, withReturns_cons hc, endOf?]
      split
      · next h =>
        rw [← withReturns_cons hc, hp.isPrefixOf_withReturns, List.isPrefixOf_iff_prefix] at h
        obtain ⟨s, hs⟩ := h
        rw [← hs, Option.map_some, List.take_left, withReturns_eq_self hp.newline_notMem]
      · simp [ih, Function.comp_def, withReturns_cons hc]

end Text

namespace Comment

variable {o c : Text}

theorem blockLength?_withReturns (ho : Solid o) (hc : Solid c) (t : Text) :
    blockLength? o c (withReturns t) =
      (blockLength? o c t).map fun n => (withReturns (t.take n)).length := by
  rw [blockLength?, blockLength?, ho.isPrefixOf_withReturns]
  split
  · next h =>
    obtain ⟨s, rfl⟩ := List.isPrefixOf_iff_prefix.1 h
    rw [withReturns_append, withReturns_eq_self ho.newline_notMem, List.drop_left, List.drop_left,
      hc.endOf?_withReturns, Option.map_map, Option.map_map]
    congr 1
    funext n
    rw [Function.comp_apply, Function.comp_apply, List.take_length_add_append, withReturns_append,
      withReturns_eq_self ho.newline_notMem, List.length_append]
  · rfl

/-- The same blocks are taken out of both texts, one after the other. -/
theorem blocks_withReturns (ho : Solid o) (hc : Solid c) (t : Text) :
    removeBlocks o c (withReturns t) = withReturns (removeBlocks o c t) ∧
      countBlocks o c (withReturns t) = countBlocks o c t := by
  have hf : Bounded (blockLength? o c) := bounded_blockLength? ho
  induction t using hf.cut_induction with
  | nil => exact ⟨rfl, rfl⟩
  | char d r h ih =>
    rw [removeBlocks_cons h, countBlocks_cons h]
    by_cases hd : d = '\n'
    · subst hd
      have hnone : ∀ {e : Char} {s : Text}, isBlank e = true → blockLength? o c (e :: s) = none :=
        fun he => blockLength?_blank_cons ho he _
      rw [withReturns_newline, withReturns_newline, removeBlocks_cons (hnone rfl),
        removeBlocks_cons (hnone rfl), countBlocks_cons (hnone rfl), countBlocks_cons (hnone rfl),
        ih.1, ih.2]
      exact ⟨rfl, rfl⟩
    · have hnone : blockLength? o c (d :: withReturns r) = none := by
        rw [← withReturns_cons hd, blockLength?_withReturns ho hc, h]
        rfl
      rw [withReturns_cons hd, withReturns_cons hd, removeBlocks_cons hnone, countBlocks_cons hnone,
        ih.1, ih.2]
      exact ⟨rfl, rfl⟩
  | stretch s n h ih =>
    have hsome : blockLength? o c (withReturns s) = some (withReturns (s.take n)).length := by
      rw [blockLength?_withReturns ho hc, h]
      rfl
    rw [removeBlocks_of_some ho hsome, removeBlocks_of_some ho h, countBlocks_of_some ho hsome,
      countBlocks_of_some ho h, drop_withReturns, ih.1, ih.2]
    exact ⟨rfl, rfl⟩

end Comment

variable {rules : Rules}

theorem withoutBlocks_withReturns (hr : rules.WellSpelled) (t : Text) :
    withoutBlocks rules (withReturns t) = withReturns (withoutBlocks rules t) := by
  cases h : rules.block? with
  | none => rw [withoutBlocks_of_none h, withoutBlocks_of_none h]
  | some b =>
    obtain ⟨ho, hc⟩ := hr.block? b h
    rw [withoutBlocks_of_block? h, withoutBlocks_of_block? h]
    exact (blocks_withReturns ho hc t).1

theorem blockCount_withReturns (hr : rules.WellSpelled) (t : Text) :
    blockCount rules (withReturns t) = blockCount rules t := by
  cases h : rules.block? with
  | none => rw [blockCount, blockCount, h]
  | some b =>
    obtain ⟨ho, hc⟩ := hr.block? b h
    rw [blockCount, blockCount, h]
    exact (blocks_withReturns ho hc t).2

theorem readSource_withReturns (hr : rules.WellSpelled) {t : Text} (h : '\r' ∉ t) :
    readSource rules (withReturns t) = readSource rules t := by
  have hblocks : '\r' ∉ withoutBlocks rules t := fun hmem =>
    h ((withoutBlocks_sublist hr t).subset hmem)
  rw [readSource, withoutBlocks_withReturns hr, lines_withReturns hblocks, readSource]

/-- **Line endings do not matter.** Text, counters and events are the same. -/
theorem strip_withReturns (l : Language) {t : Text} (h : '\r' ∉ t) :
    strip l (withReturns t) = strip l t := by
  have hr := l.rules_wellSpelled
  simp only [strip, readSource_withReturns hr h, blockCount_withReturns hr, lines_withReturns h]

/-- A block over two lines, and a line comment. -/
theorem strip_withReturns_block :
    let t : Text := "a/*\n*/b\n//\nc".toList
    '\r' ∉ t ∧ strip .cpp "a/*\r\n*/b\r\n//\r\nc".toList = strip .cpp t := by
  intro t
  have ht : '\r' ∉ t := by decide
  have hreturns : withReturns t = "a/*\r\n*/b\r\n//\r\nc".toList := by decide
  exact ⟨ht, hreturns ▸ strip_withReturns .cpp ht⟩

end Uncomment
