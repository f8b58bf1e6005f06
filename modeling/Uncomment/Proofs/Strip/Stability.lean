import Uncomment.Proofs.Comment.Settled
import Uncomment.Proofs.Strip.Basic
import Uncomment.Proofs.Run

/-! # Stripping twice

Which results of stripping are left alone when they are stripped again (`strip_text_eq_self_iff`).

The lines of a result are the kept lines, trimmed and collapsed, and they are settled
(`settled_piecesAt_core`): a second reader keeps every one of them whole, so that only the block
remover and the line cutter can change the text. The block remover does so exactly when there is a
block, the line cutter exactly when there is a carriage return before a newline.

Stripping takes characters out of a text and does not move those that stay: the result, less the
newline at its end, is a subsequence of the source (`core_sublist`), since the newlines that join
the kept lines and the two that stand for a run of empty lines are newlines of the source. So a run
writes at most one byte more than it reads (`strip_text_sublist`), the newline that ends the
text. -/

namespace Uncomment

open Text Comment Layout

variable {rules : Rules}

/-! ### Settled texts -/

theorem settled_piecesAt_trimLeft (hr : rules.WellSpelled) {t : Text}
    (h : Settled rules .code (piecesAt '\n' t)) :
    Settled rules .code (piecesAt '\n' (trimLeft t)) := by
  obtain ⟨w, hw, ht⟩ := exists_eq_trimLeft t
  obtain ⟨p, ps, hp⟩ := List.exists_cons_of_ne_nil (piecesAt_ne_nil '\n' (trimLeft t))
  rw [ht] at h
  -- the first line is not blank, so the leading blanks are part of it
  have hnl : '\n' ∉ w := by
    intro hmem
    obtain ⟨u, v, rfl, hu⟩ := List.eq_append_cons_of_mem hmem
    rw [List.append_assoc, List.cons_append, piecesAt_append, piecesAt_of_notMem hu] at h
    have hb := (kept?_code_eq_some_iff.1 h.1).2.2
    simp only [isBlankText_append, Bool.and_eq_true] at hw
    rw [hw.1] at hb
    cases hb
  rw [piecesAt_append_of_notMem hnl hp] at h
  rw [hp]
  exact h.blank_append hr hw

theorem settled_piecesAt_trimRight (hr : rules.WellSpelled) {m : Mode} {t : Text}
    (hne : isBlankText t = false) (h : Settled rules m (piecesAt '\n' t)) :
    Settled rules m (piecesAt '\n' (trimRight t)) := by
  obtain ⟨r, c, w, hw, hc, rfl⟩ := exists_not_blank_last hne
  obtain ⟨xs, l, hx⟩ : ∃ xs l, piecesAt '\n' r = xs ++ [l] :=
    ⟨_, _, (List.dropLast_concat_getLast (piecesAt_ne_nil '\n' r)).symm⟩
  have hcn : '\n' ∉ [c] := by
    rw [List.mem_singleton]
    exact (ne_of_not_blank hc rfl).symm
  have hz := piecesAt_append_of_notMem_right hcn hx
  rw [trimRight_append_cons hc, trimRight_eq_nil_iff.2 hw, hz]
  rw [← List.singleton_append, ← List.append_assoc] at h
  -- the lines behind the first newline of the blanks do not count
  obtain ⟨u, hu, hnl, hsettled⟩ : ∃ u, isBlankText u = true ∧ '\n' ∉ u ∧
      Settled rules m (piecesAt '\n' (r ++ [c] ++ u)) := by
    by_cases hmem : '\n' ∈ w
    · obtain ⟨u, v, rfl, hu⟩ := List.eq_append_cons_of_mem hmem
      rw [← List.append_assoc, piecesAt_append] at h
      simp only [isBlankText_append, Bool.and_eq_true] at hw
      exact ⟨u, hw.1, hu, (settled_append.1 h).1⟩
    · exact ⟨w, hw, hmem, h⟩
  rw [piecesAt_append_of_notMem_right hnl hz] at hsettled
  exact hsettled.append_blank hr hu (by simp [hc])

theorem settled_piecesAt_trim (hr : rules.WellSpelled) {t : Text} (hne : isBlankText t = false)
    (h : Settled rules .code (piecesAt '\n' t)) : Settled rules .code (piecesAt '\n' (trim t)) :=
  settled_piecesAt_trimRight hr ((isBlankText_trimLeft t).trans hne)
    (settled_piecesAt_trimLeft hr h)

/-- The first lines before and after collapsing are the same, and the lines behind them are settled
after it if they were before, in whatever mode the first line leaves. -/
theorem exists_piecesAt_collapse (hr : rules.WellSpelled) (t : Text) :
    ∃ p ps ps', piecesAt '\n' t = p :: ps ∧ piecesAt '\n' (collapse t) = p :: ps' ∧
      ∀ {m : Mode}, m.Valid rules → Settled rules m ps → Settled rules m ps' := by
  induction t using collapse_induction with
  | nil => exact ⟨[], [], [], rfl, rfl, fun _ h => h⟩
  | char c r hnone ih =>
    obtain ⟨p, ps, ps', hp, hp', hps⟩ := ih
    rw [collapse_cons hnone, piecesAt, piecesAt, hp, hp']
    by_cases hc : c = '\n'
    · refine ⟨[], p :: ps, p :: ps', if_pos hc, if_pos hc, fun hm h => ?_⟩
      exact ⟨h.1, hps (hm.after p) h.2⟩
    · exact ⟨c :: p, ps, ps', if_neg hc, if_neg hc, hps⟩
  | run b r hb _ hrun ih =>
    obtain ⟨p, ps, ps', hp, hp', hps⟩ := ih
    refine ⟨[], piecesAt '\n' b ++ p :: ps, [] :: p :: ps', ?_, ?_, fun hm h => ?_⟩
    · rw [← hp, ← piecesAt_append]
      rfl
    · rw [collapse_run hrun, ← hp']
      rfl
    · have hbs : ∀ k ∈ piecesAt '\n' b, isBlankText k = true := fun k hk =>
        isBlankText_of_mem_piecesAt hb hk
      exact h.empty_cons hr hm (piecesAt_ne_nil '\n' b) hbs fun h => ⟨h.1, hps (hm.after p) h.2⟩

theorem settled_piecesAt_collapse (hr : rules.WellSpelled) {m : Mode} (hm : m.Valid rules)
    {t : Text} (h : Settled rules m (piecesAt '\n' t)) :
    Settled rules m (piecesAt '\n' (collapse t)) := by
  obtain ⟨p, ps, ps', hp, hp', hps⟩ := exists_piecesAt_collapse hr t
  rw [hp] at h
  rw [hp']
  exact ⟨h.1, hps (hm.after p) h.2⟩

/-! ### The result of stripping -/

/-- The result of stripping less the newline at its end. -/
def core (l : Language) (t : Text) : Text := collapse (trim (unlines (readSource l.rules t).kept))

theorem text_strip_eq_core (l : Language) (t : Text) : (strip l t).text = core l t ++ ['\n'] := by
  rw [text_strip, finish_eq_collapse_trim]
  rfl

theorem finish_core (l : Language) (t : Text) : finish (core l t) = core l t ++ ['\n'] := by
  rw [finish, core, collapse_collapse, trim_collapse, trim_trim]

theorem core_sublist (l : Language) (t : Text) : List.Sublist (core l t) t := by
  calc
    List.Sublist (core l t) (trim (unlines (readSource l.rules t).kept)) := collapse_sublist _
    List.Sublist _ (unlines (readSource l.rules t).kept) := trim_sublist _
    List.Sublist _ (unlines (lines (withoutBlocks l.rules t))) := unlines_kept_sublist .code _
    List.Sublist _ (withoutBlocks l.rules t) := unlines_lines_sublist _
    List.Sublist _ t := withoutBlocks_sublist l.rules_wellSpelled t

theorem newline_notMem_of_mem_kept {l : Language} {t k : Text}
    (h : k ∈ (readSource l.rules t).kept) : '\n' ∉ k := by
  obtain ⟨k', hk', hpre⟩ := exists_isPrefix_of_mem_kept h
  exact fun hmem => newline_notMem_of_mem_lines hk' (hpre.subset hmem)

theorem settled_piecesAt_core {l : Language} {t : Text} (hne : core l t ≠ []) :
    Settled l.rules .code (piecesAt '\n' (core l t)) := by
  have hr := l.rules_wellSpelled
  have hkept : (readSource l.rules t).kept ≠ [] := fun h => hne (by rw [core, h]; rfl)
  have hblank : isBlankText (unlines (readSource l.rules t).kept) = false := by
    refine Bool.eq_false_iff.2 fun h => hne ?_
    rw [core, trim_eq_nil_iff.2 h]
    rfl
  have hsettled : Settled l.rules .code (piecesAt '\n' (unlines (readSource l.rules t).kept)) := by
    rw [piecesAt_unlines hkept fun k hk => newline_notMem_of_mem_kept hk]
    exact settled_kept hr .code _
  exact settled_piecesAt_collapse hr Mode.valid_code (settled_piecesAt_trim hr hblank hsettled)

/-- Without a block and without a carriage return before a newline, a result is left alone. -/
theorem strip_text_of_clean {l : Language} {t : Text}
    (hreturn : ¬ ['\r', '\n'] <:+: (strip l t).text)
    (hblock : blockCount l.rules (strip l t).text = 0) :
    (strip l (strip l t).text).text = (strip l t).text := by
  rw [text_strip_eq_core l t] at hreturn hblock ⊢
  by_cases hne : core l t = []
  · rw [hne]
    cases l <;> decide
  · -- the line cutter finds the lines of the core, and the reader keeps them all
    have hread : (readSource l.rules (core l t ++ ['\n'])).kept = piecesAt '\n' (core l t) := by
      rw [readSource, withoutBlocks_eq_self l.rules_wellSpelled hblock,
        lines_concat_newline hreturn]
      exact (settled_piecesAt_core hne).kept_eq
    rw [text_strip, hread, unlines_piecesAt, finish_core]

/-! ### What changes a result -/

theorem count_return_strip_le (l : Language) (t : Text) :
    List.count '\r' (strip l t).text ≤ (lines (withoutBlocks l.rules t)).flatten.count '\r' := by
  rw [text_strip, ← count_return_unlines]
  refine Nat.le_trans (count_return_finish_le _) ?_
  exact (unlines_kept_sublist .code _).count_le '\r'

theorem return_notMem_strip {t : Text} (ht : '\r' ∉ t) (l : Language) :
    '\r' ∉ (strip l t).text := by
  rw [text_strip_eq_core, List.mem_append, not_or]
  exact ⟨fun h => ht ((core_sublist l t).subset h), by decide⟩

/-- In a text that is left alone there is no block, since a block would cost characters that are
not blank. -/
theorem blockCount_of_strip_text_eq {l : Language} {t : Text} (h : (strip l t).text = t) :
    blockCount l.rules t = 0 := by
  have hle := length_nonblank_strip_le l t
  rw [h] at hle
  have hcount : (strip l t).stats.blockComments = 0 := by omega
  exact hcount

/-- Nor is there a carriage return before a newline, since the number of carriage returns would
drop. -/
theorem not_return_of_strip_text_eq {l : Language} {t : Text} (h : (strip l t).text = t) :
    ¬ ['\r', '\n'] <:+: t := by
  intro hreturn
  have hle := count_return_strip_le l t
  have hlt := count_return_lines_lt hreturn
  rw [h, withoutBlocks_eq_self l.rules_wellSpelled (blockCount_of_strip_text_eq h)] at hle
  omega

/-- A result of stripping is left alone by stripping exactly when it has neither a carriage return
before a newline nor a block. A text without carriage returns, in a language without blocks, is
always left alone. -/
theorem strip_text_eq_self_iff (l : Language) (t : Text) :
    ((strip l (strip l t).text).text = (strip l t).text ↔
      ¬ ['\r', '\n'] <:+: (strip l t).text ∧
        ∀ o c, l.rules.block? = some (o, c) → ¬ HasBlock o c (strip l t).text) ∧
    ('\r' ∉ t → (strip .python (strip .python t).text).text = (strip .python t).text) := by
  have hblock := blockCount_eq_zero_iff (t := (strip l t).text) l.rules_wellSpelled
  refine ⟨⟨fun h => ?_, fun h => ?_⟩, fun ht => ?_⟩
  · exact ⟨not_return_of_strip_text_eq h, hblock.1 (blockCount_of_strip_text_eq h)⟩
  · exact strip_text_of_clean h.1 (hblock.2 h.2)
  · refine strip_text_of_clean (fun hreturn => ?_) rfl
    exact return_notMem_strip ht .python (hreturn.subset List.mem_cons_self)

/-- Empty lines in a literal are collapsed once. -/
theorem strip_text_eq_self_of_literal :
    let t : Text := "s'''\n\n\n a''' #".toList
    '\r' ∉ t ∧ (strip .python (strip .python t).text).text = (strip .python t).text :=
  ⟨by decide, (strip_text_eq_self_iff .python _).2 (by decide)⟩

/-! ### Nothing is invented -/

theorem size_strip_le (l : Language) (t : Text) :
    Utf8.size (strip l t).text ≤ Utf8.size t + 1 := by
  rw [text_strip_eq_core, Utf8.size_append]
  exact Nat.add_le_add_right (Utf8.size_le_of_sublist (core_sublist l t)) 1

/-- **Nothing is invented or moved.** A result ends with a newline, and without it is a subsequence
of the source; so the text of a run is at most one byte longer than its input. -/
theorem strip_text_sublist :
    (∀ (l : Language) (t : Text),
      ['\n'] <:+ (strip l t).text ∧ List.Sublist (strip l t).text.dropLast t) ∧
    ∀ (store : Storage) (s : Settings) (r : Run), (run store s).2.result = .ok r →
      r.report.bytesAfter ≤ r.report.bytesBefore + 1 := by
  constructor
  · intro l t
    rw [text_strip_eq_core, List.dropLast_concat]
    exact ⟨List.suffix_append .., core_sublist l t⟩
  · intro store s r h
    obtain ⟨source, language, -, -, -, rfl⟩ := exists_of_run_ok h
    simp only [Settings.reportOn, Settings.Processed.of]
    exact size_strip_le language source

/-- The input has no newline at its end, so that the bound is attained. -/
theorem strip_text_sublist_unclosed :
    let store : Storage := ⟨"", ⟨[(["a.py"], .file [0x78])], []⟩⟩
    let s : Settings := ⟨"a.py", none, none, false, 1, false⟩
    let r : Run := ⟨⟨"a.py", none, .python, 1, 2, ⟨1, 1, 0, 0, 0⟩⟩, ['x', '\n']⟩
    (run store s).2.result = .ok r ∧ r.report.bytesAfter ≤ r.report.bytesBefore + 1 := by
  intro store s r
  have h : (run store s).2.result = .ok r := by
    unfold store s r
    rfl
  exact ⟨h, strip_text_sublist.2 store s r h⟩

end Uncomment
