import Uncomment.Proofs.Strip.BlankLines
import Uncomment.Proofs.Strip.Canonical

/-! # Literals over several lines

A line of code can leave a triple-quoted literal open; the lines that follow, up to the one that
closes it, are kept as they are (`readLines_literal_closed`). In the result they stand directly
behind the line that opened the literal, but layout knows nothing of literals and squeezes their
blank lines like any others. So they come out unchanged exactly when no two blank lines follow each
other (`literalLines_follow`), which is not always so (`not_forall_literalLines_follow`). -/

namespace Uncomment

open Text Comment Layout

/-! ### The lines of a literal -/

namespace Comment

variable {rules : Rules} {q : Text}

theorem readLines_literal_of_open {xs : List Text} (h : ∀ x ∈ xs, ¬ q <:+: x) :
    readLines rules (.literal q) xs = ⟨xs, 0, 0, .literal q⟩ := by
  induction xs with
  | nil => rfl
  | cons x xs ih =>
    have hx : (Mode.literal q).after rules x = .literal q := by
      rw [Mode.after, if_neg]
      rw [occurs_iff_isInfix]
      exact h x List.mem_cons_self
    rw [readLines, hx, ih fun y hy => h y (List.mem_cons_of_mem x hy)]
    rfl

theorem readLines_literal_closed {xs : List Text} {c : Text} (h : ∀ x ∈ xs, ¬ q <:+: x)
    (hc : q <:+: c) (rest : List Text) :
    readLines rules (.literal q) (xs ++ c :: rest) =
      Reading.append ⟨xs ++ [c], 0, 0, .code⟩ (readLines rules .code rest) := by
  have hafter : (Mode.literal q).after rules c = .code := if_pos (occurs_iff_isInfix.2 hc)
  rw [readLines_append, readLines_literal_of_open h, readLines, hafter]
  simp [Reading.append, Reading.cons, Mode.read, Fate.kept?, Fate.lineComments, Fate.docstrings]

theorem not_blank_of_kept_eq_cons (hr : rules.WellSpelled) {ls ks : List Text} {k : Text}
    (h : (readLines rules .code ls).kept = k :: ks) : isBlankText k = false := by
  have hsettled := settled_kept hr .code ls
  rw [h] at hsettled
  exact (kept?_code_eq_some_iff.1 hsettled.1).2.2

end Comment

/-! ### Where lines stand in a result -/

/-- In the text `out` the lines `ms` follow the line `k` directly, and whole lines with the
characters of the lines `before` stand before `k`. If `k` is the first line, its leading blanks are
gone. -/
def Follows (out : Text) (before : List Text) (k : Text) (ms : List Text) : Prop :=
  ∃ x k' y, WholeLines x ∧ nonblank x = nonblank before.flatten ∧
    (k' = k ∨ x = [] ∧ k' = trimLeft k) ∧ out = x ++ k' ++ onNewLines ms ++ '\n' :: y

/-- Layout leaves no two blank lines in a row. -/
theorem isChain_of_follows {j : Text} {before ls : List Text} {k close : Text}
    (h : Follows (finish j) before k (ls ++ [close])) :
    ls.IsChain fun a b => isBlankText a = false ∨ isBlankText b = false := by
  obtain ⟨x, k', y, -, -, -, hj⟩ := h
  rw [List.isChain_iff_forall_rel_of_append_cons_cons]
  rintro a b u v rfl
  by_contra hab
  simp only [not_or, Bool.not_eq_false] at hab
  have hw : isBlankText ('\n' :: (a ++ '\n' :: (b ++ ['\n']))) = true := by
    rw [isBlankText_cons, isBlankText_append, hab.1, isBlankText_cons, isBlankText_append, hab.2]
    rfl
  have hgap : '\n' :: (a ++ '\n' :: (b ++ ['\n'])) <:+: collapse (finish j) := by
    obtain ⟨z, hz⟩ : ∃ z, onNewLines (v ++ [close]) = '\n' :: z := by
      cases v <;> exact ⟨_, rfl⟩
    refine ⟨x ++ k' ++ onNewLines u, z ++ '\n' :: y, ?_⟩
    rw [collapse_finish, hj, List.append_assoc u, onNewLines_append, List.cons_append,
      List.cons_append, onNewLines_cons, onNewLines_cons, hz]
    simp
  have hlt := count_newline_lt_of_isInfix_collapse hw hgap
  simp only [List.count_cons_self, List.count_append] at hlt
  omega

theorem collapse_onNewLines_between {ks ls bs : List Text} {k close b : Text}
    (hnl : ∀ l ∈ ks ++ k :: (ls ++ close :: b :: bs), '\n' ∉ l) (hk : isBlankText k = false)
    (hclose : isBlankText close = false) (hb : isBlankText b = false) :
    collapse (onNewLines (ks ++ k :: (ls ++ close :: b :: bs))) =
      onNewLines (squeeze ks) ++ '\n' :: (k ++ (onNewLines (squeeze ls ++ [close]) ++
        '\n' :: (b ++ collapse (onNewLines bs)))) := by
  simp only [List.mem_append, List.mem_cons, or_imp, forall_and, forall_eq] at hnl
  obtain ⟨hks, hk', hls, hclose', hb', -⟩ := hnl
  have h₁ := collapse_onNewLines hks hk' hk
    (onNewLines ls ++ '\n' :: (close ++ '\n' :: (b ++ onNewLines bs)))
  have h₂ := collapse_onNewLines hls hclose' hclose ('\n' :: (b ++ onNewLines bs))
  have h₃ := @collapse_onNewLines [] nofun b hb' hb (onNewLines bs)
  rw [onNewLines_nil, List.nil_append] at h₃
  rw [h₂, h₃] at h₁
  simpa [squeeze] using h₁

/-- Trimming leaves what stands between two lines that are not blank, and the line before it. -/
theorem exists_trim_eq {k r : Text} (hk : isBlankText k = false) (hr : isBlankText r = false)
    (s m : Text) :
    ∃ x k', WholeLines x ∧ nonblank x = nonblank s ∧ (k' = k ∨ x = [] ∧ k' = trimLeft k) ∧
      trim (s ++ '\n' :: (k ++ (m ++ r))) = x ++ k' ++ (m ++ trimRight r) := by
  cases hs : isBlankText s with
  | true =>
    have hs' : isBlankText (s ++ ['\n']) = true := by
      rw [isBlankText_append, hs]
      rfl
    refine ⟨[], trimLeft k, .inl rfl, (nonblank_eq_nil_iff.2 hs).symm, .inr ⟨rfl, rfl⟩, ?_⟩
    rw [List.append_cons, trim, trimLeft_append_of_blank hs', trimLeft_append hk,
      ← List.append_assoc, trimRight_append hr, List.nil_append, List.append_assoc]
  | false =>
    refine ⟨trimLeft s ++ ['\n'], k, .inr ⟨_, rfl⟩, ?_, .inl rfl, ?_⟩
    · rw [nonblank_append, nonblank_trimLeft]
      exact List.append_nil _
    · have hright := trimRight_append hr (trimLeft s ++ '\n' :: (k ++ m))
      rw [trim, trimLeft_append hs]
      simpa using hright

theorem follows_finish {ks ls bs : List Text} {k close b : Text}
    (hnl : ∀ l ∈ ks ++ k :: (ls ++ close :: b :: bs), '\n' ∉ l) (hk : isBlankText k = false)
    (hclose : isBlankText close = false) (hb : isBlankText b = false) :
    Follows (finish (unlines (ks ++ k :: (ls ++ close :: b :: bs)))) ks k
      (squeeze ls ++ [close]) := by
  have hlast : isBlankText (b ++ collapse (onNewLines bs)) = false := by
    rw [isBlankText_append, hb, Bool.false_and]
  obtain ⟨x, k', hx, hchars, hk', htrim⟩ := exists_trim_eq hk hlast (onNewLines (squeeze ks))
    (onNewLines (squeeze ls ++ [close]) ++ ['\n'])
  refine ⟨x, k', trimRight (b ++ collapse (onNewLines bs)) ++ ['\n'], hx, ?_, hk', ?_⟩
  · rw [hchars, nonblank_onNewLines, nonblank_flatten_squeeze]
  · have hcollapse := collapse_onNewLines_between hnl hk hclose hb
    rw [List.append_cons (onNewLines (squeeze ls ++ [close]))] at hcollapse
    rw [finish_unlines, hcollapse, htrim]
    simp

/-- **The lines of a literal** in a result. The line `l`, kept as `k`, leaves a literal open, and
`close` is the first line behind it that holds the quote. If a line is kept behind `close`, the
lines between them and `close` itself follow `k` in the result, with their blank lines squeezed;
they are unchanged exactly when no two blank lines are neighbours. -/
theorem literalLines_follow {t l k q close : Text} {as ls bs : List Text}
    (ht : lines t = as ++ l :: (ls ++ close :: bs))
    (has : (readLines .hashes .code as).mode = .code)
    (hk : (Mode.code.read .hashes l).kept? = some k)
    (hopen : Mode.code.after .hashes l = .literal q) (hls : ∀ x ∈ ls, ¬ q <:+: x)
    (hclose : q <:+: close) (hbs : (readLines .hashes .code bs).kept ≠ []) :
    Follows (strip .python t).text (readLines .hashes .code as).kept k (squeeze ls ++ [close]) ∧
      (Follows (strip .python t).text (readLines .hashes .code as).kept k (ls ++ [close]) ↔
        ls.IsChain fun a b => isBlankText a = false ∨ isBlankText b = false) := by
  have hr := Language.python.rules_wellSpelled
  have hq : q ∈ Rules.hashes.docQuotes := by
    have hvalid : (Mode.code.after .hashes l).Valid .hashes := Mode.valid_code.after l
    rwa [hopen] at hvalid
  have hclose' : isBlankText close = false := by
    refine Bool.eq_false_iff.2 fun hblank => ?_
    exact (hr.docQuotes q hq).not_isInfix_of_blank hblank hclose
  obtain ⟨b, bs', hb⟩ := List.exists_cons_of_ne_nil hbs
  have hkept : (readSource .hashes t).kept =
      (readLines .hashes .code as).kept ++ k :: (ls ++ close :: b :: bs') := by
    change (readLines .hashes .code (lines t)).kept = _
    rw [ht, readLines_append, has, readLines, hopen, readLines_literal_closed hls hclose]
    simp [Reading.append, Reading.cons, hk, hb]
  have hnl : ∀ x ∈ (readSource .hashes t).kept, '\n' ∉ x := fun x hx =>
    newline_notMem_of_mem_kept (l := .python) hx
  have hfollows : Follows (strip .python t).text (readLines .hashes .code as).kept k
      (squeeze ls ++ [close]) := by
    change Follows (finish (unlines (readSource .hashes t).kept)) _ _ _
    rw [hkept] at hnl ⊢
    exact follows_finish hnl (kept?_code_eq_some_iff.1 hk).2.2 hclose'
      (not_blank_of_kept_eq_cons hr hb)
  refine ⟨hfollows, fun h => isChain_of_follows h, fun h => ?_⟩
  rwa [squeeze_eq_self h] at hfollows

/-- A blank line between lines that are not blank is kept, with its blanks. -/
theorem literalLines_follow_blank :
    let t : Text := "s = '''\n  \na\n'''\nx\n".toList
    lines t = [] ++ "s = '''".toList :: ([[' ', ' '], ['a']] ++ ['\'', '\'', '\''] :: [['x']]) ∧
      Follows (strip .python t).text [] "s = '''".toList
        ([[' ', ' '], ['a']] ++ [['\'', '\'', '\'']]) := by
  intro t
  have ht : lines t =
      [] ++ "s = '''".toList :: ([[' ', ' '], ['a']] ++ ['\'', '\'', '\''] :: [['x']]) := by decide
  refine ⟨ht, (literalLines_follow (q := ['\'', '\'', '\'']) ht rfl (by decide) (by decide)
    (by decide) (by decide) (by decide)).2.2 ?_⟩
  decide

/-- Two empty lines in a literal do not come out as they were. -/
theorem not_forall_literalLines_follow :
    ¬ ∀ (t l k q close : Text) (as ls bs : List Text), lines t = as ++ l :: (ls ++ close :: bs) →
      (readLines .hashes .code as).mode = .code → (Mode.code.read .hashes l).kept? = some k →
      Mode.code.after .hashes l = .literal q → (∀ x ∈ ls, ¬ q <:+: x) → q <:+: close →
      (readLines .hashes .code bs).kept ≠ [] →
        Follows (strip .python t).text (readLines .hashes .code as).kept k (ls ++ [close]) := by
  intro h
  have hfollows := h "s = '''\n\n\n'''\nx\n".toList "s = '''".toList "s = '''".toList
    "'''".toList "'''".toList [] [[], []] [['x']] (by decide) rfl (by decide) (by decide)
    (by decide) (by decide) (by decide)
  exact absurd (isChain_of_follows hfollows) (by decide)

end Uncomment
