import Uncomment.Strip
import Uncomment.Proofs.Comment.Reading

/-! # Where docstrings end

A line of code whose trimmed form starts with a quote opens a docstring, which comes to one
docstring and no kept line, however many lines it takes (`Reading.docstring`).
`readSource_docstring` says where it ends and that the lines behind it are read as code.

On its first line a docstring is closed by any quote of the language (`closesAtOnce_iff`), on a
later line by its own quote only. So the first line can end it where a later line would not
(`not_forall_mode_eq_code_iff`). -/

namespace Uncomment.Comment

open Text

variable {rules : Rules} {l q : Text}

/-- The reading of a docstring, behind which the reader is in the mode `m`. -/
def Reading.docstring (m : Mode) : Reading := ⟨[], 0, 1, m⟩

theorem closesAtOnce_iff {t : Text} :
    closesAtOnce rules t = true ↔ ∃ p ∈ rules.docQuotes, p <:+ t.drop 3 := by
  simp only [closesAtOnce, List.any_eq_true, List.isSuffixOf_iff_suffix]

/-- Of quotes of one length, only one can start a line. -/
theorem docQuote?_eq_some {t : Text} (hlen : ∀ p ∈ rules.docQuotes, p.length = q.length)
    (hq : q ∈ rules.docQuotes) (ht : q <+: t) : docQuote? rules t = some q := by
  cases h : docQuote? rules t with
  | none => exact absurd ht (docQuote?_eq_none_iff.1 h q hq)
  | some p =>
    obtain ⟨hp, hpre⟩ := mem_of_docQuote?_eq_some h
    have hle : p.length ≤ q.length := Nat.le_of_eq (hlen p hp)
    rw [(List.prefix_of_prefix_length_le hpre ht hle).eq_of_length (hlen p hp)]

theorem readLines_of_docQuote? (h : docQuote? rules l.trim = some q) (ls : List Text) :
    readLines rules .code (l :: ls) =
      (Reading.docstring (Mode.code.after rules l)).append
        (readLines rules (Mode.code.after rules l) ls) := by
  rw [readLines, Mode.read, h]
  rfl

theorem Mode.after_of_docQuote? (h : docQuote? rules l.trim = some q) :
    Mode.code.after rules l =
      if ∃ p ∈ rules.docQuotes, p <:+ l.trim.drop 3 then .code else .docstring q := by
  rw [Mode.after, h]
  simp only [closesAtOnce_iff]

/-! ### The lines of a docstring -/

theorem readLines_docstring_of_open {xs : List Text} (h : ∀ x ∈ xs, ¬ q <:+ x.trim) :
    readLines rules (.docstring q) xs = ⟨[], 0, 0, .docstring q⟩ := by
  induction xs with
  | nil => rfl
  | cons x xs ih =>
    have hx : (Mode.docstring q).after rules x = .docstring q := by
      rw [Mode.after, if_neg]
      rw [List.isSuffixOf_iff_suffix]
      exact h x List.mem_cons_self
    rw [readLines, hx, ih fun y hy => h y (List.mem_cons_of_mem x hy)]
    rfl

theorem readLines_docstring_closed {xs : List Text} {c : Text} (h : ∀ x ∈ xs, ¬ q <:+ x.trim)
    (hc : q <:+ c.trim) (rest : List Text) :
    readLines rules (.docstring q) (xs ++ c :: rest) = readLines rules .code rest := by
  have hafter : (Mode.docstring q).after rules c = .code :=
    if_pos (List.isSuffixOf_iff_suffix.2 hc)
  rw [readLines_append, readLines_docstring_of_open h, readLines, hafter]
  simp [Reading.append, Reading.cons, Mode.read, Fate.kept?, Fate.lineComments, Fate.docstrings]

/-! ### Where a docstring ends -/

theorem length_docQuotes (hq : q ∈ Rules.hashes.docQuotes) :
    ∀ p ∈ Rules.hashes.docQuotes, p.length = q.length := by
  have hthree : ∀ p ∈ Rules.hashes.docQuotes, p.length = 3 := by decide
  intro p hp
  rw [hthree p hp, hthree q hq]

/-- **The extent of a docstring** that the line `l` opens with the quote `q`. It ends on that line
exactly when one of the quotes ends what follows its first three characters; otherwise it ends with
the first later line that `q` ends, and without such a line it is open at the end. It is one
docstring, no line of it is kept, and behind it the reader is back in the code. -/
theorem readSource_docstring {t : Text} {as bs : List Text} (ht : lines t = as ++ l :: bs)
    (has : (readLines .hashes .code as).mode = .code) (hq : q ∈ Rules.hashes.docQuotes)
    (hl : q <+: l.trim) :
    ((readLines .hashes .code (as ++ [l])).mode = .code ↔
      ∃ p ∈ Rules.hashes.docQuotes, p <:+ l.trim.drop 3) ∧
    ((∃ p ∈ Rules.hashes.docQuotes, p <:+ l.trim.drop 3) →
      readSource .hashes t =
        (readLines .hashes .code as).append
          ((Reading.docstring .code).append (readLines .hashes .code bs))) ∧
    ((¬ ∃ p ∈ Rules.hashes.docQuotes, p <:+ l.trim.drop 3) →
      (∀ xs c rest, bs = xs ++ c :: rest → (∀ x ∈ xs, ¬ q <:+ x.trim) → q <:+ c.trim →
        readSource .hashes t =
          (readLines .hashes .code as).append
            ((Reading.docstring .code).append (readLines .hashes .code rest))) ∧
      ((∀ x ∈ bs, ¬ q <:+ x.trim) →
        readSource .hashes t =
          (readLines .hashes .code as).append (Reading.docstring (.docstring q)))) := by
  have hquote : docQuote? .hashes l.trim = some q := docQuote?_eq_some (length_docQuotes hq) hq hl
  have hafter := Mode.after_of_docQuote? hquote
  have hread : readSource .hashes t =
      (readLines .hashes .code as).append
        ((Reading.docstring (Mode.code.after .hashes l)).append
          (readLines .hashes (Mode.code.after .hashes l) bs)) := by
    change readLines .hashes .code (lines t) = _
    rw [ht, readLines_append, has, readLines_of_docQuote? hquote]
  have hmode : (readLines .hashes .code (as ++ [l])).mode = Mode.code.after .hashes l := by
    rw [readLines_append, has, readLines_of_docQuote? hquote]
    rfl
  refine ⟨?_, fun hclosed => ?_, fun hopen => ⟨?_, fun hbs => ?_⟩⟩
  · rw [hmode, hafter]
    split
    · next h => exact iff_of_true rfl h
    · next h => exact iff_of_false nofun h
  · rw [hread, hafter, if_pos hclosed]
  · intro xs c rest hbs hxs hc
    rw [hread, hafter, if_neg hopen, hbs, readLines_docstring_closed hxs hc]
    rfl
  · rw [hread, hafter, if_neg hopen, readLines_docstring_of_open hbs]
    rfl

/-- Another quote on a later line does not close the docstring. -/
theorem readSource_docstring_later :
    let t : Text := "x\n\"\"\"a\n'''\n\"\"\"\ny\n".toList
    lines t = [['x']] ++ "\"\"\"a".toList :: ["'''".toList, "\"\"\"".toList, ['y']] ∧
      readSource .hashes t = ⟨[['x'], ['y']], 0, 1, .code⟩ := by
  intro t
  have ht : lines t =
      [['x']] ++ "\"\"\"a".toList :: ["'''".toList, "\"\"\"".toList, ['y']] := by decide
  have hopen := (readSource_docstring (q := "\"\"\"".toList) ht (by decide) (by decide)
    (by decide)).2.2 (by decide)
  refine ⟨ht, ?_⟩
  rw [hopen.1 ["'''".toList] "\"\"\"".toList [['y']] rfl (by decide) (by decide)]
  decide

/-- On its first line a docstring is not closed by its own quote alone. -/
theorem not_forall_mode_eq_code_iff :
    ¬ ∀ (as : List Text) (l q : Text), (readLines .hashes .code as).mode = .code →
      q ∈ Rules.hashes.docQuotes → q <+: l.trim →
        ((readLines .hashes .code (as ++ [l])).mode = .code ↔ q <:+ l.trim.drop 3) := by
  intro h
  have hiff := h [] "\"\"\"a'''".toList "\"\"\"".toList rfl (by decide) (by decide)
  exact absurd (hiff.1 (by decide)) (by decide)

end Uncomment.Comment
