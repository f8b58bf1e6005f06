import Uncomment.Proofs.Comment.Docstring
import Uncomment.Proofs.Strip.Basic

/-! # Docstrings that nothing closes

The reader of lines keeps in one `Mode` what is open. A loop with two variables, one for a docstring
and one for a literal (`Openings`), could have both set; but it goes along with the modes line by
line (`Mode.openings_after`), and so it never has. At the end of a source there is one warning at
most.

The warning about a docstring is exact (`openDocstring_iff`). A docstring is open at the end only if
some line opened it and no later line closed it (`exists_opening_of_mode`); this line and all behind
it are lost, and nothing else is (`NeverCloses.readSource_append`). -/

namespace Uncomment

open Text

namespace Comment

variable {rules : Rules}

/-! ### What is open, in two variables -/

/-- The quote of an open docstring and the quote of an open literal, each on its own. -/
structure Openings where
  docstring? : Option Text := none
  literal? : Option Text := none
  deriving DecidableEq, Repr

/-- What is open behind a line. A variable that a line does not touch keeps its value. -/
def Openings.after (rules : Rules) (s : Openings) (line : Text) : Openings :=
  match s.literal?, s.docstring? with
  | some q, _ => if Text.occurs q line then { s with literal? := none } else s
  | none, some q => if q.isSuffixOf line.trim then { s with docstring? := none } else s
  | none, none =>
    match docQuote? rules line.trim with
    | some q => if closesAtOnce rules line.trim then s else { s with docstring? := some q }
    | none =>
      match (Fate.code (splitLine rules line)).kept? with
      | some left => { s with literal? := unclosed? rules left }
      | none => s

/-- What is open behind some lines. -/
def openingsBehind (rules : Rules) (ls : List Text) : Openings := ls.foldl (Openings.after rules) {}

/-- The warnings about what is open at the end of a source. -/
def Openings.warnings (s : Openings) : List Event :=
  (s.literal?.map fun _ => Event.openLiteral).toList ++
    (s.docstring?.map fun _ => Event.openDocstring).toList

/-- What is open in a mode, in two variables. -/
def Mode.openings : Mode → Openings
  | .code => {}
  | .docstring q => { docstring? := some q }
  | .literal q => { literal? := some q }

theorem Mode.openings_ofCode (code : Text) :
    (Mode.ofCode rules code).openings = { literal? := unclosed? rules code } := by
  rw [Mode.ofCode]
  cases unclosed? rules code <;> rfl

theorem Mode.openings_after (m : Mode) (l : Text) :
    (m.after rules l).openings = m.openings.after rules l := by
  cases m with
  | literal q | docstring q => exact apply_ite Mode.openings ..
  | code =>
    change _ = Openings.after rules {} l
    simp only [Mode.after, Openings.after]
    cases docQuote? rules l.trim with
    | some q => exact apply_ite Mode.openings ..
    | none =>
      cases (Fate.code (splitLine rules l)).kept? with
      | some left => exact Mode.openings_ofCode left
      | none => rfl

theorem openings_readLines (m : Mode) (ls : List Text) :
    (readLines rules m ls).mode.openings = ls.foldl (Openings.after rules) m.openings := by
  induction ls generalizing m with
  | nil => rfl
  | cons l ls ih =>
    rw [List.foldl_cons, ← Mode.openings_after]
    exact ih (m.after rules l)

theorem openingsBehind_eq (ls : List Text) :
    openingsBehind rules ls = (readLines rules .code ls).mode.openings :=
  (openings_readLines .code ls).symm

theorem Mode.openings_exclusive (m : Mode) :
    m.openings.docstring? = none ∨ m.openings.literal? = none := by
  cases m with
  | code | literal q => exact .inl rfl
  | docstring q => exact .inr rfl

theorem Mode.openings_eq_iff {m : Mode} : m.openings = {} ↔ m = .code := by
  cases m <;> simp [Mode.openings]

theorem Mode.warnings_openings (m : Mode) : m.openings.warnings = m.warnings := by
  cases m <;> rfl

/-! ### The line that opened a docstring -/

theorem Mode.ofCode_ne_docstring {code q : Text} : Mode.ofCode rules code ≠ .docstring q := by
  rw [Mode.ofCode]
  split <;> simp

theorem Mode.after_eq_docstring_iff {m : Mode} {l q : Text} :
    m.after rules l = .docstring q ↔
      m = .docstring q ∧ ¬ q <:+ l.trim ∨
        m = .code ∧ docQuote? rules l.trim = some q ∧ closesAtOnce rules l.trim = false := by
  cases m with
  | literal p =>
    rw [Mode.after]
    split <;> simp
  | docstring p =>
    simp only [Mode.after, ← List.isSuffixOf_iff_suffix]
    split
    · next h =>
      refine iff_of_false (by simp) ?_
      rintro (⟨hp, hq⟩ | ⟨hp, -⟩)
      · cases hp
        exact hq h
      · cases hp
    · next h =>
      constructor
      · intro hp
        cases hp
        exact .inl ⟨rfl, h⟩
      · rintro (⟨hp, -⟩ | ⟨hp, -⟩)
        · exact hp
        · cases hp
  | code =>
    rw [Mode.after]
    cases docQuote? rules l.trim with
    | some p => cases closesAtOnce rules l.trim <;> simp
    | none =>
      refine iff_of_false ?_ (by simp)
      dsimp only
      split
      · exact Mode.ofCode_ne_docstring
      · simp

/-- Lines that end in a docstring: it was open from the start, or one of the lines opened it. No
line behind closed it. -/
theorem exists_opening_of_mode {m : Mode} {ls : List Text} {q : Text}
    (h : (readLines rules m ls).mode = .docstring q) :
    (m = .docstring q ∧ ∀ x ∈ ls, ¬ q <:+ x.trim) ∨
      ∃ as l bs, ls = as ++ l :: bs ∧ (readLines rules m as).mode = .code ∧
        docQuote? rules l.trim = some q ∧ closesAtOnce rules l.trim = false ∧
        ∀ x ∈ bs, ¬ q <:+ x.trim := by
  induction ls generalizing m with
  | nil => exact .inl ⟨h, nofun⟩
  | cons l ls ih =>
    rcases ih h with ⟨hafter, hls⟩ | ⟨as, k, bs, rfl, has, hopen⟩
    · rcases Mode.after_eq_docstring_iff.1 hafter with ⟨rfl, hl⟩ | ⟨rfl, hquote, hclose⟩
      · exact .inl ⟨rfl, List.forall_mem_cons.2 ⟨hl, hls⟩⟩
      · exact .inr ⟨[], l, ls, rfl, rfl, hquote, hclose, hls⟩
    · exact .inr ⟨l :: as, k, bs, rfl, has, hopen⟩

end Comment

open Comment

/-! ### The warning -/

/-- Nothing is open behind the whole lines `a`, and the first line of `rest` opens a docstring that
neither it nor a later line closes. -/
structure NeverCloses (a rest : Text) : Prop where
  wholeLines : WholeLines a
  openings : openingsBehind .hashes (lines a) = {}
  opens : ∃ q l ls, lines rest = l :: ls ∧ q ∈ Rules.hashes.docQuotes ∧ q <+: l.trim ∧
    closesAtOnce .hashes l.trim = false ∧ ∀ x ∈ ls, ¬ q <:+ x.trim

theorem NeverCloses.readSource_append {a rest : Text} (h : NeverCloses a rest) :
    ∃ q, readSource .hashes (a ++ rest) =
      (readSource .hashes a).append (Reading.docstring (.docstring q)) := by
  obtain ⟨q, l, ls, hrest, hq, hl, hclose, hls⟩ := h.opens
  have hmode : (readLines .hashes .code (lines a)).mode = .code := by
    have hopenings := h.openings
    rwa [openingsBehind_eq, Mode.openings_eq_iff] at hopenings
  have hquote : docQuote? .hashes l.trim = some q := docQuote?_eq_some (length_docQuotes hq) hq hl
  have hafter : Mode.code.after .hashes l = .docstring q :=
    Mode.after_eq_docstring_iff.2 (.inr ⟨rfl, hquote, hclose⟩)
  refine ⟨q, ?_⟩
  change readLines .hashes .code (lines (a ++ rest)) = _
  rw [lines_append h.wholeLines, hrest, readLines_append, hmode, readLines_of_docQuote? hquote,
    hafter, readLines_docstring_of_open hls]
  rfl

theorem exists_neverCloses {t q : Text} (h : (readSource .hashes t).mode = .docstring q) :
    ∃ a rest, t = a ++ rest ∧ NeverCloses a rest := by
  have hmode : (readLines .hashes .code (lines t)).mode = .docstring q := h
  rcases exists_opening_of_mode hmode with
    ⟨hcode, -⟩ | ⟨as, l, bs, ht, has, hquote, hclose, hbs⟩
  · cases hcode
  · obtain ⟨a, rest, rfl, ha, rfl, hrest⟩ := exists_append_of_lines_eq ht (by simp)
    obtain ⟨hq, hl⟩ := mem_of_docQuote?_eq_some hquote
    have hopenings : openingsBehind .hashes (lines a) = {} := by
      rw [openingsBehind_eq, has]
      rfl
    exact ⟨a, rest, rfl, ha, hopenings, q, l, bs, hrest, hq, hl, hclose, hbs⟩

theorem events_strip (l : Language) (t : Text) :
    (strip l t).events =
      (readSource l.rules t).mode.warnings ++ [.stripped l (strip l t).stats] := by
  simp only [strip]

theorem message_stripped_ne (l : Language) (s : Stats) :
    (Event.stripped l s).message ≠ Event.openDocstring.message := by
  -- the two differ in their first character, whatever the counters are
  intro h
  have hhead : (Event.stripped l s).message.toList.head? = some 'S' := by
    delta Event.message
    simp only [String.toList_append]
    rfl
  rw [h] at hhead
  exact absurd hhead (by decide)

/-- The wording of the warning is in the log only if a docstring is open. -/
theorem message_openDocstring_mem_iff {l : Language} {t : Text} :
    Event.openDocstring.message ∈ (strip l t).events.map Event.message ↔
      ∃ q, (readSource l.rules t).mode = .docstring q := by
  have hne := message_stripped_ne l (strip l t).stats
  have hliteral : Event.openLiteral.message ≠ Event.openDocstring.message := by decide
  rw [events_strip]
  cases (readSource l.rules t).mode with
  | code => simp [Mode.warnings, hne.symm]
  | literal q => simp [Mode.warnings, hne.symm, hliteral.symm]
  | docstring q => simp [Mode.warnings]

theorem countP_warn_le (l : Language) (t : Text) :
    (strip l t).events.countP (·.level = .warn) ≤ 1 := by
  rw [events_strip]
  cases (readSource l.rules t).mode with
  | code => exact Nat.zero_le 1
  | literal q | docstring q => exact Nat.le_refl 1

/-- **The warning about an open docstring is exact.** At no line are a docstring and a literal both
open, so there is one warning at most. There is one about a docstring exactly when the text divides
into whole lines with nothing open behind them and a rest that opens a docstring and never closes
it; and then the result is that of the lines before, with one docstring more. -/
theorem openDocstring_iff (t : Text) :
    (∀ as bs, lines t = as ++ bs →
      openingsBehind .hashes as = (readLines .hashes .code as).mode.openings ∧
      ((openingsBehind .hashes as).docstring? = none ∨
        (openingsBehind .hashes as).literal? = none)) ∧
    (strip .python t).events =
      (openingsBehind .hashes (lines t)).warnings ++ [.stripped .python (strip .python t).stats] ∧
    (strip .python t).events.countP (·.level = .warn) ≤ 1 ∧
    ("Unterminated docstring, dropped everything after it" ∈
        (strip .python t).events.map Event.message ↔
      ∃ a rest, t = a ++ rest ∧ NeverCloses a rest) ∧
    ∀ a rest, t = a ++ rest → NeverCloses a rest →
      (strip .python t).text = (strip .python a).text ∧
      (strip .python t).stats.docstrings = (strip .python a).stats.docstrings + 1 := by
  refine ⟨?_, ?_, countP_warn_le .python t, ?_, ?_⟩
  · intro as bs _
    rw [openingsBehind_eq]
    exact ⟨rfl, Mode.openings_exclusive _⟩
  · rw [events_strip, openingsBehind_eq, Mode.warnings_openings]
    rfl
  · refine message_openDocstring_mem_iff.trans ⟨?_, ?_⟩
    · rintro ⟨q, hq⟩
      exact exists_neverCloses hq
    · rintro ⟨a, rest, rfl, h⟩
      obtain ⟨q, hread⟩ := h.readSource_append
      exact ⟨q, congrArg Reading.mode hread⟩
  · rintro a rest rfl h
    obtain ⟨q, hread⟩ := h.readSource_append
    rw [text_strip, text_strip]
    simp only [strip, Language.rules, hread]
    simp [Reading.append, Reading.docstring]

/-- The other quote does not close the docstring, and the line behind it is lost too. -/
theorem openDocstring_iff_other_quote :
    let a : Text := ['x', '\n']
    let rest : Text := "'''d\n\"\"\"\ny".toList
    NeverCloses a rest ∧
      "Unterminated docstring, dropped everything after it" ∈
        (strip .python (a ++ rest)).events.map Event.message ∧
      (strip .python (a ++ rest)).text = (strip .python a).text ∧
      (strip .python (a ++ rest)).stats.docstrings = (strip .python a).stats.docstrings + 1 := by
  intro a rest
  have h : NeverCloses a rest :=
    ⟨by decide, by decide, ['\'', '\'', '\''], ['\'', '\'', '\'', 'd'], [['"', '"', '"'], ['y']],
      by decide, by decide, by decide, by decide, by decide⟩
  obtain ⟨-, -, -, hiff, hresult⟩ := openDocstring_iff (a ++ rest)
  exact ⟨h, hiff.2 ⟨a, rest, rfl, h⟩, hresult a rest rfl h⟩

end Uncomment
