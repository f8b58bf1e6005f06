import Uncomment.Proofs.Layout
import Uncomment.Proofs.Strip.Basic

/-! # One line of a source

What becomes of the parts of a line of code that is not part of a block, a docstring or a longer
literal.

A closed literal on it comes out of stripping as it went in (`literal_isInfix_strip`), whatever its
body holds: the reader of the line passes over the literal (`splitLine_around_literal`), so that the
line is kept up to the end of the literal at least; and laying out takes nothing from within a line.

What stands behind the marker of a line comment has no part in the result as far as the line reader
goes. But blocks are removed before lines are read, and the block remover does not know of line
comments: a block that opens in a comment takes what follows with it
(`not_forall_strip_text_eq_of_body`). So the body is without influence only on a line that is still
cut at the same place once its blocks are gone, and that leaves no block open to be closed further
down (`strip_text_eq_of_body`).

Where there are no blocks and the marker is one character, nothing else is needed: a quote in a
comment opens neither a docstring nor a literal, and the whole outcome is the same
(`strip_eq_of_body`). -/

namespace Uncomment

open Text Comment Layout

/-! ### Literals -/

/-- The code of a line reaches behind a literal that starts in code. -/
theorem splitLine_around_literal {rules : Rules} (hr : rules.WellSpelled) {p body : Text} {d : Char}
    (hp : (splitLine rules p).commented = false) (hplace : Place.code.through rules p = .code)
    (hd : d ∈ rules.delimiters) (hbody : LiteralBody d body) (s : Text) :
    ∃ z, (splitLine rules (p ++ d :: (body ++ d :: s))).code = p ++ d :: (body ++ d :: z) := by
  have hseam : ∀ c ∈ (d :: (body ++ d :: s)).head?, c ∉ rules.marker := by
    simpa using (hr.delimiters d hd).2.2
  refine ⟨(splitLine rules s).code, ?_⟩
  rw [splitLine, splitFrom_append hseam hp, hplace]
  exact congrArg (p ++ Split.code ·) (splitLine_literal hd (hr.delimiters d hd).2.1 hbody s)

/-- What is kept of a line of code reaches behind a literal in it. -/
theorem kept?_around_literal {rules : Rules} (hr : rules.WellSpelled) {p body s : Text} {d : Char}
    (hquote : ∀ q ∈ rules.docQuotes, ¬ q <+: (p ++ d :: (body ++ d :: s)).trim)
    (hp : (splitLine rules p).commented = false) (hplace : Place.code.through rules p = .code)
    (hd : d ∈ rules.delimiters) (hbody : LiteralBody d body) :
    ∃ z, (Mode.code.read rules (dropReturn (p ++ d :: (body ++ d :: s)))).kept? =
      some (p ++ d :: (body ++ d :: z)) := by
  obtain ⟨hblank, -, -⟩ := hr.delimiters d hd
  have hdrop : dropReturn (p ++ d :: (body ++ d :: s)) =
      p ++ d :: (body ++ d :: dropReturn s) := by
    have h := dropReturn_append_cons (ne_of_not_blank hblank rfl) (p ++ d :: body) s
    simpa using h
  obtain ⟨z, hz⟩ := splitLine_around_literal hr hp hplace hd hbody (dropReturn s)
  refine ⟨z, kept?_code_eq_some_iff.2 ⟨?_, ?_, ?_⟩⟩
  · rw [trim_dropReturn]
    exact docQuote?_eq_none_iff.2 hquote
  · rw [hdrop, hz]
  · simp [hblank]

/-- **Literals survive.** On a line that starts in code and in no block, a closed literal that
starts in code is a part of the result. -/
theorem literal_isInfix_strip {l : Language} {a b line p lit s body : Text} {d : Char}
    (ha : WholeLines a) (hclosed : Closed l.rules a) (hnl : '\n' ∉ line)
    (hblock : ∀ o c, l.rules.block? = some (o, c) → ¬ o <:+: line)
    (hquote : ∀ q ∈ l.rules.docQuotes, ¬ q <+: line.trim)
    (hline : line = p ++ lit ++ s)
    (hp : (splitLine l.rules p).commented = false) (hplace : Place.code.through l.rules p = .code)
    (hd : d ∈ l.rules.delimiters) (hbody : LiteralBody d body) (hlit : lit = d :: (body ++ [d])) :
    lit <:+: (strip l (a ++ line ++ '\n' :: b)).text := by
  have hr := l.rules_wellSpelled
  obtain ⟨hblank, -, -⟩ := hr.delimiters d hd
  have hline' : line = p ++ d :: (body ++ d :: s) := by simp [hline, hlit]
  obtain ⟨z, hz⟩ := kept?_around_literal hr (hline' ▸ hquote) hp hplace hd hbody
  -- the line has no block, so it is read after the lines of `a` as it stands
  have hmem : p ++ d :: (body ++ d :: z) ∈ (readSource l.rules (a ++ line ++ '\n' :: b)).kept := by
    have hopen : ∀ o c, l.rules.block? = some (o, c) →
        ¬ o <:+: behindBlocks o c line ∨ ¬ c <:+: b := fun o c hb =>
      .inl (not_isInfix_behindBlocks (hr.block? (o, c) hb).1 (hblock o c hb))
    rw [readSource_append_line hr ha hclosed hnl hopen, withoutBlocks_of_not_isInfix hr hblock,
      readLines, Reading.cons, hline', hz]
    simp [Reading.append]
  -- laying out keeps what stands between two characters of one line that are not blank
  have hbody' : '\n' ∉ body := fun h => hnl (by simp [hline', h])
  rw [text_strip, hlit]
  refine isInfix_finish hblank hblank hbody' (List.IsInfix.trans ?_ (isInfix_unlines hmem))
  exact ⟨p, z, by simp⟩

/-- A marker and an escaped delimiter in a literal, with a block before its line and one behind. -/
theorem literal_isInfix_strip_escaped :
    let a : Text := "/**/\n".toList
    let line : Text := "u=\"//\\\"\";//a".toList
    let body : Text := "//\\\"".toList
    Closed Rules.slashes a ∧ LiteralBody '"' body ∧
      "\"//\\\"\"".toList <:+: (strip .javascript (a ++ line ++ '\n' :: "/**/".toList)).text := by
  intro a line body
  have hclosed : Closed Rules.slashes a := by
    refine ⟨fun o c hb => ?_, nofun⟩
    cases hb
    decide
  have hbody : LiteralBody '"' body :=
    .char (by decide) (by decide) (.char (by decide) (by decide) (.pair '"' .nil))
  have hline : line = "u=".toList ++ "\"//\\\"\"".toList ++ ";//a".toList := by decide
  have hopen : ∀ o c, Rules.slashes.block? = some (o, c) → ¬ o <:+: line := by
    intro o c hb
    cases hb
    decide +kernel
  exact ⟨hclosed, hbody, literal_isInfix_strip (l := .javascript) (by decide) hclosed (by decide)
    hopen nofun hline (by decide) (by decide) (by decide) hbody (by decide)⟩

/-! ### The body of a comment -/

variable {rules : Rules}

/-- A carriage return at the end of a commented line belongs to the comment. -/
theorem splitLine_dropReturn (hr : rules.WellSpelled) {x code : Text}
    (h : splitLine rules x = ⟨code, true⟩) : splitLine rules (dropReturn x) = ⟨code, true⟩ := by
  rw [splitLine_eq_dropReturn hr x] at h
  split at h
  · exact h
  · cases h

theorem docQuotes_eq_nil_of_block? {l : Language} {b : Text × Text} (h : l.rules.block? = some b) :
    l.rules.docQuotes = [] := by
  refine Language.docQuotes_eq_nil ?_
  rintro rfl
  cases h

theorem closed_of_block? {l : Language} {o c a : Text} (hl : l.rules.block? = some (o, c))
    (hgap : ¬ o <:+: behindBlocks o c a) : Closed l.rules a := by
  refine ⟨fun o' c' hb => ?_, fun hq => absurd (docQuotes_eq_nil_of_block? hl) hq⟩
  cases hl.symm.trans hb
  exact hgap

/-- The kept lines of a text with a commented line: the comment leaves the code before it. -/
theorem kept_readSource_of_comment {l : Language} {o c a x y code : Text}
    (hl : l.rules.block? = some (o, c)) (ha : WholeLines a) (hgap : ¬ o <:+: behindBlocks o c a)
    (hx : '\n' ∉ x) (hopen : ¬ o <:+: behindBlocks o c x ∨ ¬ c <:+: y)
    (hsplit : splitLine l.rules (removeBlocks o c x) = ⟨code, true⟩) :
    (readSource l.rules (a ++ x ++ '\n' :: y)).kept =
      (readSource l.rules a).kept ++
        ((Fate.code ⟨code, true⟩).kept?.toList ++ (readSource l.rules y).kept) := by
  have hr := l.rules_wellSpelled
  have hq := docQuotes_eq_nil_of_block? hl
  have hopen' : ∀ o' c', l.rules.block? = some (o', c') →
      ¬ o' <:+: behindBlocks o' c' x ∨ ¬ c' <:+: y := by
    intro o' c' hb
    cases hl.symm.trans hb
    exact hopen
  have hread : Mode.code.read l.rules (dropReturn (removeBlocks o c x)) = .code ⟨code, true⟩ := by
    rw [Mode.read, docQuote?, hq, splitLine_dropReturn hr hsplit]
    rfl
  rw [readSource_append_line hr ha (closed_of_block? hl hgap) hx hopen',
    withoutBlocks_of_block? hl x, readLines, hread, Mode.after_of_docQuotes_eq_nil hq]
  rfl

/-- **The body of a line comment** has no influence on the result, on a line that is cut before the
marker when its own blocks are gone and on which no block is open that the rest of the text
closes. -/
theorem strip_text_eq_of_body {l : Language} {o c a b code u v : Text}
    (hl : l.rules.block? = some (o, c)) (ha : WholeLines a) (hgap : ¬ o <:+: behindBlocks o c a)
    (hcode : '\n' ∉ code) (hu : '\n' ∉ u) (hv : '\n' ∉ v)
    (hu₁ : splitLine l.rules (removeBlocks o c (code ++ l.rules.marker ++ u)) = ⟨code, true⟩)
    (hv₁ : splitLine l.rules (removeBlocks o c (code ++ l.rules.marker ++ v)) = ⟨code, true⟩)
    (hu₂ : ¬ o <:+: behindBlocks o c (code ++ l.rules.marker ++ u) ∨ ¬ c <:+: b)
    (hv₂ : ¬ o <:+: behindBlocks o c (code ++ l.rules.marker ++ v) ∨ ¬ c <:+: b) :
    (strip l (a ++ (code ++ l.rules.marker ++ u) ++ '\n' :: b)).text =
      (strip l (a ++ (code ++ l.rules.marker ++ v) ++ '\n' :: b)).text := by
  have hnl : ∀ {w : Text}, '\n' ∉ w → '\n' ∉ code ++ l.rules.marker ++ w := by
    intro w hw
    simp only [List.mem_append, not_or]
    exact ⟨⟨hcode, l.rules_wellSpelled.marker.newline_notMem⟩, hw⟩
  -- either way the kept lines are those of `a`, the code of the line, and those of `b`
  have hleft := kept_readSource_of_comment hl ha hgap (hnl hu) hu₂ hu₁
  have hright := kept_readSource_of_comment hl ha hgap (hnl hv) hv₂ hv₁
  rw [text_strip, text_strip, hleft, hright]

/-- A block that is closed within the comment, and one that nothing closes. -/
theorem strip_text_eq_of_body_blocks :
    (strip .javascript ([] ++ (['x', ' '] ++ Rules.slashes.marker ++ " /**/".toList) ++
        '\n' :: ['y', '/', '*'])).text =
      (strip .javascript ([] ++ (['x', ' '] ++ Rules.slashes.marker ++ [' ', '/', '*']) ++
        '\n' :: ['y', '/', '*'])).text :=
  strip_text_eq_of_body (l := .javascript) rfl (by decide) (by decide) (by decide) (by decide)
    (by decide) (by decide) (by decide) (by decide) (by decide)

/-- It is not enough that the line as it stands is cut before the marker: in
`x // /*`, `y`, `/**/` the comment takes the second line with it. -/
theorem not_forall_strip_text_eq_of_body :
    ¬ ∀ (l : Language) (o c a b code u v : Text), l.rules.block? = some (o, c) → WholeLines a →
      ¬ o <:+: behindBlocks o c a → '\n' ∉ code → '\n' ∉ u → '\n' ∉ v →
      splitLine l.rules (code ++ l.rules.marker ++ u) = ⟨code, true⟩ →
      splitLine l.rules (code ++ l.rules.marker ++ v) = ⟨code, true⟩ → ¬ o <:+: code →
      (strip l (a ++ (code ++ l.rules.marker ++ u) ++ '\n' :: b)).text =
        (strip l (a ++ (code ++ l.rules.marker ++ v) ++ '\n' :: b)).text := by
  intro h
  have heq := h .javascript ['/', '*'] ['*', '/'] [] "y\n/**/".toList ['x', ' '] []
    [' ', '/', '*'] rfl (by decide) (by decide) (by decide) (by decide) (by decide) (by decide)
    (by decide) (by decide)
  revert heq
  decide

/-! ### A language without blocks -/

/-- A commented line behind closed whole lines is read by its code alone. -/
theorem readSource_congr_line (hr : rules.WellSpelled) (hblock : rules.block? = none)
    {a x y code : Text} (ha : WholeLines a) (hclosed : Closed rules a) (hx : '\n' ∉ x)
    (hy : '\n' ∉ y) (hx₁ : docQuote? rules x.trim = none) (hy₁ : docQuote? rules y.trim = none)
    (hx₂ : splitLine rules x = ⟨code, true⟩) (hy₂ : splitLine rules y = ⟨code, true⟩) (b : Text) :
    readSource rules (a ++ x ++ '\n' :: b) = readSource rules (a ++ y ++ '\n' :: b) := by
  have hopen : ∀ {z : Text} (o c : Text), rules.block? = some (o, c) →
      ¬ o <:+: behindBlocks o c z ∨ ¬ c <:+: b := by
    intro z o c hb
    cases hblock.symm.trans hb
  rw [readSource_append_line hr ha hclosed hx hopen, readSource_append_line hr ha hclosed hy hopen,
    withoutBlocks_of_none hblock x, withoutBlocks_of_none hblock y]
  congr 1
  -- a carriage return at the end of the line belongs to the comment
  apply readLines_congr
  · rw [trim_dropReturn, hx₁]
  · rw [trim_dropReturn, hy₁]
  · rw [splitLine_dropReturn hr hx₂, splitLine_dropReturn hr hy₂]

theorem length_lines_line {a x : Text} (ha : WholeLines a) (hx : '\n' ∉ x) (b : Text) :
    (lines (a ++ x ++ '\n' :: b)).length = (lines a).length + ((lines b).length + 1) := by
  rw [List.append_assoc, lines_append ha, lines_line hx, List.length_append, List.length_cons]

/-- **The body of a comment** that a number sign starts has no influence: text, counters and events
stay the same whatever stands behind the marker. -/
theorem strip_eq_of_body {a b code u v : Text} (ha : WholeLines a)
    (hmode : (readSource .hashes a).mode = .code) (hcode : '\n' ∉ code) (hu : '\n' ∉ u)
    (hv : '\n' ∉ v) (hquote : ∀ q ∈ Rules.hashes.docQuotes, ¬ q <+: code.trim)
    (hsplit : splitLine .hashes (code ++ '#' :: u) = ⟨code, true⟩) :
    splitLine .hashes (code ++ '#' :: v) = ⟨code, true⟩ ∧
      strip .python (a ++ (code ++ '#' :: u) ++ '\n' :: b) =
        strip .python (a ++ (code ++ '#' :: v) ++ '\n' :: b) := by
  have hsplit' : splitLine .hashes (code ++ '#' :: v) = ⟨code, true⟩ :=
    splitFrom_append_marker rfl rfl hsplit v
  refine ⟨hsplit', ?_⟩
  have hnl : ∀ {w : Text}, '\n' ∉ w → '\n' ∉ code ++ '#' :: w := by
    intro w hw
    simp only [List.mem_append, List.mem_cons, not_or]
    exact ⟨hcode, by decide, hw⟩
  have hr : Rules.hashes.WellSpelled := Language.python.rules_wellSpelled
  have hnone : ∀ w, docQuote? .hashes (code ++ '#' :: w).trim = none :=
    docQuote?_append_cons hr rfl (by decide) hquote
  have hread := readSource_congr_line hr rfl ha ⟨nofun, fun _ => hmode⟩ (hnl hu) (hnl hv) (hnone u)
    (hnone v) hsplit hsplit' b
  have hlines : (lines (a ++ (code ++ '#' :: u) ++ '\n' :: b)).length =
      (lines (a ++ (code ++ '#' :: v) ++ '\n' :: b)).length := by
    rw [length_lines_line ha (hnl hu), length_lines_line ha (hnl hv)]
  have hblocks : ∀ t, blockCount .hashes t = 0 := fun _ => rfl
  simp only [strip, Language.rules, hread, hlines, hblocks]

/-- A triple quote and a carriage return in a comment behind a docstring. -/
theorem strip_eq_of_body_quote :
    let a : Text := "'''d'''\n".toList
    let b : Text := "y # z\n".toList
    (readSource .hashes a).mode = .code ∧
      strip .python (a ++ (['x', ' '] ++ '#' :: "'''\r".toList) ++ '\n' :: b) =
        strip .python (a ++ (['x', ' '] ++ '#' :: []) ++ '\n' :: b) := by
  intro a b
  have hmode : (readSource .hashes a).mode = .code := by decide
  exact ⟨hmode, (strip_eq_of_body (by decide) hmode (by decide) (by decide) (by decide) (by decide)
    (by decide)).2⟩

end Uncomment
