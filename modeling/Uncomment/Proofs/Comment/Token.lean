import Mathlib.Logic.ExistsUnique
import Uncomment.Proofs.Comment.Line

/-! # The tokens of a line

A line is a list of tokens: characters by themselves, closed literals, and at the end possibly a
literal that the line does not close. What a token is depends on the delimiters only, and every text
has exactly one list of tokens (`exists_tokenised`, `Tokenised.unique`): the character at the start
of a token tells which kind it is, and a literal ends with the first delimiter that no backslash
stands before.

The reader of lines finds the first token at which a comment starts (`Tokenised.cutAtFirst`). It
goes through a text character by character and has no tokens; they show where it is in code. All of
this holds for any rules, also where the marker is empty, starts with a delimiter, or where the
backslash is itself a delimiter. -/

namespace Uncomment.Comment

open Text

variable {rules : Rules} {ds : List Char}

/-- A token of a line. -/
inductive Token
  | char (c : Char)
  /-- A literal between two copies of its delimiter. -/
  | literal (d : Char) (body : Text)
  /-- A literal that is open at the end of the line. -/
  | unclosed (d : Char) (body : Text)
  deriving DecidableEq, Repr

/-- The characters of a token. -/
def Token.text : Token → Text
  | .char c => [c]
  | .literal d body => d :: (body ++ [d])
  | .unclosed d body => d :: body

/-- What may stand behind a delimiter `d` up to the end of the line: the body of a literal, with
possibly one backslash more. -/
inductive OpenBody (d : Char) : Text → Prop
  | nil : OpenBody d []
  | backslash : OpenBody d ['\\']
  | char {c : Char} {t : Text} : c ≠ d → c ≠ '\\' → OpenBody d t → OpenBody d (c :: t)
  | pair (c : Char) {t : Text} : OpenBody d t → OpenBody d ('\\' :: c :: t)

/-- Tokens with the given delimiters. A character by itself is no delimiter, and only the last
literal may be open. A backslash can open a literal but not close it. -/
def Tokenised (ds : List Char) : List Token → Prop
  | [] => True
  | .char c :: ts => c ∉ ds ∧ Tokenised ds ts
  | .literal d body :: ts => d ∈ ds ∧ d ≠ '\\' ∧ LiteralBody d body ∧ Tokenised ds ts
  | .unclosed d body :: ts => d ∈ ds ∧ OpenBody d body ∧ ts = []

/-- The text that tokens spell. -/
def spelled (ts : List Token) : Text := ts.flatMap Token.text

@[simp] theorem spelled_nil : spelled [] = [] := rfl

theorem spelled_cons (k : Token) (ts : List Token) :
    spelled (k :: ts) = k.text ++ spelled ts := rfl

@[simp] theorem spelled_char (c : Char) (ts : List Token) :
    spelled (.char c :: ts) = c :: spelled ts := rfl

@[simp] theorem spelled_literal (d : Char) (body : Text) (ts : List Token) :
    spelled (.literal d body :: ts) = d :: (body ++ d :: spelled ts) := by
  simp [spelled_cons, Token.text]

@[simp] theorem spelled_unclosed (d : Char) (body : Text) :
    spelled [.unclosed d body] = d :: body := by
  simp [spelled_cons, Token.text]

/-! ### Every text has tokens -/

/-- Behind a delimiter the text closes the literal, or the literal is open at its end. -/
theorem exists_literalBody_or_openBody (d : Char) (t : Text) :
    (d ≠ '\\' ∧ ∃ body r, LiteralBody d body ∧ t = body ++ d :: r) ∨ OpenBody d t := by
  induction hn : t.length using Nat.strongRecOn generalizing t with
  | ind n ih =>
    cases t with
    | nil => exact .inr .nil
    | cons c t =>
      rw [List.length_cons] at hn
      by_cases hc : c = '\\'
      · subst hc
        cases t with
        | nil => exact .inr .backslash
        | cons c t =>
          rw [List.length_cons] at hn
          rcases ih t.length (by omega) t rfl with ⟨hd, body, r, hbody, rfl⟩ | h
          · exact .inl ⟨hd, '\\' :: c :: body, r, hbody.pair c, rfl⟩
          · exact .inr (h.pair c)
      · by_cases hd : c = d
        · subst hd
          exact .inl ⟨hc, [], t, .nil, rfl⟩
        · rcases ih t.length (by omega) t rfl with ⟨hd', body, r, hbody, rfl⟩ | h
          · exact .inl ⟨hd', c :: body, r, hbody.char hd hc, rfl⟩
          · exact .inr (h.char hd hc)

theorem exists_tokenised (ds : List Char) (t : Text) : ∃ ts, Tokenised ds ts ∧ spelled ts = t := by
  induction hn : t.length using Nat.strongRecOn generalizing t with
  | ind n ih =>
    cases t with
    | nil => exact ⟨[], trivial, rfl⟩
    | cons c t =>
      rw [List.length_cons] at hn
      by_cases hc : c ∈ ds
      · rcases exists_literalBody_or_openBody c t with ⟨hd, body, r, hbody, rfl⟩ | h
        · rw [List.length_append, List.length_cons] at hn
          obtain ⟨ts, hts, rfl⟩ := ih r.length (by omega) r rfl
          exact ⟨.literal c body :: ts, ⟨hc, hd, hbody, hts⟩, by simp⟩
        · exact ⟨[.unclosed c t], ⟨hc, h, rfl⟩, by simp⟩
      · obtain ⟨ts, hts, rfl⟩ := ih t.length (by omega) t rfl
        exact ⟨.char c :: ts, ⟨hc, hts⟩, rfl⟩

/-! ### No text has two lists of tokens -/

theorem LiteralBody.append_inj {d : Char} (hd : d ≠ '\\') {b b' r r' : Text}
    (hb : LiteralBody d b) (hb' : LiteralBody d b') (h : b ++ d :: r = b' ++ d :: r') :
    b = b' ∧ r = r' := by
  induction hb generalizing b' with
  | nil =>
    cases hb' with
    | nil => exact ⟨rfl, (List.cons.inj h).2⟩
    | char hne _ _ => exact absurd (List.cons.inj h).1.symm hne
    | pair c _ => exact absurd (List.cons.inj h).1 hd
  | char hne hback _ ih =>
    cases hb' with
    | nil => exact absurd (List.cons.inj h).1 hne
    | pair c _ => exact absurd (List.cons.inj h).1 hback
    | char _ _ hb' =>
      obtain ⟨rfl, ht⟩ := List.cons.inj h
      obtain ⟨rfl, rfl⟩ := ih hb' ht
      exact ⟨rfl, rfl⟩
  | pair c _ ih =>
    cases hb' with
    | nil => exact absurd (List.cons.inj h).1.symm hd
    | char _ hback _ => exact absurd (List.cons.inj h).1.symm hback
    | pair c' hb' =>
      obtain ⟨rfl, ht⟩ := List.cons.inj (List.cons.inj h).2
      obtain ⟨rfl, rfl⟩ := ih hb' ht
      exact ⟨rfl, rfl⟩

theorem openBody_cons_iff {d c : Char} (hc : c ≠ '\\') {t : Text} :
    OpenBody d (c :: t) ↔ c ≠ d ∧ OpenBody d t := by
  refine ⟨fun h => ?_, fun h => h.2.char h.1 hc⟩
  cases h with
  | backslash | pair => exact absurd rfl hc
  | char hne _ h => exact ⟨hne, h⟩

theorem openBody_pair_iff {d c : Char} {t : Text} :
    OpenBody d ('\\' :: c :: t) ↔ OpenBody d t := by
  refine ⟨fun h => ?_, fun h => h.pair c⟩
  cases h with
  | char _ hback _ => exact absurd rfl hback
  | pair _ h => exact h

/-- A literal that is closed is not open at the end of the line. -/
theorem LiteralBody.not_openBody {d : Char} (hd : d ≠ '\\') {b : Text} (hb : LiteralBody d b)
    (r : Text) : ¬ OpenBody d (b ++ d :: r) := by
  induction hb with
  | nil =>
    rw [List.nil_append, openBody_cons_iff hd]
    exact fun h => h.1 rfl
  | char _ hback _ ih =>
    rw [List.cons_append, openBody_cons_iff hback]
    exact fun h => ih h.2
  | pair c _ ih =>
    rw [List.cons_append, List.cons_append, openBody_pair_iff]
    exact ih

theorem Tokenised.tail {k : Token} {ts : List Token} (h : Tokenised ds (k :: ts)) :
    Tokenised ds ts := by
  cases k with
  | char c => exact h.2
  | literal d body => exact h.2.2.2
  | unclosed d body =>
    rw [h.2.2]
    trivial

/-- The first character of a text tells its first token. -/
theorem Tokenised.cons_inj {k k' : Token} {ts ts' : List Token} (h : Tokenised ds (k :: ts))
    (h' : Tokenised ds (k' :: ts')) (heq : spelled (k :: ts) = spelled (k' :: ts')) :
    k = k' ∧ spelled ts = spelled ts' := by
  cases k with
  | char c =>
    cases k' with
    | char c' =>
      obtain ⟨rfl, ht⟩ := List.cons.inj heq
      exact ⟨rfl, ht⟩
    | literal d' body' | unclosed d' body' =>
      obtain ⟨rfl, -⟩ := List.cons.inj heq
      exact absurd h'.1 h.1
  | literal d body =>
    obtain ⟨hd, hback, hbody, -⟩ := h
    rw [spelled_literal] at heq
    cases k' with
    | char c' =>
      obtain ⟨rfl, -⟩ := List.cons.inj heq
      exact absurd hd h'.1
    | literal d' body' =>
      rw [spelled_literal] at heq
      obtain ⟨rfl, ht⟩ := List.cons.inj heq
      obtain ⟨rfl, hts⟩ := hbody.append_inj hback h'.2.2.1 ht
      exact ⟨rfl, hts⟩
    | unclosed d' body' =>
      obtain ⟨-, hopen, rfl⟩ := h'
      rw [spelled_unclosed] at heq
      obtain ⟨rfl, rfl⟩ := List.cons.inj heq
      exact absurd hopen (hbody.not_openBody hback _)
  | unclosed d body =>
    obtain ⟨hd, hopen, rfl⟩ := h
    rw [spelled_unclosed] at heq
    cases k' with
    | char c' =>
      obtain ⟨rfl, -⟩ := List.cons.inj heq
      exact absurd hd h'.1
    | literal d' body' =>
      obtain ⟨-, hback, hbody, -⟩ := h'
      rw [spelled_literal] at heq
      obtain ⟨rfl, rfl⟩ := List.cons.inj heq
      exact absurd hopen (hbody.not_openBody hback _)
    | unclosed d' body' =>
      obtain ⟨-, -, rfl⟩ := h'
      rw [spelled_unclosed] at heq
      obtain ⟨rfl, rfl⟩ := List.cons.inj heq
      exact ⟨rfl, rfl⟩

theorem Tokenised.unique {ts ts' : List Token} (h : Tokenised ds ts) (h' : Tokenised ds ts')
    (heq : spelled ts = spelled ts') : ts = ts' := by
  induction ts generalizing ts' with
  | nil =>
    cases ts' with
    | nil => rfl
    | cons k' ts' => cases k' <;> cases heq
  | cons k ts ih =>
    cases ts' with
    | nil => cases k <;> cases heq
    | cons k' ts' =>
      obtain ⟨rfl, ht⟩ := h.cons_inj h' heq
      rw [ih h.tail h'.tail ht]

/-! ### Where the comment starts -/

/-- A character by itself stands at place `i` of the text that the tokens spell, and from there the
text starts with the marker and not with what is excepted. -/
def StartsAt (rules : Rules) (ts : List Token) (i : Nat) : Prop :=
  ∃ before c after, ts = before ++ .char c :: after ∧ (spelled before).length = i ∧
    rules.marker <+: (spelled ts).drop i ∧ ∀ e ∈ rules.except?, ¬ e <+: (spelled ts).drop i

/-- What the text that the tokens spell is cut into: the part before the first place at which a
comment starts, and the whole text if there is no such place. -/
def CutAtFirst (rules : Rules) (ts : List Token) (s : Split) : Prop :=
  (∃ i, StartsAt rules ts i ∧ (∀ j < i, ¬ StartsAt rules ts j) ∧ s = ⟨(spelled ts).take i, true⟩) ∨
    (∀ i, ¬ StartsAt rules ts i) ∧ s = ⟨spelled ts, false⟩

/-- The place of a comment is the first one, or lies behind the first token. -/
theorem startsAt_cons_iff {k : Token} {ts : List Token} {i : Nat} :
    StartsAt rules (k :: ts) i ↔
      (i = 0 ∧ (∃ c, k = .char c) ∧ startsComment rules (spelled (k :: ts)) = true) ∨
        ∃ j, i = k.text.length + j ∧ StartsAt rules ts j := by
  constructor
  · rintro ⟨before, c, after, hts, rfl, hstart⟩
    cases before with
    | nil =>
      obtain ⟨rfl, rfl⟩ := List.cons.inj hts
      exact .inl ⟨rfl, ⟨c, rfl⟩, startsComment_iff.2 hstart⟩
    | cons k' before =>
      obtain ⟨rfl, rfl⟩ := List.cons.inj hts
      refine .inr ⟨(spelled before).length, ?_, before, c, after, rfl, rfl, ?_⟩
      · rw [spelled_cons, List.length_append]
      · rwa [spelled_cons, List.length_append, spelled_cons, List.drop_length_add_append] at hstart
  · rintro (⟨rfl, ⟨c, rfl⟩, hstart⟩ | ⟨j, rfl, before, c, after, rfl, rfl, hstart⟩)
    · exact ⟨[], c, ts, rfl, rfl, startsComment_iff.1 hstart⟩
    · refine ⟨k :: before, c, after, rfl, ?_, ?_⟩
      · rw [spelled_cons, List.length_append]
      · rwa [spelled_cons, List.drop_length_add_append]

theorem not_startsAt_nil (i : Nat) : ¬ StartsAt rules [] i := by
  rintro ⟨before, c, after, h, -⟩
  cases before <;> cases h

/-- A token at which no comment starts is passed over. -/
theorem CutAtFirst.cons {k : Token} {ts : List Token} {s : Split} (h : CutAtFirst rules ts s)
    (hk : ∀ c, k = .char c → startsComment rules (spelled (k :: ts)) = false) :
    CutAtFirst rules (k :: ts) ⟨k.text ++ s.code, s.commented⟩ := by
  have hstarts : ∀ i, StartsAt rules (k :: ts) i ↔
      ∃ j, i = k.text.length + j ∧ StartsAt rules ts j := by
    intro i
    rw [startsAt_cons_iff, or_iff_right]
    rintro ⟨-, ⟨c, hc⟩, hstart⟩
    rw [hk c hc] at hstart
    cases hstart
  rcases h with ⟨i, hi, hleast, rfl⟩ | ⟨hnone, rfl⟩
  · refine .inl ⟨k.text.length + i, (hstarts _).2 ⟨i, rfl, hi⟩, fun m hm hmem => ?_, ?_⟩
    · obtain ⟨j, rfl, hj⟩ := (hstarts m).1 hmem
      exact hleast j (by omega) hj
    · rw [spelled_cons, List.take_length_add_append]
  · refine .inr ⟨fun i hi => ?_, rfl⟩
    obtain ⟨j, -, hj⟩ := (hstarts i).1 hi
    exact hnone j hj

/-! ### The reader and the tokens -/

theorem splitLine_char {c : Char} (hc : c ∉ rules.delimiters) (t : Text) :
    splitLine rules (c :: t) =
      if startsComment rules (c :: t) then ⟨[], true⟩
      else ⟨c :: (splitLine rules t).code, (splitLine rules t).commented⟩ := by
  have hcuts : Place.code.cuts rules c t = startsComment rules (c :: t) := by simp [Place.cuts, hc]
  have hnext : Place.code.next rules c = .code := if_neg hc
  rw [splitLine, splitFrom, hcuts, hnext]
  rfl

/-- The reader passes to the end of a literal that is not closed. -/
theorem OpenBody.splitFrom {d : Char} {t : Text} (h : OpenBody d t) :
    splitFrom rules (.literal d) t = ⟨t, false⟩ := by
  induction h with
  | nil => rfl
  | backslash => rfl
  | char hne hback _ ih =>
    rw [splitFrom_of_not_cuts rfl, Place.next, if_neg hback, if_neg hne, ih]
  | pair c _ ih =>
    rw [splitFrom_of_not_cuts rfl, Place.next, if_pos rfl, splitFrom_of_not_cuts rfl, Place.next,
      ih]

theorem splitLine_unclosed {d : Char} (hd : d ∈ rules.delimiters) {body : Text}
    (h : OpenBody d body) : splitLine rules (d :: body) = ⟨d :: body, false⟩ := by
  have hcut : Place.code.cuts rules d body = false := by simp [Place.cuts, hd]
  have hopen : Place.code.next rules d = .literal d := if_pos hd
  rw [splitLine, splitFrom_of_not_cuts hcut, hopen, h.splitFrom]

theorem Tokenised.cutAtFirst {ts : List Token} (h : Tokenised rules.delimiters ts) :
    CutAtFirst rules ts (splitLine rules (spelled ts)) := by
  induction ts with
  | nil => exact .inr ⟨not_startsAt_nil, rfl⟩
  | cons k ts ih =>
    have hrest := ih h.tail
    cases k with
    | char c =>
      rw [spelled_char, splitLine_char h.1]
      cases hc : startsComment rules (c :: spelled ts) with
      | true =>
        have hstart : StartsAt rules (.char c :: ts) 0 :=
          startsAt_cons_iff.2 (.inl ⟨rfl, ⟨c, rfl⟩, hc⟩)
        exact .inl ⟨0, hstart, nofun, rfl⟩
      | false => exact hrest.cons fun _ _ => hc
    | literal d body =>
      obtain ⟨hd, hback, hbody, -⟩ := h
      rw [spelled_literal, splitLine_literal hd hback hbody]
      have hcut := hrest.cons (k := .literal d body) nofun
      simpa [Token.text] using hcut
    | unclosed d body =>
      obtain ⟨hd, hopen, rfl⟩ := h
      rw [spelled_unclosed, splitLine_unclosed hd hopen]
      have hcut := hrest.cons (k := .unclosed d body) nofun
      simpa [Token.text, splitLine, Comment.splitFrom] using hcut

end Uncomment.Comment

namespace Uncomment

open Comment

/-- **The lexical specification of line comments.** A line has exactly one list of tokens, whatever
the rules, and it is cut at the first of its characters outside literals at which the marker stands
without the exception. -/
theorem existsUnique_tokenised (rules : Rules) (line : Text) :
    (∃! ts, Tokenised rules.delimiters ts ∧ spelled ts = line) ∧
      ∀ ts, Tokenised rules.delimiters ts → spelled ts = line →
        CutAtFirst rules ts (splitLine rules line) := by
  constructor
  · obtain ⟨ts, hts, rfl⟩ := exists_tokenised rules.delimiters line
    exact ⟨ts, ⟨hts, rfl⟩, fun ts' h => h.1.unique hts h.2⟩
  · rintro ts hts rfl
    exact hts.cutAtFirst

/-- The literal ends with its third quote, and of the two markers behind it the first is
excepted. -/
theorem existsUnique_tokenised_excepted :
    let line : Text := "\"\\\"\"--[[--".toList
    let ts : List Token :=
      [.literal '"' ['\\', '"'], .char '-', .char '-', .char '[', .char '[', .char '-', .char '-']
    Tokenised Rules.dashes.delimiters ts ∧ spelled ts = line ∧
      CutAtFirst .dashes ts (splitLine .dashes line) ∧
      splitLine .dashes line = ⟨line.take 8, true⟩ := by
  intro line ts
  have hts : Tokenised Rules.dashes.delimiters ts :=
    ⟨by decide, by decide, .pair '"' .nil, by decide, by decide, by decide, by decide, by decide,
      by decide, trivial⟩
  have hline : spelled ts = line := by decide
  exact ⟨hts, hline, (existsUnique_tokenised .dashes line).2 ts hts hline, by decide⟩

end Uncomment
