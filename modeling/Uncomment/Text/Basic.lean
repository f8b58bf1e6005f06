/-! # Texts

Texts are lists of characters. This file defines the blank characters (`isBlank`, the Unicode
property `White_Space`), trimming, and the lines of a text.

* `trimLeft`, `trimRight`, `trim`: drop the blanks at the start, at the end, at both ends;
* `isBlankText`: every character is blank, so that trimming leaves nothing (`trim_eq_nil_iff`);
* `lines` cuts a text at its newlines. The newline belongs to no line, nor does one carriage return
  directly before it; a carriage return anywhere else is an ordinary character. A newline at the end
  of the text closes the last line and opens no further one, so the empty text has no line;
* `unlines` puts lines together again, with one newline between neighbours;
* `piecesAt` cuts a text at every copy of a character, and always gives at least one piece. -/

namespace Uncomment

/-- A text, character by character. -/
abbrev Text := List Char

namespace Text

/-- The characters with the Unicode property `White_Space`. -/
def isBlank (c : Char) : Bool :=
  let n := c.toNat
  (0x09 ≤ n && n ≤ 0x0D) || n == 0x20 || n == 0x85 || n == 0xA0 || n == 0x1680 ||
    (0x2000 ≤ n && n ≤ 0x200A) || n == 0x2028 || n == 0x2029 || n == 0x202F || n == 0x205F ||
    n == 0x3000

/-- The text without its leading blanks. -/
def trimLeft (t : Text) : Text := t.dropWhile isBlank

/-- The text without its trailing blanks. -/
def trimRight (t : Text) : Text := (t.reverse.dropWhile isBlank).reverse

/-- The text without the blanks at either end. -/
def trim (t : Text) : Text := trimRight (trimLeft t)

/-- Nothing but blanks, possibly nothing at all. -/
def isBlankText (t : Text) : Bool := t.all isBlank

theorem trimLeft_eq_nil_iff {t : Text} : trimLeft t = [] ↔ isBlankText t = true := by
  induction t with
  | nil => simp [trimLeft, isBlankText]
  | cons c r ih =>
    simp only [trimLeft, isBlankText, List.all_cons] at ih ⊢
    by_cases h : isBlank c <;> simp [h, ih]

theorem trimRight_eq_nil_iff {t : Text} : trimRight t = [] ↔ isBlankText t = true := by
  have h := trimLeft_eq_nil_iff (t := t.reverse)
  simp only [trimLeft, isBlankText, List.all_reverse] at h
  simp [trimRight, isBlankText, h]

theorem isBlankText_trimLeft (t : Text) : isBlankText (trimLeft t) = isBlankText t := by
  induction t with
  | nil => rfl
  | cons c r ih =>
    simp only [trimLeft, isBlankText] at ih ⊢
    by_cases h : isBlank c <;> simp [h, ih]

/-- Trimming leaves nothing exactly when the text is blank. -/
theorem trim_eq_nil_iff {t : Text} : trim t = [] ↔ isBlankText t = true := by
  rw [trim, trimRight_eq_nil_iff, isBlankText_trimLeft]

/-! ### Lines and pieces -/

/-- Puts a character before the first line. -/
def consHead (c : Char) : List Text → List Text
  | [] => [[c]]
  | l :: ls => (c :: l) :: ls

/-- The lines of a text. -/
def lines : Text → List Text
  | [] => []
  | c :: r =>
    if c = '\n' then [] :: lines r
    else if c = '\r' ∧ r.head? = some '\n' then lines r
    else consHead c (lines r)

/-- The given lines with one newline between neighbours. -/
def unlines : List Text → Text
  | [] => []
  | [l] => l
  | l :: ls => l ++ '\n' :: unlines ls

/-- The pieces of a text between the copies of a character. -/
def piecesAt (sep : Char) : Text → List Text
  | [] => [[]]
  | c :: r => if c = sep then [] :: piecesAt sep r else consHead c (piecesAt sep r)

@[simp] theorem lines_nil : lines [] = [] := rfl

@[simp] theorem lines_newline (r : Text) : lines ('\n' :: r) = [] :: lines r := by
  simp [lines]

/-- A carriage return directly before a newline goes with it. -/
@[simp] theorem lines_return_newline (r : Text) : lines ('\r' :: '\n' :: r) = [] :: lines r := by
  simp [lines]

/-- Every other character belongs to its line. -/
theorem lines_cons {c : Char} {r : Text} (hc : c ≠ '\n') (hr : c = '\r' → r.head? ≠ some '\n') :
    lines (c :: r) = consHead c (lines r) := by
  have h : ¬ (c = '\r' ∧ r.head? = some '\n') := fun h => hr h.1 h.2
  simp [lines, hc, h]

end Text
end Uncomment
