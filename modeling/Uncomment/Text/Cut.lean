import Uncomment.Text.Basic

/-! # Cutting out stretches

`cut found t` goes through a text from left to right and asks `found` at one place after the other
how long a stretch starts there. A stretch is taken out as one piece and the search goes on behind
it; every other character is a piece of its own.

`skip` counts the characters of a stretch that are still to be passed over. It makes the recursion
structural; `cutFrom_eq_cut_drop` shows that passing over characters is dropping them.

A text can also be searched for another one:

* `occurs p t`: `p` stands somewhere in `t`;
* `endOf? p t`: where the first copy of `p` in `t` ends;
* `count p t`: how many copies of `p` are met from left to right, none overlapping another. -/

namespace Uncomment.Text

/-- A piece of a text: a character by itself, or a stretch that was found. -/
inductive Piece
  | char (c : Char)
  | stretch (t : Text)
  deriving DecidableEq, Repr

/-- The piece is a stretch. -/
def Piece.isStretch : Piece → Bool
  | .char _ => false
  | .stretch _ => true

/-- The pieces of a text behind its next `skip` characters. -/
def cutFrom (found : Text → Option Nat) : (skip : Nat) → Text → List Piece
  | _, [] => []
  | k + 1, _ :: r => cutFrom found k r
  | 0, c :: r =>
    match found (c :: r) with
    | some n => .stretch ((c :: r).take n) :: cutFrom found (n - 1) r
    | none => .char c :: cutFrom found 0 r

/-- The pieces of a text, given the length of the stretch that starts a text. A stretch has at least
one character. -/
def cut (found : Text → Option Nat) (t : Text) : List Piece := cutFrom found 0 t

/-- The text with every stretch replaced. -/
def replace (found : Text → Option Nat) (new : Text → Text) (t : Text) : Text :=
  (cut found t).flatMap fun | .char c => [c] | .stretch u => new u

/-- The number of stretches. -/
def countStretches (found : Text → Option Nat) (t : Text) : Nat :=
  (cut found t).countP (·.isStretch)

theorem cutFrom_eq_cut_drop (found : Text → Option Nat) (k : Nat) (t : Text) :
    cutFrom found k t = cut found (t.drop k) := by
  induction t generalizing k with
  | nil => simp [cut, cutFrom]
  | cons c r ih => cases k with
    | zero => rfl
    | succ k => simpa [cutFrom] using ih k

@[simp] theorem cut_nil (found : Text → Option Nat) : cut found [] = [] := rfl

theorem cut_cons_of_none {found : Text → Option Nat} {c : Char} {r : Text}
    (h : found (c :: r) = none) : cut found (c :: r) = .char c :: cut found r := by
  simp [cut, cutFrom, h]

theorem cut_cons_of_some {found : Text → Option Nat} {c : Char} {r : Text} {n : Nat}
    (h : found (c :: r) = some n) :
    cut found (c :: r) = .stretch ((c :: r).take n) :: cut found (r.drop (n - 1)) := by
  simp only [cut, cutFrom, h]
  rw [cutFrom_eq_cut_drop, cut]

/-! ### Searching a text -/

/-- `p` stands somewhere in the text. -/
def occurs (p : Text) : Text → Bool
  | [] => p.isEmpty
  | c :: r => p.isPrefixOf (c :: r) || occurs p r

/-- The number of characters up to the end of the first copy of `p`. -/
def endOf? (p : Text) : Text → Option Nat
  | [] => if p.isEmpty then some 0 else none
  | c :: r => if p.isPrefixOf (c :: r) then some p.length else (endOf? p r).map (· + 1)

/-- The length of `p`, if it starts the text. -/
def lengthAt? (p t : Text) : Option Nat := if p.isPrefixOf t then some p.length else none

/-- The number of copies of a non-empty `p`, from left to right and without overlap. -/
def count (p t : Text) : Nat := countStretches (lengthAt? p) t

/-- Searching finds exactly the contiguous parts of a text. -/
theorem occurs_iff_isInfix {p t : Text} : occurs p t = true ↔ p <:+: t := by
  induction t with
  | nil => simp [occurs]
  | cons c r ih => simp [occurs, ih, List.infix_cons_iff]

theorem occurs_iff_endOf? {p t : Text} : occurs p t = true ↔ (endOf? p t).isSome = true := by
  induction t with
  | nil => cases p <;> simp [occurs, endOf?]
  | cons c r ih =>
    by_cases h : p.isPrefixOf (c :: r) <;> simp [occurs, endOf?, h, ih]

end Uncomment.Text
