import Uncomment.Number
import Uncomment.Text.Utf8

/-! # Reading JSON

Readers of JSON words, strings and numbers. A reader takes a text and gives what it read with the
rest of the text, or the first thing that is wrong (`Json.Fault`).

Some parts of a text are only passed over, because nobody asks for their value (`skipValue`). What
they hold must still be JSON. `Care` tells the two uses apart: where a value is passed over, half a
surrogate pair will do for a character, and a number that the end of the text cuts short is
malformed rather than truncated. -/

namespace Uncomment.Json

/-- What is wrong with a JSON text. -/
inductive Fault
  /-- The text is not JSON. -/
  | malformed
  /-- The text ends too early. -/
  | truncated
  /-- The text is JSON, but not of the kind that is wanted. -/
  | mismatched
  deriving DecidableEq, Repr

/-- The wording of a fault. -/
def Fault.message : Fault → String
  | malformed => "the text is not JSON"
  | truncated => "the text ends too early"
  | mismatched => "the value is not of the expected kind"

/-- A function that reads from the start of a text and gives the rest. -/
abbrev Reader (α : Type) := Text → Except Fault (α × Text)

/-- Whether a value is wanted or passed over. -/
inductive Care
  | wanted
  | ignored
  deriving DecidableEq, Repr

/-- The text without the blanks that start it. -/
def skipBlanks (t : Text) : Text :=
  t.dropWhile fun c => c == ' ' || c == '\n' || c == '\t' || c == '\r'

/-- The rest of a text behind the characters of a word, which must start it. -/
def word : (w : Text) → Text → Except Fault Text
  | [], t => .ok t
  | _ :: _, [] => .error .truncated
  | c :: w, d :: t => if c = d then word w t else .error .malformed

/-- The number in the four hexadecimal digits that start a text. -/
def fourHex (t : Text) : Except Fault Nat :=
  if Utf8.size (t.take 4) < 4 then .error .truncated
  else
    match (if t.length < 4 then none else Text.hexNat? (t.take 4)) with
    | some n => .ok n
    | none => .error .malformed

/-- The second half of a surrogate pair whose first half is `high`. -/
def lowSurrogate (high : Nat) (t : Text) : Except Fault Char := do
  match t with
  | [] => .error .truncated
  | '\\' :: [] => .error .truncated
  | '\\' :: 'u' :: r =>
    let low ← fourHex r
    if 0xDC00 ≤ low && low ≤ 0xDFFF then
      .ok (Char.ofNat (0x10000 + (high - 0xD800) * 0x400 + (low - 0xDC00)))
    else .error .malformed
  | _ => .error .malformed

/-- The character that an escape stands for, and the length of the escape without the backslash. -/
def escape (care : Care) : Text → Except Fault (Char × Nat)
  | [] => .error .truncated
  | '"' :: _ => .ok ('"', 1)
  | '\\' :: _ => .ok ('\\', 1)
  | '/' :: _ => .ok ('/', 1)
  | 'b' :: _ => .ok ('\x08', 1)
  | 'f' :: _ => .ok ('\x0c', 1)
  | 'n' :: _ => .ok ('\n', 1)
  | 'r' :: _ => .ok ('\r', 1)
  | 't' :: _ => .ok ('\t', 1)
  | 'u' :: r => do
    let n ← fourHex r
    if care = .ignored then .ok (Char.ofNat n, 5)
    else if 0xDC00 ≤ n && n ≤ 0xDFFF then .error .malformed
    else if 0xD800 ≤ n && n ≤ 0xDBFF then return (← lowSurrogate n (r.drop 4), 11)
    else .ok (Char.ofNat n, 5)
  | _ => .error .malformed

/-- The characters of a string behind its opening quote. `skip` counts the characters of an escape
that are still to be passed over. -/
def stringFrom (care : Care) : (skip : Nat) → Reader Text
  | _, [] => .error .truncated
  | k + 1, _ :: r => stringFrom care k r
  | 0, c :: r =>
    if c = '"' then .ok ([], r)
    else if c = '\\' then
      match escape care r with
      | .error e => .error e
      | .ok (x, n) => (stringFrom care n r).map fun (s, rest) => (x :: s, rest)
    else if c.toNat < 0x20 then .error .malformed
    else (stringFrom care 0 r).map fun (s, rest) => (c :: s, rest)

/-- What a number comes to. -/
inductive Number
  /-- A whole number without sign, fraction and exponent. -/
  | natural (n : Nat)
  /-- Any other number. -/
  | other
  deriving DecidableEq, Repr

/-- What is wrong with a number that the end of the text cuts short. -/
def Care.cut : Care → Fault
  | .wanted => .truncated
  | .ignored => .malformed

/-- One or more decimal digits. -/
def digits (care : Care) (t : Text) : Except Fault (Text × Text) :=
  let ds := t.takeWhile Text.isDigit
  if ds.isEmpty then .error (if t.isEmpty then care.cut else .malformed)
  else .ok (ds, t.drop ds.length)

/-- The digits of a number before its point. A zero that starts them stands alone. -/
def wholePart (care : Care) (t : Text) : Except Fault (Text × Text) := do
  let (ds, r) ← digits care t
  if ds.head? = some '0' && 1 < ds.length then .error .malformed else .ok (ds, r)

/-- The digits behind the point of a number, if it has one. -/
def fractionPart (care : Care) : Text → Except Fault (Option Text × Text)
  | '.' :: r => (digits care r).map fun (ds, rest) => (some ds, rest)
  | r => .ok (none, r)

/-- The exponent of a number, if it has one. -/
def exponentPart (care : Care) : Text → Except Fault (Option Int × Text)
  | c :: r =>
    if c = 'e' || c = 'E' then
      let negative := r.head? = some '-'
      let r := if negative || r.head? = some '+' then r.drop 1 else r
      (digits care r).map fun (ds, rest) =>
        (some (if negative then -(Text.natOf 10 ds : Int) else (Text.natOf 10 ds : Int)), rest)
    else .ok (none, c :: r)
  | [] => .ok (none, [])

/-- The number in the digits of a text behind those of `start`, as far as 64 bits hold it, and how
many digits are left over. -/
def significand : (start : Nat) → Text → Nat × Nat
  | start, [] => (start, 0)
  | start, c :: r =>
    let n := Text.natOf 10 [c] + start * 10
    if n < Nat.pow 2 64 then significand n r else (start, r.length + 1)

/-- The number with these digits before and behind its point, and this exponent, is an infinite
double. It is the product of its first digits, as many as 64 bits hold, and a power of ten; the
digits before the point that are left over count as zeros, and those behind it not at all. -/
def isInfinite (whole behind : Text) (exponent : Int) : Bool :=
  let (s, zeros) := significand 0 whole
  let (s, dropped) := significand s behind
  let e := zeros - (behind.length - dropped : Nat) + exponent
  0 ≤ e && Double.productExceeds s e.toNat

/-- A number behind its sign. One that is wanted must fit into 64 bits or be a finite double. -/
def unsigned (care : Care) (negative : Bool) : Reader Number := fun t => do
  let (whole, t) ← wholePart care t
  let (fraction, t) ← fractionPart care t
  let (exponent, t) ← exponentPart care t
  let n := Text.natOf 10 whole
  if fraction.isNone && exponent.isNone && !negative && n < Nat.pow 2 64 then .ok (.natural n, t)
  else if care = .wanted && isInfinite whole (fraction.getD []) (exponent.getD 0) then
    .error .malformed
  else .ok (.other, t)

/-- A number. -/
def number (care : Care) : Reader Number
  | '-' :: r => unsigned care true r
  | t => unsigned care false t

/-- The fault of a value that was read in vain. -/
def vain {α : Type} : Except Fault α → Fault
  | .error e => e
  | .ok _ => .mismatched

/-- The fault of finding, at the start of a text, something else than what is wanted: a word, a
number or a string is read first, and its own fault comes before the mismatch. -/
def mismatch : Text → Fault
  | [] => .truncated
  | 'n' :: r => vain (word ['u', 'l', 'l'] r)
  | 't' :: r => vain (word ['r', 'u', 'e'] r)
  | 'f' :: r => vain (word ['a', 'l', 's', 'e'] r)
  | '"' :: r => vain (stringFrom .wanted 0 r)
  | '[' :: _ => .mismatched
  | '\x7b' :: _ => .mismatched
  | c :: r => if c = '-' || Text.isDigit c then vain (number .wanted (c :: r)) else .malformed

/-! ### Passing over values -/

/-- The rest of a text behind a colon. -/
def colon (t : Text) : Except Fault Text :=
  match skipBlanks t with
  | [] => .error .truncated
  | ':' :: r => .ok r
  | _ => .error .malformed

mutual

/-- The rest of a text behind a value. -/
def skipFrom : (fuel : Nat) → Text → Except Fault Text
  | 0, _ => .error .truncated
  | n + 1, t =>
    match skipBlanks t with
    | [] => .error .truncated
    | 'n' :: r => word ['u', 'l', 'l'] r
    | 't' :: r => word ['r', 'u', 'e'] r
    | 'f' :: r => word ['a', 'l', 's', 'e'] r
    | '"' :: r => (stringFrom .ignored 0 r).map (·.2)
    | '[' :: r =>
      match skipBlanks r with
      | ']' :: r => .ok r
      | [] => .error .truncated
      | r => skipItems n r
    | '\x7b' :: r =>
      match skipBlanks r with
      | '\x7d' :: r => .ok r
      | [] => .error .truncated
      | r => skipFields n r
    | c :: r =>
      if c = '-' || Text.isDigit c then (number .ignored (c :: r)).map (·.2)
      else .error .malformed

/-- The rest of a text behind the items of an array and its bracket. -/
def skipItems : (fuel : Nat) → Text → Except Fault Text
  | 0, _ => .error .truncated
  | n + 1, t =>
    match skipFrom n t with
    | .error e => .error e
    | .ok r =>
      match skipBlanks r with
      | [] => .error .truncated
      | ',' :: r => skipItems n r
      | ']' :: r => .ok r
      | _ => .error .malformed

/-- The rest of a text behind the fields of an object and its brace. -/
def skipFields : (fuel : Nat) → Text → Except Fault Text
  | 0, _ => .error .truncated
  | n + 1, t =>
    match skipBlanks t with
    | [] => .error .truncated
    | '"' :: r =>
      match (stringFrom .ignored 0 r).bind fun (_, r) => colon r with
      | .error e => .error e
      | .ok r =>
        match skipFrom n r with
        | .error e => .error e
        | .ok r =>
          match skipBlanks r with
          | [] => .error .truncated
          | ',' :: r => skipFields n r
          | '\x7d' :: r => .ok r
          | _ => .error .malformed
    | _ => .error .malformed

end

/-- The rest of a text behind a value. -/
def skipValue (t : Text) : Except Fault Text := skipFrom (2 * t.length + 2) t

end Uncomment.Json
