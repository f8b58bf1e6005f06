import Uncomment.Text.Basic
import Uncomment.Error

/-! # UTF-8

`encode` writes a text as UTF-8 bytes. `decode` reads bytes back and stops at the first byte that
no UTF-8 text can hold there: the fault says how many bytes before that point are good, and how
many behind them belong to the broken character.

The reader keeps the character it is in (`Partial`): where it starts, the bytes and the value read
so far, and the range of every byte that is still due. The ranges of the second byte shut out
overlong forms, surrogates and values beyond the last code point. -/

namespace Uncomment

/-- File contents. -/
abbrev Bytes := List UInt8

namespace Utf8

/-- The UTF-8 bytes of a text. -/
def encode (t : Text) : Bytes := t.flatMap String.utf8EncodeChar

/-- The number of UTF-8 bytes of a text. -/
def size (t : Text) : Nat := (encode t).length

/-- A character that is being read. -/
structure Partial where
  /-- The number of good bytes before it. -/
  start : Nat
  /-- The number of its bytes read so far. -/
  width : Nat
  /-- Its value as far as it is known. -/
  value : Nat
  /-- The least and the greatest value of each byte that is due. -/
  due : List (UInt8 × UInt8)

/-- The part of the value that a first byte holds, and the bytes due behind it. -/
def lead? (b : UInt8) : Option (Nat × List (UInt8 × UInt8)) :=
  if b ≤ 0x7F then some (b.toNat, [])
  else if 0xC2 ≤ b && b ≤ 0xDF then some (b.toNat - 0xC0, [(0x80, 0xBF)])
  else if b == 0xE0 then some (0, [(0xA0, 0xBF), (0x80, 0xBF)])
  else if b == 0xED then some (0xD, [(0x80, 0x9F), (0x80, 0xBF)])
  else if 0xE1 ≤ b && b ≤ 0xEF then some (b.toNat - 0xE0, [(0x80, 0xBF), (0x80, 0xBF)])
  else if b == 0xF0 then some (0, [(0x90, 0xBF), (0x80, 0xBF), (0x80, 0xBF)])
  else if 0xF1 ≤ b && b ≤ 0xF3 then
    some (b.toNat - 0xF0, [(0x80, 0xBF), (0x80, 0xBF), (0x80, 0xBF)])
  else if b == 0xF4 then some (4, [(0x80, 0x8F), (0x80, 0xBF), (0x80, 0xBF)])
  else none

/-- The character with one more byte, or nothing if the byte does not fit. -/
def Partial.push? (p : Partial) (b : UInt8) : Option Partial :=
  match p.due with
  | [] => (lead? b).map fun (v, due) => { p with width := 1, value := v, due }
  | (low, high) :: due =>
    if low ≤ b && b ≤ high then
      some { p with width := p.width + 1, value := p.value * 64 + (b.toNat - 0x80), due }
    else none

/-- Nothing read yet of a character that starts behind `start` good bytes. -/
def Partial.fresh (start : Nat) : Partial := ⟨start, 0, 0, []⟩

/-- Reads bytes, given the character the reader is in. -/
def decodeFrom : Partial → Bytes → Except Fault Text
  | p, [] => if p.width = 0 then .ok [] else .error (.cutSequence p.start)
  | p, b :: r =>
    match p.push? b with
    | none => .error (.badSequence (max p.width 1) p.start)
    | some q =>
      if q.due.isEmpty then
        (decodeFrom (.fresh (q.start + q.width)) r).map (Char.ofNat q.value :: ·)
      else decodeFrom q r

/-- The text that the bytes stand for. -/
def decode (bytes : Bytes) : Except Fault Text := decodeFrom (.fresh 0) bytes

end Utf8
end Uncomment
