import Uncomment.Text.Basic

/-! # Numbers

The numbers that digits stand for, and when a number is too large for a double, told by natural
numbers alone.

* `Text.digitValue? base c`: the value of a digit, with letters of either case beyond nine;
* `Text.natOf base t`: the number that digits stand for;
* `Text.scalar? n`: the character with a code point;
* `Double.bound`: the least number whose nearest double is infinite;
* `Double.exceeds`: `m · 10 ^ e` reaches the bound;
* `Double.nearest`: the double nearest to a natural number;
* `Double.productExceeds`: the product of the doubles nearest to `m` and to `10 ^ e` reaches the
  bound, which is not the same, because each of the two is rounded first. -/

namespace Uncomment.Text

/-- A decimal digit. -/
def isDigit (c : Char) : Bool := '0' ≤ c && c ≤ '9'

/-- The value of a digit in a base of at most 16. -/
def digitValue? (base : Nat) (c : Char) : Option Nat :=
  let value :=
    if '0' ≤ c && c ≤ '9' then c.toNat - '0'.toNat
    else if 'a' ≤ c && c ≤ 'f' then c.toNat - 'a'.toNat + 10
    else if 'A' ≤ c && c ≤ 'F' then c.toNat - 'A'.toNat + 10
    else base
  if value < base then some value else none

/-- The number that digits in a base stand for, first digit first. -/
def natOf (base : Nat) (t : Text) : Nat :=
  t.foldl (fun n c => n * base + (digitValue? base c).getD 0) 0

/-- The number that hexadecimal digits stand for, if all of them are. -/
def hexNat? (t : Text) : Option Nat :=
  if t.all fun c => (digitValue? 16 c).isSome then some (natOf 16 t) else none

/-- The character with a code point, if it has one. -/
def scalar? (n : Nat) : Option Char := if n.isValidChar then some (Char.ofNat n) else none

end Uncomment.Text

namespace Uncomment.Double

/-- The least number that rounds to an infinite double. -/
def bound : Nat := Nat.pow 2 1024 - Nat.pow 2 970

/-- `m · 10 ^ e` rounds to an infinite double. Only exponents around 308 need a computation: below
them the number is small, and above them it is large unless it is zero. -/
def exceeds (m : Nat) (e : Int) : Bool :=
  let magnitude := (Nat.toDigits 10 m).length + e
  if m = 0 || magnitude < 308 then false
  else if 310 < magnitude then true
  else if 0 ≤ e then bound ≤ m * Nat.pow 10 e.toNat
  else bound * Nat.pow 10 (-e).toNat ≤ m

/-- The number of significant bits of a double. -/
def precision : Nat := 53

/-- The distance between the doubles around a natural number. -/
def spacing (n : Nat) : Nat := Nat.pow 2 (n.log2 + 1 - precision)

/-- The double nearest to a natural number. Of two that are equally near it is the one whose
significand is even. There is no upper end to the doubles here. -/
def nearest (n : Nat) : Nat :=
  let unit := spacing n
  let q := n / unit
  let r := n % unit
  if 2 * r < unit || (2 * r = unit && q % 2 = 0) then q * unit else (q + 1) * unit

/-- The largest power of ten that is a finite double. -/
def maxPower : Nat := 308

/-- The product of `m` and `10 ^ e`, each of them rounded to a double first, is infinite. A power
that is too large already makes every product infinite but that with zero. -/
def productExceeds (m e : Nat) : Bool :=
  m ≠ 0 && (maxPower < e || bound ≤ nearest m * nearest (Nat.pow 10 e))

end Uncomment.Double
