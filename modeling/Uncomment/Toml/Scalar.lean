import Uncomment.Number
import Uncomment.Toml.Value

/-! # TOML scalars

Values that are written without quotes and brackets: booleans, integers, floats and date-times.
`scalar?` reads one off its whole spelling. -/

namespace Uncomment.Toml

/-- Digits with single underscores between them, which are left out. -/
def digits? (digit : Char → Bool) : Text → Option Text
  | [] => none
  | [c] => if digit c then some [c] else none
  | c :: '_' :: r => if digit c then (digits? digit r).map (c :: ·) else none
  | c :: r => if digit c then (digits? digit r).map (c :: ·) else none

/-- Decimal digits that do not start with a needless zero. -/
def decimal? (t : Text) : Option Text :=
  match digits? Text.isDigit t with
  | some ('0' :: _ :: _) => none
  | r => r

/-- A sign and what stands behind it. -/
def sign : Text → Bool × Text
  | '+' :: r => (false, r)
  | '-' :: r => (true, r)
  | r => (false, r)

/-- A number without a sign, in a base. -/
def based? (base : Nat) (t : Text) : Option Int :=
  (digits? (fun c => (Text.digitValue? base c).isSome) t).map fun ds => (Text.natOf base ds : Int)

/-- An integer. Only a decimal one may have a sign. -/
def integer? : Text → Option Int
  | '0' :: 'x' :: r => based? 16 r
  | '0' :: 'o' :: r => based? 8 r
  | '0' :: 'b' :: r => based? 2 r
  | t =>
    let (negative, r) := sign t
    (decimal? r).map fun ds =>
      if negative then -(Text.natOf 10 ds : Int) else (Text.natOf 10 ds : Int)

/-- A text up to its exponent mark, and the exponent behind the mark. -/
def exponent? (t : Text) : Option (Text × Option Int) :=
  let head := t.takeWhile fun c => c != 'e' && c != 'E'
  match t.drop head.length with
  | [] => some (head, none)
  | _ :: r =>
    let (negative, ds) := sign r
    (digits? Text.isDigit ds).map fun ds =>
      (head, some (if negative then -(Text.natOf 10 ds : Int) else (Text.natOf 10 ds : Int)))

/-- A text up to its decimal point, and the digits behind the point. -/
def fraction? (t : Text) : Option (Text × Option Text) :=
  let head := t.takeWhile (· != '.')
  match t.drop head.length with
  | [] => some (head, none)
  | _ :: r => (digits? Text.isDigit r).map fun ds => (head, some ds)

/-- Reads a float: digits with a fraction, an exponent or both, or one of the names. Gives whether
it is finite as a double, which the names count as. -/
def float? (t : Text) : Option Bool := do
  let (_, r) := sign t
  if r = ['i', 'n', 'f'] || r = ['n', 'a', 'n'] then return true
  let (head, exponent) ← exponent? r
  let (whole, fraction) ← fraction? head
  let ds ← decimal? whole
  let behind := fraction.getD []
  if fraction.isNone && exponent.isNone then none
  return !Double.exceeds (Text.natOf 10 (ds ++ behind)) (exponent.getD 0 - behind.length)

/-- The number that exactly `n` decimal digits at the start of a text give. -/
def fixed? (n : Nat) (t : Text) : Option (Nat × Text) :=
  let ds := t.take n
  if ds.length = n && ds.all Text.isDigit then some (Text.natOf 10 ds, t.drop n) else none

/-- The text behind a character that must start it. -/
def behind? (c : Char) : Text → Option Text
  | d :: r => if c = d then some r else none
  | [] => none

/-- The number of days of a month. -/
def daysIn (year month : Nat) : Nat :=
  if month = 2 then
    if year % 4 = 0 && (year % 100 ≠ 0 || year % 400 = 0) then 29 else 28
  else if month = 4 || month = 6 || month = 9 || month = 11 then 30
  else 31

/-- What stands behind the date that starts a text. -/
def date? (t : Text) : Option Text := do
  let (year, t) ← fixed? 4 t
  let t ← behind? '-' t
  let (month, t) ← fixed? 2 t
  let t ← behind? '-' t
  let (day, t) ← fixed? 2 t
  if 1 ≤ month && month ≤ 12 && 1 ≤ day && day ≤ daysIn year month then some t else none

/-- What stands behind the seconds and their fraction, both of which may be left out. -/
def seconds? : Text → Option Text
  | ':' :: r => do
    let (second, r) ← fixed? 2 r
    if 60 < second then none
    match r with
    | '.' :: r =>
      match r with
      | d :: _ => if Text.isDigit d then some (r.dropWhile Text.isDigit) else none
      | [] => none
    | _ => some r
  | r => some r

/-- What stands behind hours and minutes. -/
def clock? (t : Text) : Option Text := do
  let (hour, t) ← fixed? 2 t
  let t ← behind? ':' t
  let (minute, t) ← fixed? 2 t
  if hour ≤ 23 && minute ≤ 59 then some t else none

/-- What stands behind the time that starts a text. -/
def time? (t : Text) : Option Text := (clock? t).bind seconds?

/-- The text is an offset from universal time, or empty. -/
def isOffset : Text → Bool
  | [] => true
  | [c] => c == 'Z' || c == 'z'
  | c :: r => (c == '+' || c == '-') && clock? r == some []

/-- The text is a date, a time, or both with an optional offset. -/
def isMoment (t : Text) : Bool :=
  match date? t with
  | some [] => true
  | some (c :: r) => (c == 'T' || c == 't' || c == ' ') && (time? r).any isOffset
  | none => time? t == some []

/-- The value with the given spelling. -/
def scalar? (t : Text) : Option Value :=
  if t = ['t', 'r', 'u', 'e'] then some (.boolean true)
  else if t = ['f', 'a', 'l', 's', 'e'] then some (.boolean false)
  else
    match integer? t with
    | some n => some (.integer n)
    | none =>
      match float? t with
      | some isFinite => some (.float isFinite)
      | none => if isMoment t then some (.moment t) else none

end Uncomment.Toml
