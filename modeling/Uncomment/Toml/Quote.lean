import Uncomment.Number

/-! # TOML strings

The four kinds of TOML strings. Each reader takes what stands behind the opening quotes and gives
the text of the string and what stands behind the closing quotes.

`skip` counts characters of an escape, or of a line break that an escape removes, that are still to
be passed over. -/

namespace Uncomment.Toml

/-- A character that may stand for itself in a string on one line, and in a comment. -/
def isPlain (c : Char) : Bool := c == '\t' || (0x20 ≤ c.toNat && c.toNat != 0x7F)

/-- A space or a tab. -/
def isSpace (c : Char) : Bool := c == ' ' || c == '\t'

/-- The character with the code point that the first `n` characters give in hexadecimal. -/
def codePoint? (n : Nat) (t : Text) : Option Char :=
  if n ≤ t.length then (Text.hexNat? (t.take n)).bind Text.scalar? else none

/-- The character that an escape stands for, and its length without the backslash. -/
def escape? : Text → Option (Char × Nat)
  | 'b' :: _ => some ('\x08', 1)
  | 't' :: _ => some ('\t', 1)
  | 'n' :: _ => some ('\n', 1)
  | 'f' :: _ => some ('\x0c', 1)
  | 'r' :: _ => some ('\r', 1)
  | 'e' :: _ => some ('\x1b', 1)
  | '"' :: _ => some ('"', 1)
  | '\\' :: _ => some ('\\', 1)
  | 'x' :: r => (codePoint? 2 r).map (·, 3)
  | 'u' :: r => (codePoint? 4 r).map (·, 5)
  | 'U' :: r => (codePoint? 8 r).map (·, 9)
  | _ => none

/-- A string in double quotes. -/
def basic : (skip : Nat) → Text → Option (Text × Text)
  | _, [] => none
  | k + 1, _ :: r => basic k r
  | 0, c :: r =>
    if c = '"' then some ([], r)
    else if c = '\\' then
      match escape? r with
      | some (e, n) => (basic n r).map fun (s, rest) => (e :: s, rest)
      | none => none
    else if isPlain c then (basic 0 r).map fun (s, rest) => (c :: s, rest)
    else none

/-- A string in single quotes. -/
def literal : Text → Option (Text × Text)
  | [] => none
  | c :: r =>
    if c = '\'' then some ([], r)
    else if isPlain c then (literal r).map fun (s, rest) => (c :: s, rest)
    else none

/-- The text without the newline that starts it. -/
def dropNewline? : Text → Option Text
  | '\n' :: r => some r
  | '\r' :: '\n' :: r => some r
  | _ => none

/-- The quotes that close a string over several lines, and up to two that still belong to it. -/
def closing? (q : Char) : Text → Option (Text × Text)
  | a :: b :: c :: r =>
    if a = q && b = q && c = q then
      match r with
      | d :: e :: r' =>
        if d = q && e = q then some ([q, q], r')
        else if d = q then some ([q], e :: r')
        else some ([], r)
      | [d] => if d = q then some ([q], []) else some ([], r)
      | [] => some ([], r)
    else none
  | _ => none

/-- A character that may stand for itself in a string over several lines, before `r`. -/
def isPlainLine (c : Char) (r : Text) : Bool :=
  isPlain c || c == '\n' || (c == '\r' && r.head? == some '\n')

/-- The text without the blanks and newlines that start it. -/
def dropBreaks : Text → Text
  | '\r' :: '\n' :: r => dropBreaks r
  | c :: r => if isSpace c || c == '\n' then dropBreaks r else c :: r
  | [] => []

/-- The number of blanks and newlines behind a backslash at the end of a line. -/
def lineBreak? (r : Text) : Option Nat :=
  (dropNewline? (r.dropWhile isSpace)).map fun rest => r.length - (dropBreaks rest).length

/-- A string in triple double quotes. -/
def multiBasic : (skip : Nat) → Text → Option (Text × Text)
  | _, [] => none
  | k + 1, _ :: r => multiBasic k r
  | 0, c :: r =>
    match closing? '"' (c :: r) with
    | some done => some done
    | none =>
      if c = '\\' then
        match escape? r, lineBreak? r with
        | some (e, n), _ => (multiBasic n r).map fun (s, rest) => (e :: s, rest)
        | none, some n => multiBasic n r
        | none, none => none
      else if isPlainLine c r then (multiBasic 0 r).map fun (s, rest) => (c :: s, rest)
      else none

/-- A string in triple single quotes. -/
def multiLiteral : Text → Option (Text × Text)
  | [] => none
  | c :: r =>
    match closing? '\'' (c :: r) with
    | some done => some done
    | none =>
      if isPlainLine c r then (multiLiteral r).map fun (s, rest) => (c :: s, rest) else none

/-- The string that starts a text. A newline directly behind triple quotes does not count. -/
def quoted? : Text → Option (Text × Text)
  | '"' :: '"' :: '"' :: r => multiBasic 0 ((dropNewline? r).getD r)
  | '"' :: r => basic 0 r
  | '\'' :: '\'' :: '\'' :: r => multiLiteral ((dropNewline? r).getD r)
  | '\'' :: r => literal r
  | _ => none

end Uncomment.Toml
