import Uncomment.Toml.Quote
import Uncomment.Toml.Scalar
import Uncomment.Toml.Value

/-! # Reading TOML documents

`parse?` reads a document and gives its top table, or nothing if the text is no TOML document.
Readers take a text and give what they read with the rest of the text.

* `gap?`: blanks, newlines and comments; `lineEnd?`: what may stand behind a statement;
* `key?`: a key, simple or dotted;
* `value?`: a value. Its argument bounds how deep arrays and braces may nest;
* `statement?`: a header or a key with its value, applied to the tables so far (`State`). -/

namespace Uncomment.Toml

/-- What stands behind blanks, newlines and comments. -/
def gapFrom? : (inComment : Bool) → Text → Option Text
  | _, [] => some []
  | _, '\n' :: r => gapFrom? false r
  | _, '\r' :: '\n' :: r => gapFrom? false r
  | true, c :: r => if isPlain c then gapFrom? true r else none
  | false, c :: r =>
    if isSpace c then gapFrom? false r
    else if c = '#' then gapFrom? true r
    else some (c :: r)

/-- What stands behind blanks, newlines and comments. -/
def gap? (t : Text) : Option Text := gapFrom? false t

/-- What stands behind the end of a statement's line: blanks, a comment, and a newline or the end of
the text. -/
def lineEndFrom? : (inComment : Bool) → Text → Option Text
  | _, [] => some []
  | _, '\n' :: r => some r
  | _, '\r' :: '\n' :: r => some r
  | true, c :: r => if isPlain c then lineEndFrom? true r else none
  | false, c :: r =>
    if isSpace c then lineEndFrom? false r
    else if c = '#' then lineEndFrom? true r
    else none

/-- What stands behind the end of a statement's line. -/
def lineEnd? (t : Text) : Option Text := lineEndFrom? false t

/-- A character of a key without quotes. -/
def isBare (c : Char) : Bool := c.isAlphanum || c == '_' || c == '-'

/-- A simple key: in quotes on one line, or bare. -/
def simpleKey? (t : Text) : Option (Text × Text) :=
  match t with
  | '"' :: r => basic 0 r
  | '\'' :: r => literal r
  | _ =>
    let k := t.takeWhile isBare
    if k.isEmpty then none else some (k, t.drop k.length)

/-- A key and the blanks behind it. Blanks may stand around the dots. `fuel` bounds the number of
its parts. -/
def keyFrom? : (fuel : Nat) → Text → Option (List Text × Text)
  | 0, _ => none
  | n + 1, t =>
    match simpleKey? (t.dropWhile isSpace) with
    | none => none
    | some (k, r) =>
      match r.dropWhile isSpace with
      | '.' :: r' => (keyFrom? n r').map fun (ks, rest) => (k :: ks, rest)
      | r' => some ([k], r')

/-- A key, and the blanks around it. -/
def key? (t : Text) : Option (List Text × Text) := keyFrom? (t.length + 1) t

/-- The items of an array and what stands behind its bracket. -/
def items? (value : Text → Option (Value × Text)) : (fuel : Nat) → Text →
    Option (List Value × Text)
  | 0, _ => none
  | n + 1, t =>
    match gap? t with
    | none => none
    | some (']' :: r) => some ([], r)
    | some t =>
      match value t with
      | none => none
      | some (v, r) =>
        match gap? r with
        | some (',' :: r) => (items? value n r).map fun (vs, rest) => (v :: vs, rest)
        | some (']' :: r) => some ([v], r)
        | _ => none

/-- The entries of a table in braces, added to those before them, and what stands behind the closing
brace. -/
def fields? (value : Text → Option (Value × Text)) : (fuel : Nat) → Table → Text →
    Option (Table × Text)
  | 0, _, _ => none
  | n + 1, table, t => do
    match ← gap? t with
    | '\x7d' :: r => some (table, r)
    | t =>
      let (ks, r) ← key? t
      let r ← behind? '=' (← gap? r)
      let (v, r) ← value (← gap? r)
      let table ← insert? ks v table
      match ← gap? r with
      | ',' :: r => fields? value n table r
      | '\x7d' :: r => some (table, r)
      | _ => none

/-- A character that ends the spelling of a scalar. -/
def endsScalar (c : Char) : Bool :=
  isSpace c || c == '\n' || c == '\r' || c == '#' || c == ',' || c == ']' || c == '\x7d' || c == '='

/-- The length of the scalar that starts a text. A blank between a date and a digit belongs to
it. -/
def scalarLength (t : Text) : Nat :=
  let n := (t.takeWhile (!endsScalar ·)).length
  if date? (t.take n) = some [] then
    match t.drop n with
    | ' ' :: c :: r =>
      if Text.isDigit c then n + 1 + ((c :: r).takeWhile (!endsScalar ·)).length else n
    | _ => n
  else n

/-- A value without parts: a string or a scalar. -/
def flat? (t : Text) : Option (Value × Text) :=
  match quoted? t with
  | some (s, rest) => some (.string s, rest)
  | none =>
    let n := scalarLength t
    (scalar? (t.take n)).map (·, t.drop n)

/-- A value. Arrays and braces nest at most `depth` deep. -/
def value? : (depth : Nat) → Text → Option (Value × Text)
  | 0, t => flat? t
  | d + 1, t =>
    match t with
    | '[' :: r => (items? (value? d) (r.length + 1) r).map fun (vs, rest) => (.array false vs, rest)
    | '\x7b' :: r =>
      (fields? (value? d) (r.length + 1) [] r).map fun (es, rest) => (.table .inline es, rest)
    | _ => flat? t

/-- How deep arrays and braces may nest. -/
def maxDepth : Nat := 80

/-- The tables so far, and the path of the one that statements add to. -/
structure State where
  root : Table
  path : List Text

/-- A header within brackets: applies `opening` in the table that holds the header's last key. -/
def header? (s : State) (opening : Text → Table → Option Table) (path : List Text) :
    Option State :=
  match path.getLast? with
  | none => none
  | some k => (underHeader (opening k) path.dropLast s.root).map (⟨·, path⟩)

/-- One statement and the end of its line. -/
def statement? (s : State) (t : Text) : Option (State × Text) :=
  match t with
  | '[' :: '[' :: r => do
    let (path, r) ← key? r
    let s ← header? s openArray? path
    return (s, ← lineEnd? (← behind? ']' (← behind? ']' r)))
  | '[' :: r => do
    let (path, r) ← key? r
    let s ← header? s openTable? path
    return (s, ← lineEnd? (← behind? ']' r))
  | _ => do
    let (ks, r) ← key? t
    let r ← behind? '=' r
    let (v, r) ← value? maxDepth (r.dropWhile isSpace)
    let root ← underHeader (insert? ks v) s.path s.root
    return ({ s with root }, ← lineEnd? r)

/-- The statements of a document. `fuel` bounds their number. -/
def statements? : (fuel : Nat) → State → Text → Option Table
  | 0, _, _ => none
  | n + 1, s, t =>
    match gap? t with
    | none => none
    | some [] => some s.root
    | some t => (statement? s t).bind fun (s, r) => statements? n s r

/-- The top table of a document. A byte order mark at its start does not count. -/
def parse? (t : Text) : Option Table :=
  let t := if t.head? = some '\ufeff' then t.drop 1 else t
  statements? (t.length + 1) ⟨[], []⟩ t

end Uncomment.Toml
