import Uncomment.Text.Basic

/-! # TOML values

The values of a TOML document. A table remembers how it came about (`Origin`), because that decides
what may still be added to it; an array remembers whether it grows by headers. Of a date-time only
the spelling is kept, and of a float only whether it is a finite double.

A document may hold numbers of any size. Whoever reads its values can hold only some of them
(`Value.isHeld`).

A statement of a document changes its tables. No key gets two values, and no table two definitions:

* `underHeader`: goes down the keys of a header, where tables on the way are made as needed, tables
  in braces are closed, and an array of tables stands for its last table;
* `insert?`: puts a value at a dotted key. The tables on the way must be undefined yet or come from
  dotted keys themselves;
* `openTable?`, `openArray?`: what a header does in the table that holds its last key. -/

namespace Uncomment.Toml

/-- How a table came about. -/
inductive Origin
  /-- Its own header, or the document itself. -/
  | header
  /-- It lies on the way to a table that has a header. -/
  | implied
  /-- It lies on the way to a dotted key. -/
  | dotted
  /-- It is written in braces, and complete. -/
  | inline
  deriving DecidableEq, Repr

/-- A value. -/
inductive Value
  | string (text : Text)
  | integer (n : Int)
  | float (isFinite : Bool)
  | boolean (b : Bool)
  | moment (spelling : Text)
  | array (ofTables : Bool) (items : List Value)
  | table (origin : Origin) (entries : List (Text × Value))
  deriving Repr

/-- The entries of a table. -/
abbrev Table := List (Text × Value)

/-- The table with another value at a key it has. -/
def Table.set (t : Table) (k : Text) (v : Value) : Table :=
  t.map fun entry => if entry.1 = k then (k, v) else entry

mutual

/-- All numbers in the value can be held: integers by 128 bits, with or without a sign, and floats
by a double. -/
def Value.isHeld : Value → Bool
  | .integer n => -(Nat.pow 2 127 : Int) ≤ n && n < (Nat.pow 2 128 : Int)
  | .float isFinite => isFinite
  | .array _ items => areHeld items
  | .table _ entries => Table.isHeld entries
  | .string _ | .boolean _ | .moment _ => true

/-- All numbers in the values can be held. -/
def areHeld : List Value → Bool
  | [] => true
  | v :: r => v.isHeld && areHeld r

/-- All numbers in the entries can be held. -/
def Table.isHeld : List (Text × Value) → Bool
  | [] => true
  | (_, v) :: r => v.isHeld && Table.isHeld r

end

/-! ### Building tables -/

/-- Changes the table at the end of a path, which stands for the last table of an array. -/
def underHeader (f : Table → Option Table) : List Text → Table → Option Table
  | [], t => f t
  | k :: ks, t =>
    match t.lookup k with
    | none => (underHeader f ks []).map fun s => t ++ [(k, .table .implied s)]
    | some (.table origin s) =>
      if origin = .inline then none
      else (underHeader f ks s).map fun s' => t.set k (.table origin s')
    | some (.array true items) =>
      match items.getLast? with
      | some (.table origin s) =>
        (underHeader f ks s).map fun s' =>
          t.set k (.array true (items.dropLast ++ [.table origin s']))
      | _ => none
    | some _ => none

/-- Puts a value at a key that the table does not have. -/
def add? (k : Text) (v : Value) (t : Table) : Option Table :=
  if (t.lookup k).isSome then none else some (t ++ [(k, v)])

/-- Puts a value at a dotted key, given as its first key and the keys behind it. `origin` is how the
table came about: at the last key of several it must be a dotted key. -/
def insertFrom? (v : Value) : (first : Bool) → Origin → Text → List Text → Table → Option Table
  | first, origin, k, [], t => if first || origin = .dotted then add? k v t else none
  | _, _, k, k' :: ks, t =>
    match t.lookup k with
    | none => (insertFrom? v false .dotted k' ks []).map fun s => t ++ [(k, .table .dotted s)]
    | some (.table origin s) =>
      if origin = .inline || origin = .header then none
      else (insertFrom? v false origin k' ks s).map fun s' => t.set k (.table origin s')
    | some (.array true items) =>
      match items.getLast? with
      | some (.table origin s) =>
        (insertFrom? v false origin k' ks s).map fun s' =>
          t.set k (.array true (items.dropLast ++ [.table origin s']))
      | _ => none
    | some _ => none

/-- Puts a value at a dotted key. -/
def insert? (keys : List Text) (v : Value) (t : Table) : Option Table :=
  match keys with
  | [] => none
  | k :: ks => insertFrom? v true .header k ks t

/-- Defines the table at a key. -/
def openTable? (k : Text) (t : Table) : Option Table :=
  match t.lookup k with
  | none => some (t ++ [(k, .table .header [])])
  | some (.table .implied s) => some (t.set k (.table .header s))
  | some _ => none

/-- Adds a table to the array of tables at a key. -/
def openArray? (k : Text) (t : Table) : Option Table :=
  match t.lookup k with
  | none => some (t ++ [(k, .array true [.table .header []])])
  | some (.array true items) => some (t.set k (.array true (items ++ [.table .header []])))
  | some _ => none

end Uncomment.Toml
