import Uncomment.Json
import Uncomment.Language
import Uncomment.Settings.Basic

/-! # Settings as JSON

Readers of settings, settings files and languages from JSON texts.

A record is written as an object, where fields without a meaning are passed over and no field comes
twice, or as an array of the values of all its fields in order. A record is filled field by field:
each `Field` reads its value into the record so far. -/

namespace Uncomment.Json

/-! ### Values and records -/

/-- A string. -/
def string : Reader String := fun t =>
  match skipBlanks t with
  | '"' :: r => (stringFrom .wanted 0 r).map fun (s, rest) => (String.ofList s, rest)
  | t => .error (mismatch t)

/-- A truth value. -/
def boolean : Reader Bool := fun t =>
  match skipBlanks t with
  | 't' :: r => (word ['r', 'u', 'e'] r).map (true, ·)
  | 'f' :: r => (word ['a', 'l', 's', 'e'] r).map (false, ·)
  | t => .error (mismatch t)

/-- A natural number below 2 ^ 64. -/
def natural : Reader Nat := fun t =>
  match skipBlanks t with
  | c :: r =>
    if c = '-' || Text.isDigit c then
      match number .wanted (c :: r) with
      | .ok (.natural n, rest) => .ok (n, rest)
      | .ok (.other, _) => .error .mismatched
      | .error e => .error e
    else .error (mismatch (c :: r))
  | [] => .error .truncated

/-- The value null. -/
def null : Reader Unit := fun t =>
  match skipBlanks t with
  | 'n' :: r => (word ['u', 'l', 'l'] r).map ((), ·)
  | t => .error (mismatch t)

/-- A value, or null. -/
def optional {α : Type} (read : Reader α) : Reader (Option α) := fun t =>
  match skipBlanks t with
  | 'n' :: r => (word ['u', 'l', 'l'] r).map (none, ·)
  | t => (read t).map fun (a, rest) => (some a, rest)

/-- A field of a record. -/
structure Field (σ : Type) where
  key : String
  /-- An object without the field will not do. -/
  required : Bool
  /-- Reads the value of the field into a record. -/
  read : σ → Reader σ

/-- A field whose value `read` reads and `set` puts into the record. -/
def Field.of {σ α : Type} (key : String) (required : Bool) (read : Reader α) (set : σ → α → σ) :
    Field σ where
  key := key
  required := required
  read s t := (read t).map fun (a, rest) => (set s a, rest)

variable {σ : Type}

/-- One field of an object, behind the opening quote of its key. `seen` holds the keys before it. -/
def member (fields : List (Field σ)) (seen : List String) (s : σ) (t : Text) :
    Except Fault (List String × σ × Text) := do
  let (key, t) ← stringFrom .wanted 0 t
  let key := String.ofList key
  match fields.find? (·.key == key) with
  | none => return (seen, s, ← skipValue (← colon t))
  | some f =>
    if seen.contains key then .error .mismatched
    let (s, t) ← f.read s (← colon t)
    return (key :: seen, s, t)

/-- The fields of an object behind its brace, or behind one of its fields. -/
def members (fields : List (Field σ)) : (fuel : Nat) → (first : Bool) → List String → σ → Reader σ
  | 0, _, _, _, _ => .error .truncated
  | n + 1, first, seen, s, t =>
    match skipBlanks t with
    | [] => .error .truncated
    | '\x7d' :: r =>
      if fields.any fun f => f.required && !seen.contains f.key then .error .mismatched
      else .ok (s, r)
    | c :: r =>
      if !first && c ≠ ',' then .error .malformed
      else
        match (if first then c :: r else skipBlanks r) with
        | [] => .error .truncated
        | '"' :: r => do
          let (seen, s, r) ← member fields seen s r
          members fields n false seen s r
        | _ => .error .malformed

/-- The values of all fields, as items of an array. -/
def items : (first : Bool) → List (Field σ) → σ → Reader σ
  | _, [], s, t => .ok (s, t)
  | first, f :: fs, s, t =>
    match skipBlanks t with
    | [] => .error .truncated
    | ']' :: _ => .error .mismatched
    | c :: r =>
      if !first && c ≠ ',' then .error .malformed
      else
        match (if first then c :: r else skipBlanks r) with
        | [] => .error .truncated
        | ']' :: _ => .error .malformed
        | r => do
          let (s, r) ← f.read s r
          items false fs s r

/-- A record with the given fields, filled from a start value. -/
def record (fields : List (Field σ)) (start : σ) : Reader σ := fun t =>
  match skipBlanks t with
  | '\x7b' :: r => members fields (r.length + 1) true [] start r
  | '[' :: r => do
    let (s, r) ← items true fields start r
    match skipBlanks r with
    | [] => .error .truncated
    | ']' :: r => .ok (s, r)
    | _ => .error .malformed
  | t => .error (mismatch t)

/-- One of several names, as a string or as the only key of an object whose value is null. -/
def choice {α : Type} (ofName : String → Option α) : Reader α := fun t => do
  let named (t : Text) : Except Fault (α × Text) := do
    let (name, t) ← stringFrom .wanted 0 t
    match ofName (String.ofList name) with
    | some a => .ok (a, t)
    | none => .error .mismatched
  match skipBlanks t with
  | [] => .error .truncated
  | '"' :: r => named r
  | '\x7b' :: r =>
    match skipBlanks r with
    | [] => .error .truncated
    | '"' :: r =>
      let (a, r) ← named r
      let (_, r) ← null (← colon r)
      match skipBlanks r with
      | [] => .error .truncated
      | '\x7d' :: r => .ok (a, r)
      | _ => .error .malformed
    | _ => .error .malformed
  | _ => .error .malformed

/-- The value that a whole text stands for. -/
def whole {α : Type} (read : Reader α) (t : Text) : Except Fault α := do
  let (a, rest) ← read t
  if (skipBlanks rest).isEmpty then .ok a else .error .malformed

end Uncomment.Json

namespace Uncomment

/-! ### Settings -/

/-- The failure to read a JSON text. -/
def Error.ofJson (f : Json.Fault) : Error := .json f.message

/-- The fields of settings, in order. -/
def Settings.jsonFields : List (Json.Field Settings) :=
  [.of "input" true Json.string fun s v => { s with input := v },
    .of "output" false (Json.optional Json.string) fun s v => { s with output := v },
    .of "language" false (Json.optional Json.string) fun s v => { s with language := v },
    .of "in_place" true Json.boolean fun s v => { s with inPlace := v },
    .of "max_file_bytes" true Json.natural fun s v => { s with maxFileBytes := v },
    .of "report" true Json.boolean fun s v => { s with report := v }]

/-- Reads settings from JSON. Every field of the start value that counts is required, so nothing of
it is left in the result. -/
def Settings.ofJson : Text → Except Json.Fault Settings :=
  Json.whole (Json.record Settings.jsonFields
    { input := "", output := none, language := none, inPlace := false, maxFileBytes := 0,
      report := false })

/-- The fields of a section, in order. -/
def Section.jsonFields : List (Json.Field Section) :=
  [.of "language" false (Json.optional Json.string) fun s v => { s with language := v },
    .of "max_file_bytes" false (Json.optional Json.natural) fun s v => { s with maxFileBytes := v },
    .of "in_place" false (Json.optional Json.boolean) fun s v => { s with inPlace := v }]

/-- Reads a settings file from JSON. -/
def SettingsFile.ofJson : Text → Except Json.Fault SettingsFile :=
  Json.whole (Json.record
    [.of "strip" false (Json.optional (Json.record Section.jsonFields {}))
      fun s v => { s with strip := v }]
    {})

/-- Reads the name of a language from JSON. -/
def Language.ofJson : Text → Except Json.Fault Language := Json.whole (Json.choice Language.ofName?)

end Uncomment
