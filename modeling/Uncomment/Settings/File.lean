import Uncomment.Text.Cut
import Uncomment.Error
import Uncomment.Settings.Basic
import Uncomment.Toml.Document
import Uncomment.Text.Utf8

/-! # Settings files

A settings file is a TOML document with placeholders. `SettingsFile.ofText` fills the placeholders,
reads the document and checks what it says. Keys without a meaning are passed over.

A placeholder is a dollar sign and the name of an environment variable in braces.
`Placeholder.names` finds them from left to right, in one pass; `Placeholder.fill` puts the values
in their places, or names every variable that has none. A value is never searched for further
placeholders. Empty braces are no placeholder, and a name may hold anything but a closing brace.

The section is a table; an array of its values in order serves as well, and a date-time counts as a
section that says nothing. -/

namespace Uncomment.Placeholder

/-! ### Placeholders -/

/-- The name in a text that starts with a placeholder. -/
def nameIn (t : Text) : Text := (t.drop 2).takeWhile (· ≠ '\x7d')

/-- The length of the placeholder that starts a text, if one does. -/
def length? : Text → Option Nat
  | '$' :: '\x7b' :: r =>
    let name := r.takeWhile (· ≠ '\x7d')
    if name.isEmpty || name.length = r.length then none else some (name.length + 3)
  | _ => none

/-- The variables of a text, in order and as often as they occur. -/
def names (t : Text) : List Text :=
  (t.cut length?).filterMap fun | .stretch u => some (nameIn u) | .char _ => none

/-- The text with the values of its variables, or the names of those that have none. -/
def fill (value? : Text → Option Text) (t : Text) : Except Error Text :=
  match (names t).filter fun name => (value? name).isNone with
  | [] => .ok (t.replace length? fun u => (value? (nameIn u)).getD [])
  | undefined => .error (.config (.undefinedVariables (undefined.map String.ofList)))

end Uncomment.Placeholder

namespace Uncomment

/-! ### The environment and the document -/

/-- The variables of the environment, with their values as bytes. -/
abbrev Environment := List (String × Bytes)

namespace Environment

/-- A name and the equals sign behind it, as bytes. -/
def opening (name : String) : Bytes := Utf8.encode (name.toList ++ ['='])

/-- What stands behind a name and an equals sign in the entry of a variable, which is its own name,
an equals sign and its value. A name that holds an equals sign itself reaches into the value. -/
def entryValue? (name : String) (v : String × Bytes) : Option Bytes :=
  let entry := opening v.1 ++ v.2
  if (opening name).isPrefixOf entry then some (entry.drop (opening name).length) else none

/-- The value of a variable, if it has one and that is UTF-8. -/
def value? (env : Environment) (name : String) : Option Text :=
  (env.findSome? (entryValue? name)).bind fun bytes => (Utf8.decode bytes).toOption

end Environment

namespace Section

/-- A language id. -/
def language? : Toml.Value → Option String
  | .string s => some (String.ofList s)
  | _ => none

/-- A byte limit. -/
def limit? : Toml.Value → Option Nat
  | .integer n => if 0 ≤ n && n < byteLimitBound then some n.toNat else none
  | _ => none

/-- A flag. -/
def flag? : Toml.Value → Option Bool
  | .boolean b => some b
  | _ => none

/-- The setting at a key, which may be missing but not of the wrong kind. -/
def entry? {α : Type} (read : Toml.Value → Option α) (t : Toml.Table) (key : String) :
    Option (Option α) :=
  match t.lookup key.toList with
  | none => some none
  | some v => (read v).map some

/-- The section that a value stands for. Of an array nothing behind the third item matters. -/
def ofToml? : Toml.Value → Option Section
  | .table _ entries => do
    if !Toml.Table.isHeld entries then none
    return {
      language := ← entry? language? entries "language"
      maxFileBytes := ← entry? limit? entries "max_file_bytes"
      inPlace := ← entry? flag? entries "in_place" }
  | .array _ (l :: m :: p :: _) => do
    return {
      language := some (← language? l)
      maxFileBytes := some (← limit? m)
      inPlace := some (← flag? p) }
  | .moment _ => some {}
  | _ => none

end Section

namespace SettingsFile

/-- The settings file with the given top table. -/
def ofToml? (t : Toml.Table) : Option SettingsFile :=
  let key := "strip".toList
  if !Toml.Table.isHeld (t.filter (·.1 ≠ key)) then none
  else
    match t.lookup key with
    | none => some {}
    | some v => (Section.ofToml? v).map fun sec => { strip := some sec }

/-- Reads a settings file from its text. -/
def ofText (env : Environment) (t : Text) : Except Error SettingsFile := do
  let filled ← Placeholder.fill (fun name => env.value? (String.ofList name)) t
  match (Toml.parse? filled).bind ofToml? with
  | none => .error (.config .malformed)
  | some file =>
    file.check
    return file

/-- Reads a settings file from its bytes. -/
def ofBytes (env : Environment) (data : Except Fault Bytes) : Except Error SettingsFile :=
  match data with
  | .error fault => .error (.io fault)
  | .ok bytes =>
    match Utf8.decode bytes with
    | .error _ => .error (.io .notUtf8)
    | .ok t => ofText env t

end SettingsFile
end Uncomment
