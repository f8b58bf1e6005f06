import Uncomment.Text.Basic

/-! # Languages

The languages whose comments can be removed, the names under which they are asked for (`ofId?`)
and the file extensions that announce them (`ofExtension?`). Both compare without regard to ASCII
case; an id is also trimmed, an extension is not.

How a language spells its comments and its string literals is said by its `Rules`
(`Language.rules`). -/

namespace Uncomment

/-- A language whose comments can be removed. -/
inductive Language
  | javascript
  | cpp
  | lua
  | python
  deriving DecidableEq, Repr

namespace Language

/-- Every language. -/
def all : List Language := [.javascript, .cpp, .lua, .python]

/-- The name of a language in reports and messages. -/
def name : Language → String
  | .javascript => "javascript"
  | .cpp => "cpp"
  | .lua => "lua"
  | .python => "python"

/-- The language with exactly this name. -/
def ofName? (n : String) : Option Language := all.find? (·.name == n)

/-- The ids a language answers to, in lower case. -/
def ids : List (String × Language) :=
  [("javascript", .javascript), ("js", .javascript), ("typescript", .javascript),
    ("ts", .javascript), ("cpp", .cpp), ("c++", .cpp), ("c", .cpp), ("lua", .lua),
    ("python", .python), ("py", .python)]

/-- The file extensions of a language, in lower case. -/
def extensions : List (String × Language) :=
  [("js", .javascript), ("mjs", .javascript), ("cjs", .javascript), ("ts", .javascript),
    ("c", .cpp), ("h", .cpp), ("cc", .cpp), ("cpp", .cpp), ("cxx", .cpp), ("hpp", .cpp),
    ("lua", .lua), ("py", .python)]

/-- The text with its ASCII capitals made small. -/
def lowered (t : Text) : String := String.ofList (t.map Char.toLower)

/-- The language with the given id, such as `js` or ` Python `. -/
def ofId? (id : String) : Option Language := ids.lookup (lowered (Text.trim id.toList))

/-- The language of files with the given extension, such as `hpp` or `PY`. -/
def ofExtension? (e : String) : Option Language := extensions.lookup (lowered e.toList)

end Language

/-! ### Comment rules -/

/-- How a language spells its comments and string literals. -/
structure Rules where
  /-- What starts a comment that runs to the end of the line. -/
  marker : Text
  /-- Where this stands, the marker starts no line comment. -/
  except? : Option Text := none
  /-- The two ends of a block comment. -/
  block? : Option (Text × Text) := none
  /-- The quotes of a docstring, in the order in which they are tried. -/
  docQuotes : List Text := []
  /-- The characters that open a string literal and close it again. -/
  delimiters : List Char
  deriving DecidableEq, Repr

namespace Rules

/-- Comments as in C and its relatives; a backquote also delimits literals. -/
def slashes : Rules where
  marker := ['/', '/']
  block? := some (['/', '*'], ['*', '/'])
  delimiters := ['"', '\'', '\x60']

/-- Two dashes start a comment, unless they start a long bracket. -/
def dashes : Rules where
  marker := ['-', '-']
  except? := some ['-', '-', '[', '[']
  block? := some (['-', '-', '[', '['], [']', ']'])
  delimiters := ['"', '\'']

/-- A number sign starts a comment; a statement that is a triple-quoted string is a docstring. -/
def hashes : Rules where
  marker := ['#']
  docQuotes := [['\'', '\'', '\''], ['"', '"', '"']]
  delimiters := ['"', '\'']

end Rules

/-- The comment rules of a language. -/
def Language.rules : Language → Rules
  | .javascript | .cpp => .slashes
  | .lua => .dashes
  | .python => .hashes

end Uncomment
