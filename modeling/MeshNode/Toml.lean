/-!
# The TOML of settings

Settings are written as a line for each, of a key, an equals sign and a value. A value is a string
in one of the four notations of TOML, an integer in decimal, hexadecimal, octal or binary, or an
array of strings. The rest of TOML, which is tables, dotted keys, floats, booleans, dates and arrays
of anything else, has no place among settings, so that it is refused just as text that is no TOML at
all.
-/

namespace MeshNode.Toml

/-- The value of a key. -/
inductive Value where
  | text (s : String)
  | int (n : Int)
  | texts (items : List String)
  deriving DecidableEq, Repr

/-- Keys and values in the order they are written in; no key is written twice. -/
abbrev Document := List (String × Value)

/-- Why a text could not be read. -/
inductive Fault where
  | expectedKey
  | expectedEquals
  | expectedValue
  | expectedSeparator
  | expectedLineEnd
  | unclosedText
  | badEscape
  | badCharacter
  | integerTooGreat
  | repeatedKey (key : String)
  /-- A key that no setting has. -/
  | unknownKey (key : String)
  /-- A value that is none for the setting. -/
  | badValue (key : String)
  deriving DecidableEq, Repr

/-- The text of a fault. -/
def Fault.message : Fault → String
  | expectedKey => "expected a key"
  | expectedEquals => "expected an equals sign"
  | expectedValue => "expected a value"
  | expectedSeparator => "expected a comma or the end of the array"
  | expectedLineEnd => "expected the end of the line"
  | unclosedText => "string without an end"
  | badEscape => "invalid escape sequence"
  | badCharacter => "control character in a string"
  | integerTooGreat => "integer out of range"
  | repeatedKey key => "duplicate key " ++ key
  | unknownKey key => "unknown key " ++ key
  | badValue key => "invalid value for " ++ key

end MeshNode.Toml
