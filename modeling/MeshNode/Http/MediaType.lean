/-!
# Media types

A media type is a type, a subtype and parameters. JSON is the subtype `json`, which may have a
suffix after a plus sign, and also the suffix `json` of any other subtype.
-/

namespace MeshNode.Http

/-- A character of a name in a header: a letter, a digit or one of some marks. -/
def isTokenChar (c : Char) : Bool := c.isAlphanum || "!#$%&'*+-.^_`|~".toList.contains c

/-- A character that may stand between quotes. -/
def isQuotable (c : Char) : Bool := ' ' ≤ c && c ≠ '\x7f'

/-- Where reading parameters stands. -/
inductive Parameter where
  /-- At the start of a parameter, where blanks may stand. -/
  | start
  /-- In its name. -/
  | name
  /-- At the start of its value. -/
  | equals
  /-- In its value. -/
  | value
  /-- Right after the opening quote of its value, where any character counts as a part of it. -/
  | opened
  /-- Further on between the quotes. -/
  | quoted
  /-- After the closing quote. -/
  | closed

/-- The text is a list of parameters, each after a semicolon, of which the last may be empty. -/
def Parameter.accepts : Parameter → List Char → Bool
  | start, [] => true
  | start, c :: rest =>
    if c = ' ' then accepts start rest else isTokenChar c && accepts name rest
  | name, [] => false
  | name, c :: rest => if c = '=' then accepts equals rest else isTokenChar c && accepts name rest
  | equals, [] => true
  | equals, c :: rest =>
    if c = '"' then accepts opened rest else isTokenChar c && accepts value rest
  | value, [] => true
  | value, c :: rest => if c = ';' then accepts start rest else isTokenChar c && accepts value rest
  | opened, [] => false
  | opened, c :: rest => isQuotable c && accepts quoted rest
  | quoted, [] => false
  | quoted, c :: rest =>
    if c = '"' then accepts closed rest else isQuotable c && accepts quoted rest
  | closed, [] => true
  | closed, c :: rest =>
    if c = ';' then accepts start rest else c = ' ' && accepts closed rest

/-- The parts of a subtype before and after its last plus sign. A plus sign in front does not
count. -/
def splitSuffix (subtype : List Char) : List Char × Option (List Char) :=
  match subtype.reverse.span (· ≠ '+') with
  | (suffix, '+' :: c :: rest) => ((c :: rest).reverse, some suffix.reverse)
  | _ => (subtype, none)

/-- Whether a media type is that of a JSON text. -/
def isJsonType (text : String) : Bool :=
  let (kind, rest) := (text.toList.map Char.toLower).span isTokenChar
  match rest with
  | '/' :: rest =>
    let (subtype, parameters) := rest.span isTokenChar
    let (base, suffix) := splitSuffix subtype
    kind = "application".toList && (base = "json".toList || suffix = some "json".toList) &&
      match parameters with
      | [] => true
      | ';' :: rest => Parameter.start.accepts rest
      | _ => false
  | _ => false

end MeshNode.Http
