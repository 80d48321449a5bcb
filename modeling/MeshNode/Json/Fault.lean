import MeshNode.Bytes
import MeshNode.Text.Quoted

/-!
# What can be wrong with a JSON text

A reader that refuses a text says what is wrong (`Fault`) and, for the caller, at which line and
column. Two kinds of fault are told apart: the text is not JSON, or it is JSON but not of the form
that was asked for (`Fault.mismatch`).

While reading, a place is the number of bytes that are still unread; only the finished report turns
it into line and column. A mismatch may be noticed before the value it concerns has been read to
its end. It then floats, and gets its place from the closing of the array or object around it. The
path of fields and elements down to the fault is collected on the way out.
-/

namespace MeshNode.Json

/-- What is wrong with a text. -/
inductive Fault where
  /-- The text is JSON so far, but not of the expected form. -/
  | mismatch (text : String)
  | endInArray
  | endInObject
  | endInString
  | endInValue
  | expectedColon
  | expectedCommaOrBracket
  | expectedCommaOrBrace
  | expectedWord
  | expectedValue
  | invalidEscape
  | invalidNumber
  | numberOutOfRange
  | invalidUnicode
  | controlInString
  | keyNotString
  | loneSurrogate
  | trailingComma
  | trailingBytes
  | unfinishedSurrogate
  | tooDeep
  deriving DecidableEq, Repr

/-- The text of a fault. -/
def Fault.message : Fault → String
  | mismatch text => text
  | endInArray => "EOF while parsing a list"
  | endInObject => "EOF while parsing an object"
  | endInString => "EOF while parsing a string"
  | endInValue => "EOF while parsing a value"
  | expectedColon => "expected `:`"
  | expectedCommaOrBracket => "expected `,` or `]`"
  | expectedCommaOrBrace => "expected `,` or `\x7d`"
  | expectedWord => "expected ident"
  | expectedValue => "expected value"
  | invalidEscape => "invalid escape"
  | invalidNumber => "invalid number"
  | numberOutOfRange => "number out of range"
  | invalidUnicode => "invalid unicode code point"
  | controlInString =>
    "control character (\\u0000-\\u001F) found while parsing a string"
  | keyNotString => "key must be a string"
  | loneSurrogate => "lone leading surrogate in hex escape"
  | trailingComma => "trailing comma"
  | trailingBytes => "trailing characters"
  | unfinishedSurrogate => "unexpected end of hex escape"
  | tooDeep => "recursion limit exceeded"

/-- Whether the text was JSON, only not of the expected form. -/
def Fault.isMismatch : Fault → Bool
  | mismatch _ => true
  | _ => false

/-- One step from a value to a part of it. -/
inductive Segment where
  | field (name : String)
  | element (index : Nat)
  /-- A field whose name could not be read. -/
  | unnamed
  deriving DecidableEq, Repr

/-- Why reading stopped. -/
structure Failure where
  fault : Fault
  /-- How many bytes were unread at the fault; nothing while the fault floats. -/
  unread : Option Nat
  /-- The bytes that were unread when reading stopped. -/
  rest : Bytes
  /-- The way from the outermost value to the fault. -/
  path : List Segment
  deriving Repr

/-- A reader takes some bytes off the front and answers with a value and the rest. -/
abbrev Reader (α : Type) := Bytes → Except Failure (α × Bytes)

namespace Failure

/-- A fault after the last byte read. -/
def here (fault : Fault) (rest : Bytes) : Failure := ⟨fault, some rest.length, rest, []⟩

/-- A fault in the next byte, or at the end when there is none. -/
def next (fault : Fault) (rest : Bytes) : Failure := ⟨fault, some (rest.length - 1), rest, []⟩

/-- A mismatch whose place is not known yet. -/
def floating (text : String) (rest : Bytes) : Failure := ⟨.mismatch text, none, rest, []⟩

/-- Places a floating fault. -/
def settle (f : Failure) (unread : Nat) : Failure :=
  match f.unread with
  | some _ => f
  | none => { f with unread := some unread }

/-- The failure as seen from the value that holds the faulty part. -/
def under (s : Segment) (f : Failure) : Failure := { f with path := s :: f.path }

end Failure

/-! ### Reports -/

/-- What a caller learns about a text that could not be read. -/
structure ReadError where
  fault : Fault
  /-- Line and column, both counted from one as far as bytes were read; a mismatch of the outermost
  value may have none. -/
  place : Option (Nat × Nat)
  path : List Segment
  deriving Repr, DecidableEq

/-- Line and column after the first `n` bytes of a text. -/
def lineColumn (text : Bytes) (n : Nat) : Nat × Nat :=
  let before := text.take n
  (1 + before.count 10, (before.reverse.takeWhile (· ≠ 10)).length)

/-- The report of a failure on a text. -/
def Failure.report (text : Bytes) (f : Failure) : ReadError :=
  ⟨f.fault, f.unread.map fun u => lineColumn text (text.length - u), f.path⟩

/-- The text of a report. -/
def ReadError.message (e : ReadError) : String :=
  match e.place with
  | none => e.fault.message
  | some (line, column) => s!"{e.fault.message} at line {line} column {column}"

/-- The steps of a path, with a dot before a field that is not the first. -/
private def pathText : Bool → List Segment → String
  | _, [] => ""
  | first, .field name :: rest => (if first then "" else ".") ++ name ++ pathText false rest
  | _, .element index :: rest => s!"[{index}]" ++ pathText false rest
  | first, .unnamed :: rest => (if first then "?" else ".?") ++ pathText false rest

/-- The text of a report after the path to the fault, when the path names anything. -/
def ReadError.messageWithPath (e : ReadError) : String :=
  if e.path.all (· == .unnamed) then e.message else pathText true e.path ++ ": " ++ e.message

end MeshNode.Json
