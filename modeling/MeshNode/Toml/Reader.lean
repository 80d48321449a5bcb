import MeshNode.Text.Digits
import MeshNode.Toml

/-!
# Reading the TOML of settings

A reader takes characters from the front of a text and answers with what they stand for and with the
characters after them. A line ends with a line feed, which a carriage return may precede; a carriage
return anywhere else is a control character, and of those only the tab may be written as it is.
-/

namespace MeshNode.Toml

/-- A reader of characters. -/
abbrev Reader (α : Type) := List Char → Except Fault (α × List Char)

/-! ### Space -/

/-- A space or a tab. -/
def isBlank (c : Char) : Bool := c = ' ' || c = '\t'

/-- A character that may be written as it is: anything but a control character, and the tab. -/
def isPlain (c : Char) : Bool := c = '\t' || (' ' ≤ c && c ≠ '\x7f')

/-- Drops spaces and tabs. -/
def skipBlanks (s : List Char) : List Char := s.dropWhile isBlank

/-- Drops blanks, comments and the ends of lines. -/
def skipSpace (inComment : Bool) : List Char → List Char
  | [] => []
  | '\r' :: '\n' :: rest => skipSpace false rest
  | c :: rest =>
    if c = '\n' then skipSpace false rest
    else if isBlank c then skipSpace inComment rest
    else if inComment then (if isPlain c then skipSpace true rest else c :: rest)
    else if c = '#' then skipSpace true rest
    else c :: rest

/-- Drops the end of a line at the very front. -/
def dropNewline : List Char → List Char
  | '\n' :: rest => rest
  | '\r' :: '\n' :: rest => rest
  | s => s

/-- Reads the rest of a line, which has nothing on it but a comment. -/
def readLineEnd : Reader Unit := fun s =>
  let s := match skipBlanks s with
    | '#' :: rest => rest.dropWhile isPlain
    | s => s
  match s with
  | [] => .ok ((), [])
  | '\n' :: rest => .ok ((), rest)
  | '\r' :: '\n' :: rest => .ok ((), rest)
  | _ => .error .expectedLineEnd

/-! ### Strings -/

/-- The character whose number is written in hexadecimal. -/
def scalar? (ds : List Char) : Option Char :=
  let n := Text.number 16 ds
  if ds.all (Text.isDigit 16) ∧ n.isValidChar then some (Char.ofNat n) else none

/-- The character that a letter after a backslash stands for. -/
def escaped? (letter : Char) : Option Char :=
  if letter = 'b' then some '\x08'
  else if letter = 't' then some '\t'
  else if letter = 'n' then some '\n'
  else if letter = 'f' then some '\x0c'
  else if letter = 'r' then some '\r'
  else if letter = '"' then some '"'
  else if letter = '\\' then some '\\'
  else none

/-- Reads a character written as its number in so many digits. -/
def readScalar (digits : Nat) : Reader Char := fun s =>
  match scalar? (s.take digits) with
  | some c => if digits ≤ s.length then .ok (c, s.drop digits) else .error .badEscape
  | none => .error .badEscape

/-- Reads what follows a backslash. -/
def readEscape : Reader Char
  | 'u' :: rest => readScalar 4 rest
  | 'U' :: rest => readScalar 8 rest
  | c :: rest =>
    match escaped? c with
    | some c => .ok (c, rest)
    | none => .error .badEscape
  | [] => .error .badEscape

/-- Reads to the end of a string between double quotes; each round takes at least a character. -/
def readBasic : (rounds : Nat) → (text : List Char) → Reader String
  | _, text, '"' :: rest => .ok (.ofList text.reverse, rest)
  | 0, _, _ => .error .unclosedText
  | rounds + 1, text, '\\' :: rest =>
    match readEscape rest with
    | .ok (c, rest) => readBasic rounds (c :: text) rest
    | .error e => .error e
  | rounds + 1, text, c :: rest =>
    if isPlain c then readBasic rounds (c :: text) rest else .error .badCharacter
  | _, _, [] => .error .unclosedText

/-- Drops blanks and the ends of lines. -/
def dropLines : List Char → List Char
  | '\r' :: '\n' :: rest => dropLines rest
  | c :: rest => if isBlank c ∨ c = '\n' then dropLines rest else c :: rest
  | [] => []

/-- The text after a backslash at the end of a line, which continues at the next character that is
no blank. -/
def continuation? (s : List Char) : Option (List Char) :=
  match skipBlanks s with
  | '\n' :: rest => some (dropLines rest)
  | '\r' :: '\n' :: rest => some (dropLines rest)
  | _ => none

/-- Reads to the end of a string between triple double quotes. Up to two quotes may stand right
before its end. -/
def readLongBasic : (rounds : Nat) → (text : List Char) → Reader String
  | _, text, '"' :: '"' :: '"' :: '"' :: '"' :: rest =>
    .ok (.ofList ('"' :: '"' :: text).reverse, rest)
  | _, text, '"' :: '"' :: '"' :: '"' :: rest => .ok (.ofList ('"' :: text).reverse, rest)
  | _, text, '"' :: '"' :: '"' :: rest => .ok (.ofList text.reverse, rest)
  | 0, _, _ => .error .unclosedText
  | rounds + 1, text, '\\' :: rest =>
    match continuation? rest with
    | some rest => readLongBasic rounds text rest
    | none =>
      match readEscape rest with
      | .ok (c, rest) => readLongBasic rounds (c :: text) rest
      | .error e => .error e
  | rounds + 1, text, '\r' :: '\n' :: rest => readLongBasic rounds ('\n' :: text) rest
  | rounds + 1, text, c :: rest =>
    if isPlain c ∨ c = '\n' then readLongBasic rounds (c :: text) rest else .error .badCharacter
  | _, _, [] => .error .unclosedText

/-- Reads to the end of a string between single quotes. -/
def readLiteral (text : List Char) : Reader String
  | '\x27' :: rest => .ok (.ofList text.reverse, rest)
  | c :: rest => if isPlain c then readLiteral (c :: text) rest else .error .badCharacter
  | [] => .error .unclosedText

/-- Reads to the end of a string between triple single quotes. Up to two quotes may stand right
before its end. -/
def readLongLiteral (text : List Char) : Reader String
  | '\x27' :: '\x27' :: '\x27' :: '\x27' :: '\x27' :: rest =>
    .ok (.ofList ('\x27' :: '\x27' :: text).reverse, rest)
  | '\x27' :: '\x27' :: '\x27' :: '\x27' :: rest => .ok (.ofList ('\x27' :: text).reverse, rest)
  | '\x27' :: '\x27' :: '\x27' :: rest => .ok (.ofList text.reverse, rest)
  | '\r' :: '\n' :: rest => readLongLiteral ('\n' :: text) rest
  | c :: rest =>
    if isPlain c ∨ c = '\n' then readLongLiteral (c :: text) rest else .error .badCharacter
  | [] => .error .unclosedText

/-- Reads a string on one line. -/
def readShortText : Reader String
  | '"' :: rest => readBasic rest.length [] rest
  | '\x27' :: rest => readLiteral [] rest
  | _ => .error .expectedValue

/-- Reads a string in any of the four notations. -/
def readText : Reader String
  | '"' :: '"' :: '"' :: rest => let s := dropNewline rest; readLongBasic s.length [] s
  | '\x27' :: '\x27' :: '\x27' :: rest => readLongLiteral [] (dropNewline rest)
  | s => readShortText s

/-! ### Integers -/

/-- Splits off digits, between which single underscores may stand. -/
def spanDigits (base : Nat) : List Char → List Char × List Char
  | '_' :: d :: rest =>
    if Text.isDigit base d then
      let (ds, rest) := spanDigits base rest
      (d :: ds, rest)
    else ([], '_' :: d :: rest)
  | d :: rest =>
    if Text.isDigit base d then
      let (ds, rest) := spanDigits base rest
      (d :: ds, rest)
    else ([], d :: rest)
  | [] => ([], [])

/-- Reads digits in a base. -/
def readDigits (base : Nat) : Reader Nat := fun s =>
  if s.head? = some '_' then .error .expectedValue
  else
    match spanDigits base s with
    | ([], _) => .error .expectedValue
    | (ds, rest) => .ok (Text.number base ds, rest)

/-- Reads a decimal number, which has no leading zeros. -/
def readDecimal : Reader Nat
  | '0' :: rest => .ok (0, rest)
  | s => readDigits 10 s

/-- Reads an integer of 64 bits. A base other than ten is named by two characters in front, and
leaves no room for a sign. -/
def readInteger : Reader Int := fun s =>
  let found : Except Fault (Int × List Char) := match s with
    | '0' :: 'x' :: rest => (readDigits 16 rest).map fun (n, rest) => (↑n, rest)
    | '0' :: 'o' :: rest => (readDigits 8 rest).map fun (n, rest) => (↑n, rest)
    | '0' :: 'b' :: rest => (readDigits 2 rest).map fun (n, rest) => (↑n, rest)
    | '+' :: rest => (readDecimal rest).map fun (n, rest) => (↑n, rest)
    | '-' :: rest => (readDecimal rest).map fun (n, rest) => (-↑n, rest)
    | s => (readDecimal s).map fun (n, rest) => (↑n, rest)
  match found with
  | .ok (n, rest) =>
    if -0x8000000000000000 ≤ n ∧ n < 0x8000000000000000 then .ok (n, rest)
    else .error .integerTooGreat
  | .error e => .error e

/-! ### Documents -/

/-- Reads the rest of an array of strings; each round takes one of them. -/
def readItems : (rounds : Nat) → Reader (List String)
  | 0, _ => .error .expectedSeparator
  | rounds + 1, s =>
    match skipSpace false s with
    | ']' :: rest => .ok ([], rest)
    | s =>
      match readText s with
      | .error e => .error e
      | .ok (item, s) =>
        match skipSpace false s with
        | ']' :: rest => .ok ([item], rest)
        | ',' :: rest => (readItems rounds rest).map fun (items, rest) => (item :: items, rest)
        | _ => .error .expectedSeparator

/-- Reads a value. -/
def readValue : Reader Value
  | '[' :: rest => (readItems rest.length rest).map fun (items, rest) => (.texts items, rest)
  | '"' :: rest => (readText ('"' :: rest)).map fun (s, rest) => (.text s, rest)
  | '\x27' :: rest => (readText ('\x27' :: rest)).map fun (s, rest) => (.text s, rest)
  | s => (readInteger s).map fun (n, rest) => (.int n, rest)

/-- A character of a key without quotes. -/
def isKeyChar (c : Char) : Bool := c.isAlphanum || c = '_' || c = '-'

/-- Reads a key. -/
def readKey : Reader String := fun s =>
  match s.takeWhile isKeyChar with
  | [] => (readShortText s).mapError fun e => if e = .expectedValue then .expectedKey else e
  | key => .ok (.ofList key, s.dropWhile isKeyChar)

/-- Reads a line with a key and its value. -/
def readLine : Reader (String × Value) := fun s => do
  let (key, s) ← readKey s
  match skipBlanks s with
  | '=' :: s => do
    let (value, s) ← readValue (skipBlanks s)
    let ((), s) ← readLineEnd s
    return ((key, value), s)
  | _ => throw .expectedEquals

/-- Reads lines to the end of the text; each round takes one of them. -/
def readLines : (rounds : Nat) → Document → List Char → Except Fault Document
  | 0, _, _ => .error .expectedKey
  | rounds + 1, before, s =>
    match skipSpace false s with
    | [] => .ok before
    | s =>
      match readLine s with
      | .error e => .error e
      | .ok ((key, value), rest) =>
        if before.any (·.1 = key) then .error (.repeatedKey key)
        else readLines rounds (before ++ [(key, value)]) rest

/-- Reads a document; a byte order mark may stand in front. -/
def Document.ofText (text : String) : Except Fault Document :=
  let s := match text.toList with
    | '\ufeff' :: rest => rest
    | s => s
  readLines (s.length + 1) [] s

end MeshNode.Toml
