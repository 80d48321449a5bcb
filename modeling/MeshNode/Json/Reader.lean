import MeshNode.Json.Scalar

/-!
# Reading values

The reader of whole JSON values, the pieces of it that the typed readers share (elements and
members with what separates them, and what closes them), and a reader that passes over a value.

Arrays and objects may nest up to `maxDepth` levels; a value that is passed over may nest as deep
as it likes. `ofBytes` reads a text that holds one value and nothing after it but blanks.
-/

namespace MeshNode.Json

/-- How many arrays and objects may stand inside each other. -/
def maxDepth : Nat := 127

/-! ### Closing brackets -/

/-- Reads the bracket that ends an array. -/
def closeArray : Reader Unit := fun s =>
  match skipBlanks s with
  | 93 :: rest => .ok ((), rest)
  | 44 :: rest =>
    match skipBlanks rest with
    | 93 :: rest => .error (.next .trailingComma (93 :: rest))
    | rest => .error (.next .trailingBytes rest)
  | [] => .error (.next .endInArray [])
  | rest => .error (.next .trailingBytes rest)

/-- Reads the brace that ends an object. -/
def closeObject : Reader Unit := fun s =>
  match skipBlanks s with
  | 125 :: rest => .ok ((), rest)
  | 44 :: rest => .error (.next .trailingComma (44 :: rest))
  | [] => .error (.next .endInObject [])
  | rest => .error (.next .trailingBytes rest)

/-- Where looking for the end of an array leaves off. -/
def pastArray (s : Bytes) : Bytes :=
  match skipBlanks s with
  | 93 :: rest => rest
  | 44 :: rest => skipBlanks rest
  | rest => rest

/-- Where looking for the end of an object leaves off. -/
def pastObject (s : Bytes) : Bytes :=
  match skipBlanks s with
  | 125 :: rest => rest
  | rest => rest

/-- Ends an array: a floating fault gets its place after the end of the array. -/
def endArray {α : Type} (r : Except Failure (α × Bytes)) : Except Failure (α × Bytes) :=
  match r with
  | .ok (a, s) =>
    match closeArray s with
    | .ok ((), rest) => .ok (a, rest)
    | .error e => .error e
  | .error e => .error (e.settle (pastArray e.rest).length)

/-- Ends an object: a floating fault gets its place after the end of the object. -/
def endObject {α : Type} (r : Except Failure (α × Bytes)) : Except Failure (α × Bytes) :=
  match r with
  | .ok (a, s) =>
    match closeObject s with
    | .ok ((), rest) => .ok (a, rest)
    | .error e => .error e
  | .error e => .error (e.settle (pastObject e.rest).length)

/-! ### Elements and members -/

/-- Steps to the next element of an array, which is not read yet; nothing at the closing bracket,
which is not read either. -/
def nextElement (first : Bool) : Reader Bool := fun s =>
  match skipBlanks s with
  | [] => .error (.next .endInArray [])
  | b :: rest =>
    if b = 93 then .ok (false, b :: rest)
    else if first then .ok (true, b :: rest)
    else if b = 44 then
      match skipBlanks rest with
      | [] => .error (.next .endInValue [])
      | c :: rest =>
        if c = 93 then .error (.next .trailingComma (c :: rest)) else .ok (true, c :: rest)
    else .error (.next .expectedCommaOrBracket (b :: rest))

/-- Reads the name of the next member of an object; nothing at the closing brace, which is not
read. -/
def nextMember (first : Bool) : Reader (Option String) := fun s =>
  let name : Reader (Option String) := fun s =>
    match s with
    | [] => .error (.next .endInValue [])
    | b :: rest =>
      if b = 34 then
        match readString rest with
        | .ok (text, rest) => .ok (some text, rest)
        | .error e => .error e
      else if b = 125 then .error (.next .trailingComma (b :: rest))
      else .error (.next .keyNotString (b :: rest))
  match skipBlanks s with
  | [] => .error (.next .endInObject [])
  | b :: rest =>
    if b = 125 then .ok (none, b :: rest)
    else if first then name (b :: rest)
    else if b = 44 then name (skipBlanks rest)
    else .error (.next .expectedCommaOrBrace (b :: rest))

/-- Reads the colon after the name of a member. -/
def readColon : Reader Unit := fun s =>
  match skipBlanks s with
  | [] => .error (.next .endInObject [])
  | b :: rest => if b = 58 then .ok ((), rest) else .error (.next .expectedColon (b :: rest))

/-- Reads the value of a member after its name. -/
def readMemberValue {α : Type} (name : String) (value : Reader α) : Reader α := fun s =>
  match readColon s with
  | .error e => .error (e.under (.field name))
  | .ok ((), rest) => (value rest).mapError (Failure.under (.field name))

/-- Reads all elements from the one numbered `index` on. Each round takes at least one byte. -/
def readElements {α : Type} (element : Reader α) :
    (rounds : Nat) → (index : Nat) → Reader (List α)
  | 0, _, s => .error (.here .endInArray s)
  | rounds + 1, index, s =>
    match nextElement (index = 0) s with
    | .error e => .error (e.under (.element index))
    | .ok (false, rest) => .ok ([], rest)
    | .ok (true, rest) =>
      match element rest with
      | .error e => .error (e.under (.element index))
      | .ok (a, rest) =>
        match readElements element rounds (index + 1) rest with
        | .error e => .error e
        | .ok (as, rest) => .ok (a :: as, rest)

/-- Reads all members. Each round takes at least one byte. -/
def readMembers {α : Type} (value : Reader α) :
    (rounds : Nat) → (first : Bool) → Reader (List (String × α))
  | 0, _, s => .error (.here .endInObject s)
  | rounds + 1, first, s =>
    match nextMember first s with
    | .error e => .error (e.under .unnamed)
    | .ok (none, rest) => .ok ([], rest)
    | .ok (some name, rest) =>
      match readMemberValue name value rest with
      | .error e => .error e
      | .ok (a, rest) =>
        match readMembers value rounds false rest with
        | .error e => .error e
        | .ok (members, rest) => .ok ((name, a) :: members, rest)

/-! ### Values -/

/-- Answers with a fixed value once the rest of a word has been read. -/
def readAs {α β : Type} (word : Reader α) (b : β) : Reader β := fun s =>
  match word s with
  | .ok (_, rest) => .ok (b, rest)
  | .error e => .error e

/-- Maps what a reader answers with. -/
def mapRead {α β : Type} (f : α → β) (r : Except Failure (α × Bytes)) :
    Except Failure (β × Bytes) :=
  match r with
  | .ok (a, rest) => .ok (f a, rest)
  | .error e => .error e

/-- Reads a value whose objects get their fields from `collect`, with at most `levels` arrays and
objects inside each other. -/
def readTree (collect : List (String × Json) → List (String × Json)) :
    (levels : Nat) → Reader Json
  | levels, s =>
    match skipBlanks s with
    | [] => .error (.next .endInValue [])
    | b :: rest =>
      if b = 110 then readAs readNull .null rest
      else if b = 116 then readAs readTrue (.bool true) rest
      else if b = 102 then readAs readFalse (.bool false) rest
      else if b = 45 then mapRead .num (readNumber false rest)
      else if Decimal.isDigit b then mapRead .num (readNumber true (b :: rest))
      else if b = 34 then mapRead .str (readString rest)
      else if b = 91 then
        match levels with
        | 0 => .error (.next .tooDeep (b :: rest))
        | levels + 1 =>
          endArray (mapRead .arr (readElements (readTree collect levels) (rest.length + 1) 0 rest))
      else if b = 123 then
        match levels with
        | 0 => .error (.next .tooDeep (b :: rest))
        | levels + 1 =>
          endObject (mapRead (fun ms => .obj (collect ms))
            (readMembers (readTree collect levels) (rest.length + 1) true rest))
      else .error (.next .expectedValue (b :: rest))

/-- Reads a value; the fields of its objects are put in order, and of two with one name the later
counts. -/
def readValue (levels : Nat) : Reader Json := readTree Keyed.ofList levels

/-- Reads a value with the fields of its objects as they stand, repeated names included. -/
def readVerbatim (levels : Nat) : Reader Json := readTree id levels

/-- Reads a whole text: one value and blanks around it. -/
def readAll {α : Type} (value : Reader α) (text : Bytes) : Except ReadError α :=
  match value text with
  | .error e => .error (e.report text)
  | .ok (a, rest) =>
    match skipBlanks rest with
    | [] => .ok a
    | rest => .error ((Failure.next .trailingBytes rest).report text)

/-- The value that a text holds. -/
def ofBytes (text : Bytes) : Except ReadError Json := readAll (readValue maxDepth) text

/-! ### Passing over a value -/

/-- Passes over an integer's digits, its fraction and its exponent. -/
def skipNumber : Reader Unit := fun s =>
  let exponent : Reader Unit := fun s =>
    let s := match s with
      | 43 :: rest => rest
      | 45 :: rest => rest
      | _ => s
    match s with
    | [] => .error (.here .invalidNumber [])
    | d :: rest =>
      if Decimal.isDigit d then .ok ((), (spanDigits rest).2)
      else .error (.here .invalidNumber rest)
  let optionalExponent : Reader Unit := fun s =>
    match s with
    | 101 :: rest => exponent rest
    | 69 :: rest => exponent rest
    | _ => .ok ((), s)
  let fraction : Reader Unit := fun s =>
    let (ds, rest) := spanDigits s
    if ds.isEmpty then .error (.next .invalidNumber s) else optionalExponent rest
  let afterDigits : Reader Unit := fun s =>
    match s with
    | 46 :: rest => fraction rest
    | _ => optionalExponent s
  match s with
  | [] => .error (.here .invalidNumber [])
  | d :: rest =>
    if d = 48 then
      match rest with
      | e :: _ =>
        if Decimal.isDigit e then .error (.next .invalidNumber rest) else afterDigits rest
      | [] => .ok ((), [])
    else if Decimal.isDigit d then afterDigits (spanDigits rest).2
    else .error (.here .invalidNumber rest)

/-- Passes over a string after its opening quote; what its escapes stand for is not looked at. -/
def skipString : (rounds : Nat) → Reader Unit
  | 0, s => .error (.here .endInString s)
  | _ + 1, [] => .error (.here .endInString [])
  | rounds + 1, b :: rest =>
    if b = 34 then .ok ((), rest)
    else if b = 92 then
      match rest with
      | [] => .error (.here .endInString [])
      | letter :: rest =>
        if letter = 117 then
          match readHexQuad rest with
          | .error e => .error e
          | .ok (_, rest) => skipString rounds rest
        else if (unescapeLetter? letter).isSome then skipString rounds rest
        else .error (.here .invalidEscape rest)
    else if b < 32 then .error (.here .controlInString (b :: rest))
    else skipString rounds rest

/-- Where passing over a value stands: before a value, or after one inside the given brackets.
`brackets` lists the brackets that are open, innermost first. -/
inductive Passing where
  | beforeValue (brackets : Bytes)
  | afterValue (brackets : Bytes)
  /-- Right after an opening bracket. -/
  | opened (bracket : UInt8) (brackets : Bytes)

/-- Passes over the name of a member and its colon. -/
def skipName : Reader Unit := fun s =>
  match skipBlanks s with
  | [] => .error (.next .endInObject [])
  | b :: rest =>
    if b = 34 then
      match skipString (rest.length + 1) rest with
      | .error e => .error e
      | .ok ((), rest) => readColon rest
    else .error (.next .keyNotString (b :: rest))

/-- One step of passing over a value; nothing when the value has ended. -/
def Passing.step : Passing → Reader (Option Passing)
  | .beforeValue brackets, s =>
    let after (r : Except Failure (Unit × Bytes)) :=
      mapRead (fun _ => some (.afterValue brackets)) r
    match skipBlanks s with
    | [] => .error (.next .endInValue [])
    | b :: rest =>
      if b = 110 then after (readNull rest)
      else if b = 116 then after (readTrue rest)
      else if b = 102 then after (readFalse rest)
      else if b = 45 then after (skipNumber rest)
      else if Decimal.isDigit b then after (skipNumber (b :: rest))
      else if b = 34 then after (skipString (rest.length + 1) rest)
      else if b = 91 ∨ b = 123 then .ok (some (.opened b brackets), rest)
      else .error (.next .expectedValue (b :: rest))
  | .afterValue [], s => .ok (none, s)
  | .afterValue (bracket :: brackets), s =>
    match skipBlanks s with
    | [] => .error (.next (if bracket = 91 then .endInArray else .endInObject) [])
    | b :: rest =>
      if b = 44 then
        if bracket = 91 then .ok (some (.beforeValue (bracket :: brackets)), rest)
        else mapRead (fun _ => some (.beforeValue (bracket :: brackets))) (skipName rest)
      else if b = bracket + 2 then .ok (some (.afterValue brackets), rest)
      else
        .error (.next
          (if bracket = 91 then .expectedCommaOrBracket else .expectedCommaOrBrace) (b :: rest))
  | .opened bracket brackets, s =>
    match skipBlanks s with
    | [] => .error (.next (if bracket = 91 then .endInArray else .endInObject) [])
    | b :: rest =>
      if b = bracket + 2 then .ok (some (.afterValue brackets), rest)
      else if bracket = 91 then .ok (some (.beforeValue (bracket :: brackets)), b :: rest)
      else mapRead (fun _ => some (.beforeValue (bracket :: brackets))) (skipName (b :: rest))

/-- Takes steps until the value has ended. -/
def Passing.run : (rounds : Nat) → Passing → Reader Unit
  | 0, _, s => .error (.here .endInValue s)
  | rounds + 1, p, s =>
    match p.step s with
    | .error e => .error e
    | .ok (none, rest) => .ok ((), rest)
    | .ok (some p, rest) => run rounds p rest

/-- Passes over a value. Of any three steps one takes a byte. -/
def skipValue : Reader Unit := fun s => Passing.run (3 * s.length + 3) (.beforeValue []) s

end MeshNode.Json
