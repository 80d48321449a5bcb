import MeshNode.Json
import MeshNode.Json.Fault
import MeshNode.Decimal

/-!
# Reading scalars

Readers of blanks, words, numbers and strings. A number without a point or exponent that fits 64
bits is exact. Every other number is rounded in two steps: the digits that fit an unsigned 64-bit
integer become a double, which is then multiplied or divided by a power of ten.
-/

namespace MeshNode.Json

/-- Drops blanks: space, tab, line feed and carriage return. -/
def skipBlanks : Bytes → Bytes
  | [] => []
  | b :: rest => if b = 32 ∨ b = 10 ∨ b = 9 ∨ b = 13 then skipBlanks rest else b :: rest

/-- Reads the remaining letters of a word. -/
def readWord : (letters : Bytes) → Reader Unit
  | [], s => .ok ((), s)
  | _ :: _, [] => .error (.here .endInValue [])
  | l :: letters, b :: rest =>
    if b = l then readWord letters rest else .error (.here .expectedWord rest)

/-- Reads `null` after its first letter. -/
def readNull : Reader Unit := readWord [117, 108, 108]

/-- Reads `true` after its first letter. -/
def readTrue : Reader Unit := readWord [114, 117, 101]

/-- Reads `false` after its first letter. -/
def readFalse : Reader Unit := readWord [97, 108, 115, 101]

/-! ### Numbers -/

/-- The greatest unsigned 64-bit integer. -/
def maxWord : Nat := 0xffffffffffffffff

/-- Appends digits to a number while it fits 64 bits; also answers with the digits left over. -/
def appendDigits (n : Nat) : Bytes → Nat × Bytes
  | [] => (n, [])
  | d :: ds =>
    let next := 10 * n + Decimal.digitValue d
    if next ≤ maxWord then appendDigits next ds else (n, d :: ds)

/-- Splits off the leading digits. -/
def spanDigits (s : Bytes) : Bytes × Bytes := s.span Decimal.isDigit

/-- `10 ^ k` as a double. -/
def powerOfTen (k : Nat) : Float := Float.ofScientific 1 false k

/-- Divides by `10 ^ k`, by at most `10 ^ 308` at a time. -/
def divideByPower (f : Float) (k : Nat) : (steps : Nat) → Float
  | 0 => f / powerOfTen k
  | steps + 1 =>
    if k ≤ 308 then f / powerOfTen k
    else if f == 0.0 then f
    else divideByPower (f / powerOfTen 308) (k - 308) steps

/-- The double nearest to `significand`, scaled by a power of ten; nothing if it is too great. -/
def scale? (significand : Nat) (exponent : Int) : Option Float :=
  let f := significand.toUInt64.toFloat
  if exponent < 0 then some (divideByPower f exponent.natAbs 4)
  else if 308 < exponent then (if f == 0.0 then some f else none)
  else
    let g := f * powerOfTen exponent.toNat
    if g.isInf then none else some g

/-- A double with a sign. -/
def signed (positive : Bool) (f : Float) : Number := .float (if positive then f else -f).toBits

/-- The number made of a sign, a significand and a power of ten. -/
def finishFloat (positive : Bool) (significand : Nat) (exponent : Int) : Reader Number := fun s =>
  match scale? significand exponent with
  | some f => .ok (signed positive f, s)
  | none => .error (.here .numberOutOfRange s)

/-- The greatest exponent that is followed digit by digit. -/
def maxExponent : Nat := 0x7fffffff

/-- Reads the digits of an exponent, of which the first is there; nothing for one beyond
`maxExponent`, with the text after the digit that went beyond. -/
def exponentDigits (n : Nat) : Bytes → Option Nat × Bytes
  | [] => (some n, [])
  | d :: rest =>
    if Decimal.isDigit d then
      let next := 10 * n + Decimal.digitValue d
      if next ≤ maxExponent then exponentDigits next rest else (none, rest)
    else (some n, d :: rest)

/-- Reads an exponent after its letter. -/
def readExponent (positive : Bool) (significand : Nat) (start : Int) : Reader Number := fun s =>
  let (up, s) := match s with
    | 43 :: rest => (true, rest)
    | 45 :: rest => (false, rest)
    | _ => (true, s)
  match s with
  | [] => .error (.here .endInValue [])
  | d :: rest =>
    if Decimal.isDigit d then
      match exponentDigits (Decimal.digitValue d) rest with
      | (some n, s) => finishFloat positive significand (if up then start + n else start - n) s
      | (none, s) =>
        if significand ≠ 0 ∧ up then .error (.here .numberOutOfRange s)
        else .ok (signed positive 0.0, (spanDigits s).2)
    else .error (.here .invalidNumber rest)

/-- Reads an exponent if one follows. -/
def readOptionalExponent (positive : Bool) (significand : Nat) (exponent : Int) : Reader Number
  | 101 :: rest => readExponent positive significand exponent rest
  | 69 :: rest => readExponent positive significand exponent rest
  | s => finishFloat positive significand exponent s

/-- Reads the fraction after its point. -/
def readFraction (positive : Bool) (significand : Nat) (exponent : Int) : Reader Number := fun s =>
  let (ds, rest) := spanDigits s
  match ds with
  | [] => .error (.next (if s.isEmpty then .endInValue else .invalidNumber) s)
  | _ =>
    let (significand, left) := appendDigits significand ds
    readOptionalExponent positive significand (exponent - (ds.length - left.length : Nat)) rest

/-- The integer with a sign, or the double minus zero. -/
def finishInteger (positive : Bool) (n : Nat) : Number :=
  if positive then .int n
  else if n = 0 then signed false 0.0
  else if n ≤ 0x8000000000000000 then .int (-n)
  else signed false n.toUInt64.toFloat

/-- Reads what follows the integer digits, of which `left` did not fit 64 bits. -/
def readAfterDigits (positive : Bool) (significand : Nat) (left : Bytes) : Reader Number
  | 46 :: rest => readFraction positive significand left.length rest
  | s =>
    match s, left with
    | 101 :: rest, _ => readExponent positive significand left.length rest
    | 69 :: rest, _ => readExponent positive significand left.length rest
    | _, [] => .ok (finishInteger positive significand, s)
    | _, _ => finishFloat positive significand left.length s

/-- Reads a number after its sign. -/
def readNumber (positive : Bool) : Reader Number
  | [] => .error (.here .endInValue [])
  | d :: rest =>
    if d = 48 then
      match rest with
      | e :: _ =>
        if Decimal.isDigit e then .error (.next .invalidNumber rest)
        else readAfterDigits positive 0 [] rest
      | [] => readAfterDigits positive 0 [] rest
    else if Decimal.isDigit d then
      let (ds, rest) := spanDigits rest
      let (significand, left) := appendDigits (Decimal.digitValue d) ds
      readAfterDigits positive significand left rest
    else .error (.here .invalidNumber rest)

/-! ### Strings -/

/-- The number that four hexadecimal digits stand for. -/
def hexQuad? (a b c d : UInt8) : Option Nat := do
  let digit (x : UInt8) : Option Nat :=
    if 48 ≤ x ∧ x ≤ 57 then some (x.toNat - 48)
    else if 97 ≤ x ∧ x ≤ 102 then some (x.toNat - 87)
    else if 65 ≤ x ∧ x ≤ 70 then some (x.toNat - 55)
    else none
  let p ← digit a
  let q ← digit b
  let r ← digit c
  let s ← digit d
  return ((p * 16 + q) * 16 + r) * 16 + s

/-- Reads four hexadecimal digits. -/
def readHexQuad : Reader Nat
  | a :: b :: c :: d :: rest =>
    match hexQuad? a b c d with
    | some n => .ok (n, rest)
    | none => .error (.here .invalidEscape rest)
  | _ => .error (.here .endInString [])

/-- Reads the second half of a surrogate pair with its backslash. -/
def readLowSurrogate (high : Nat) : Reader Char
  | [] => .error (.here .endInString [])
  | 92 :: [] => .error (.here .endInString [])
  | 92 :: 117 :: rest =>
    match readHexQuad rest with
    | .error e => .error e
    | .ok (low, rest) =>
      if low < 0xDC00 ∨ 0xDFFF < low then .error (.here .loneSurrogate rest)
      else .ok (Char.ofNat ((high - 0xD800) * 1024 + (low - 0xDC00) + 0x10000), rest)
  | 92 :: _ :: rest => .error (.here .unfinishedSurrogate rest)
  | _ :: rest => .error (.here .unfinishedSurrogate rest)

/-- The byte an escape letter stands for. -/
def unescapeLetter? (letter : UInt8) : Option UInt8 :=
  if letter = 34 then some 34
  else if letter = 92 then some 92
  else if letter = 47 then some 47
  else if letter = 98 then some 8
  else if letter = 102 then some 12
  else if letter = 110 then some 10
  else if letter = 114 then some 13
  else if letter = 116 then some 9
  else none

/-- Reads an escape after its backslash, as the bytes it stands for. -/
def readEscape : Reader Bytes
  | [] => .error (.here .endInString [])
  | 117 :: rest =>
    match readHexQuad rest with
    | .error e => .error e
    | .ok (n, rest) =>
      if 0xDC00 ≤ n ∧ n ≤ 0xDFFF then .error (.here .loneSurrogate rest)
      else if 0xD800 ≤ n ∧ n ≤ 0xDBFF then
        match readLowSurrogate n rest with
        | .error e => .error e
        | .ok (c, rest) => .ok (String.utf8EncodeChar c, rest)
      else .ok (String.utf8EncodeChar (Char.ofNat n), rest)
  | letter :: rest =>
    match unescapeLetter? letter with
    | some b => .ok ([b], rest)
    | none => .error (.here .invalidEscape rest)

/-- Reads the bytes of a string up to its closing quote, given those read so far in reverse. Each
round takes at least one byte, so the length of the text is enough rounds. -/
def readStringBytes : (rounds : Nat) → (reversed : Bytes) → Reader Bytes
  | 0, _, s => .error (.here .endInString s)
  | _ + 1, _, [] => .error (.here .endInString [])
  | rounds + 1, reversed, b :: rest =>
    if b = 34 then .ok (reversed.reverse, rest)
    else if b = 92 then
      match readEscape rest with
      | .error e => .error e
      | .ok (bs, rest) => readStringBytes rounds (bs.reverse ++ reversed) rest
    else if b < 32 then .error (.here .controlInString rest)
    else readStringBytes rounds (b :: reversed) rest

/-- Reads a string after its opening quote. That it is no text is noticed at its closing quote. -/
def readString : Reader String := fun s =>
  match readStringBytes (s.length + 1) [] s with
  | .error e => .error e
  | .ok (bytes, rest) =>
    match bytes.text? with
    | some text => .ok (text, rest)
    | none => .error ⟨.invalidUnicode, some (rest.length + 1), rest, []⟩

end MeshNode.Json
