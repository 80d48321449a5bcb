import MeshNode.Bytes

/-!
# Base64

Binary fields travel as base64 text. Two dialects are in use, which differ in the symbols for 62
and 63 and in what they ask of the padding: the wire dialect writes no padding and reads any
amount of it up to the canonical one, the file dialect asks for exactly the canonical padding.

Reading refuses everything else with the first thing that is wrong, in this order: a last symbol
outside the alphabet when it is the only one of its quantum; the first symbol outside the alphabet
before the last quantum; then, inside the last quantum, misplaced padding or a foreign symbol, a
quantum of one symbol, missing padding where it is required, and unused bits that are not zero.
-/

namespace MeshNode.Base64

/-- How many padding symbols a text must end with. -/
inductive Padding where
  /-- Any number up to the canonical one. -/
  | optional
  /-- Exactly as many as complete the last quantum. -/
  | canonical
  deriving DecidableEq, Repr

/-- A dialect: the last two symbols of the alphabet and the padding rule. -/
structure Dialect where
  symbol62 : UInt8
  symbol63 : UInt8
  padding : Padding
  deriving DecidableEq, Repr

/-- The dialect of the wire: `-` and `_`, written without padding. -/
def Dialect.wire : Dialect := ⟨45, 95, .optional⟩

/-- The dialect of file contents: `+` and `/`, with canonical padding. -/
def Dialect.file : Dialect := ⟨43, 47, .canonical⟩

/-- Why a text is not base64. Offsets count bytes. -/
inductive DecodeError where
  | invalidSymbol (offset : Nat) (symbol : UInt8)
  | invalidLength (length : Nat)
  | invalidLastSymbol (offset : Nat) (symbol : UInt8)
  | invalidPadding
  deriving DecidableEq, Repr

/-- The text of an error. -/
def DecodeError.message : DecodeError → String
  | .invalidSymbol offset symbol => s!"Invalid symbol {symbol.toNat}, offset {offset}."
  | .invalidLength length => s!"Invalid input length: {length}"
  | .invalidLastSymbol offset symbol => s!"Invalid last symbol {symbol.toNat}, offset {offset}."
  | .invalidPadding => "Invalid padding"

/-- The padding symbol. -/
def pad : UInt8 := 61

variable (d : Dialect)

/-- The symbol of a number below 64. -/
def Dialect.symbol (n : Nat) : UInt8 :=
  if n < 26 then UInt8.ofNat (65 + n)
  else if n < 52 then UInt8.ofNat (71 + n)
  else if n < 62 then UInt8.ofNat (n - 4)
  else if n = 62 then d.symbol62
  else d.symbol63

/-- The number a symbol stands for. -/
def Dialect.value? (c : UInt8) : Option Nat :=
  if 65 ≤ c ∧ c ≤ 90 then some (c.toNat - 65)
  else if 97 ≤ c ∧ c ≤ 122 then some (c.toNat - 71)
  else if 48 ≤ c ∧ c ≤ 57 then some (c.toNat + 4)
  else if c = d.symbol62 then some 62
  else if c = d.symbol63 then some 63
  else none

/-! ### Writing -/

/-- The symbols of a byte string, without padding. -/
def symbols : Bytes → Bytes
  | a :: b :: c :: rest =>
    d.symbol (a.toNat / 4) :: d.symbol (a.toNat % 4 * 16 + b.toNat / 16) ::
      d.symbol (b.toNat % 16 * 4 + c.toNat / 64) :: d.symbol (c.toNat % 64) :: symbols rest
  | [a, b] =>
    [d.symbol (a.toNat / 4), d.symbol (a.toNat % 4 * 16 + b.toNat / 16),
      d.symbol (b.toNat % 16 * 4)]
  | [a] => [d.symbol (a.toNat / 4), d.symbol (a.toNat % 4 * 16)]
  | [] => []

/-- The padding that completes the last quantum of `n` bytes. -/
def padWidth (n : Nat) : Nat := (3 - n % 3) % 3

/-! ### Reading -/

/-- What a quantum of four numbers decodes to. -/
def quantum (p q r s : Nat) : Bytes :=
  [UInt8.ofNat (p * 4 + q / 16), UInt8.ofNat (q % 16 * 16 + r / 4), UInt8.ofNat (r % 4 * 64 + s)]

/-- The value of a symbol that must not be padding. -/
def value (offset : Nat) (c : UInt8) : Except DecodeError Nat :=
  match d.value? c with
  | some n => .ok n
  | none => .error (.invalidSymbol offset c)

/-- Splits the last quantum into its symbol values and the number of padding symbols after them.
Padding may start only after two symbols, and nothing but padding may follow it. -/
def splitPadding (offset : Nat) : (index : Nat) → Bytes → Except DecodeError (List Nat × Nat)
  | _, [] => .ok ([], 0)
  | index, c :: rest =>
    if c = pad then
      if index < 2 then .error (.invalidSymbol (offset + index) c)
      else if rest.all (· = pad) then .ok ([], rest.length + 1)
      else .error (.invalidSymbol (offset + index) c)
    else do
      let n ← value d (offset + index) c
      let (ns, pads) ← splitPadding offset (index + 1) rest
      return (n :: ns, pads)

/-- Decodes the last quantum, which starts at `offset` and has at most four symbols. -/
def lastQuantum (offset : Nat) (q : Bytes) : Except DecodeError Bytes := do
  let (values, pads) ← splitPadding d offset 0 q
  match values with
  | [] => .ok []
  | [_] => .error (.invalidLength (offset + 1))
  | a :: b :: rest =>
    if d.padding = .canonical ∧ (values.length + pads) % 4 ≠ 0 then .error .invalidPadding
    else
      let last := q.getD (values.length - 1) 0
      match rest with
      | [] =>
        if b % 16 ≠ 0 then .error (.invalidLastSymbol (offset + 1) last)
        else .ok ((quantum a b 0 0).take 1)
      | [c] =>
        if c % 4 ≠ 0 then .error (.invalidLastSymbol (offset + 2) last)
        else .ok ((quantum a b c 0).take 2)
      | c :: e :: _ => .ok (quantum a b c e)

/-- Decodes quantum by quantum; the last quantum may be short or padded. -/
def quanta (offset : Nat) : Bytes → Except DecodeError Bytes
  | a :: b :: c :: e :: f :: rest => do
    let p ← value d offset a
    let q ← value d (offset + 1) b
    let r ← value d (offset + 2) c
    let s ← value d (offset + 3) e
    let tail ← quanta (offset + 4) (f :: rest)
    return quantum p q r s ++ tail
  | q => lastQuantum d offset q

/-- Encodes with the dialect's padding: none where it is optional. -/
def Dialect.encode (b : Bytes) : Bytes :=
  match d.padding with
  | .optional => symbols d b
  | .canonical => symbols d b ++ List.replicate (padWidth b.length) pad

/-- Decodes a text of the dialect. -/
def Dialect.decode (s : Bytes) : Except DecodeError Bytes :=
  match s.getLast? with
  | some c =>
    if s.length % 4 = 1 ∧ c ≠ pad ∧ d.value? c = none then
      .error (.invalidSymbol (s.length - 1) c)
    else quanta d 0 s
  | none => .ok []

/-! ### The wire dialect -/

/-- The wire text of a byte string. -/
def encode (b : Bytes) : String :=
  String.ofList ((Dialect.wire.encode b).map fun c => Char.ofNat c.toNat)

/-- The byte string that a wire text stands for. -/
def decode (s : String) : Except DecodeError Bytes := Dialect.wire.decode (.ofText s)

/-- The byte string of exactly `n` bytes that a wire text stands for. -/
def decodeExactly? (n : Nat) (s : String) : Option Bytes :=
  match decode s with
  | .ok b => if b.length = n then some b else none
  | .error _ => none

end MeshNode.Base64
