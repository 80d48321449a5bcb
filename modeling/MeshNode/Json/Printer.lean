import MeshNode.Json
import MeshNode.Decimal.Shortest

/-!
# Writing JSON

A value has two written forms. The compact one has no blanks; it is what is sent, sealed and
signed. The indented one gives every element and field a line of its own, two spaces deeper than
what holds it, and is what is stored in files.

A text is written with its non-ASCII characters as they are. The quote, the backslash and the
controls are escaped, the latter by a letter where JSON has one and else by four lower-case
hexadecimal digits. A double is written with the fewest digits that read back: positionally when
its leading digit stands for a power of ten from -5 to 15, and else with an exponent, which always
carries its sign.
-/

namespace MeshNode.Json

/-! ### Scalars -/

/-- The escape letter of a byte, for the bytes that have one. -/
def escapeLetter? (b : UInt8) : Option UInt8 :=
  if b = 34 then some 34
  else if b = 92 then some 92
  else if b = 8 then some 98
  else if b = 9 then some 116
  else if b = 10 then some 110
  else if b = 12 then some 102
  else if b = 13 then some 114
  else none

/-- The lower-case hexadecimal digit of a number below sixteen. -/
def escapeDigit (n : Nat) : UInt8 := if n < 10 then UInt8.ofNat (48 + n) else UInt8.ofNat (87 + n)

/-- How one byte of a text is written between the quotes. -/
def escapeByte (b : UInt8) : Bytes :=
  match escapeLetter? b with
  | some letter => [92, letter]
  | none =>
    if b < 32 then
      [92, 117, 48, 48, escapeDigit (b.toNat / 16), escapeDigit (b.toNat % 16)]
    else [b]

/-- A text between quotes. -/
def renderText (s : String) : Bytes := 34 :: (Bytes.ofText s).flatMap escapeByte ++ [34]

/-- The layout of a positive decimal `ds · 10 ^ e` without trailing zeros in `ds`. -/
def layoutDecimal (ds : Bytes) (e : Int) : Bytes :=
  -- the exponent of the leading digit
  let lead : Int := e + ds.length - 1
  if 0 ≤ e ∧ lead ≤ 15 then ds ++ List.replicate e.toNat 48 ++ [46, 48]
  else if 0 ≤ lead ∧ lead ≤ 15 then
    ds.take (lead.toNat + 1) ++ 46 :: ds.drop (lead.toNat + 1)
  else if -5 ≤ lead ∧ lead < 0 then
    48 :: 46 :: List.replicate (-lead - 1).toNat 48 ++ ds
  else
    let mantissa := match ds with
      | d :: d' :: rest => d :: 46 :: d' :: rest
      | _ => ds
    mantissa ++ 101 :: (if 0 ≤ lead then 43 :: Decimal.ofInt lead else Decimal.ofInt lead)

/-- The text of a finite double. -/
def renderFloat (bits : UInt64) : Bytes :=
  let magnitude := match Decimal.Dyadic.ofBits? bits with
    | none => [48, 46, 48]
    | some v =>
      let s := v.shortest.strip
      layoutDecimal (Decimal.digits s.digits) s.exponent
  if bits < 0x8000000000000000 then magnitude else 45 :: magnitude

/-- The text of a number. -/
def renderNumber : Number → Bytes
  | .int n => Decimal.ofInt n
  | .float bits => renderFloat bits

/-- The text of a truth value. -/
def renderBool (b : Bool) : Bytes := if b then [116, 114, 117, 101] else [102, 97, 108, 115, 101]

/-- The text of null. -/
def renderNull : Bytes := [110, 117, 108, 108]

/-! ### The compact form -/

mutual

/-- The compact form of a value. -/
def render : Json → Bytes
  | null => renderNull
  | bool b => renderBool b
  | num n => renderNumber n
  | str s => renderText s
  | arr items => 91 :: renderItems items ++ [93]
  | obj fields => 123 :: renderFields fields ++ [125]

/-- Values with commas between them. -/
def renderItems : List Json → Bytes
  | [] => []
  | [j] => render j
  | j :: rest => render j ++ 44 :: renderItems rest

/-- Fields with commas between them. -/
def renderFields : List (String × Json) → Bytes
  | [] => []
  | [(name, j)] => renderText name ++ 58 :: render j
  | (name, j) :: rest => renderText name ++ 58 :: render j ++ 44 :: renderFields rest

end

/-- The compact form of a value as a text. -/
def compact (j : Json) : String := (Bytes.text? j.render).getD ""

/-! ### The indented form -/

/-- The start of a line at a given depth. -/
def newline (depth : Nat) : Bytes := 10 :: List.replicate (2 * depth) 32

mutual

/-- The indented form of a value that stands at a given depth. -/
def renderIndented (depth : Nat) : Json → Bytes
  | arr [] => [91, 93]
  | arr (j :: rest) =>
    91 :: newline (depth + 1) ++ renderIndented (depth + 1) j ++
      renderIndentedItems (depth + 1) rest ++ newline depth ++ [93]
  | obj [] => [123, 125]
  | obj ((name, j) :: rest) =>
    123 :: newline (depth + 1) ++ renderText name ++ 58 :: 32 :: renderIndented (depth + 1) j ++
      renderIndentedFields (depth + 1) rest ++ newline depth ++ [125]
  | null => renderNull
  | bool b => renderBool b
  | num n => renderNumber n
  | str s => renderText s

/-- Further values, each after a comma on a line of its own. -/
def renderIndentedItems (depth : Nat) : List Json → Bytes
  | [] => []
  | j :: rest =>
    44 :: newline depth ++ renderIndented depth j ++ renderIndentedItems depth rest

/-- Further fields, each after a comma on a line of its own. -/
def renderIndentedFields (depth : Nat) : List (String × Json) → Bytes
  | [] => []
  | (name, j) :: rest =>
    44 :: newline depth ++ renderText name ++ 58 :: 32 :: renderIndented depth j ++
      renderIndentedFields depth rest

end

/-- The indented form of a value. -/
def pretty (j : Json) : Bytes := renderIndented 0 j

end MeshNode.Json
