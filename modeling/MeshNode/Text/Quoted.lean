import MeshNode.Text.Printable

/-!
# Quoted texts

Messages that cite a text from outside put it between double quotes with every character that is
not plainly visible escaped, so that the message stays on one line and shows exactly what was
received.
-/

namespace MeshNode.Text

/-- The hexadecimal digits of a number, without leading zeros. -/
def hexNumber (n : Nat) : List Char := (Nat.toDigits 16 n)

/-- How one character is shown inside a quoted text. -/
def quoteChar (c : Char) : List Char :=
  if c = '\x00' then ['\\', '0']
  else if c = '\t' then ['\\', 't']
  else if c = '\r' then ['\\', 'r']
  else if c = '\n' then ['\\', 'n']
  else if c = '"' then ['\\', '"']
  else if c = '\\' then ['\\', '\\']
  else if isPrintable c then [c]
  else ['\\', 'u', '\x7b'] ++ hexNumber c.toNat ++ ['\x7d']

/-- The text between double quotes, with what is not plainly visible escaped. -/
def quote (s : String) : String :=
  String.ofList ('"' :: s.toList.flatMap quoteChar ++ ['"'])

end MeshNode.Text
