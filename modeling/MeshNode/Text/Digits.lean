import MeshNode.Bytes.Hex

/-!
# Numbers in a base

The number that digits in a base of at most sixteen stand for.
-/

namespace MeshNode.Text

/-- The value of a digit in a base. -/
def digit? (base : Nat) (c : Char) : Option Nat := (Bytes.hexValue? c).filter (· < base)

/-- Whether a character is a digit in a base. -/
def isDigit (base : Nat) (c : Char) : Bool := (digit? base c).isSome

/-- The number that digits stand for; characters that are no digits do not count. -/
def number (base : Nat) (ds : List Char) : Nat :=
  (ds.filterMap (digit? base)).foldl (fun n d => base * n + d) 0

end MeshNode.Text
