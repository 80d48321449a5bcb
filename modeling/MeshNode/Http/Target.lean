import MeshNode.Bytes.Hex

/-!
# Request targets

The target of a request names a path by its segments. A question mark ends the path, and so does a
number sign. A segment may hold any byte by writing it as a percent sign and two hexadecimal digits;
a percent sign that two digits do not follow stands for itself.
-/

namespace MeshNode.Http

/-- Undoes the writing of bytes by percent signs. -/
def percentDecode : Bytes → Bytes
  | 37 :: h :: l :: rest =>
    match Bytes.hexValue? (Char.ofNat h.toNat), Bytes.hexValue? (Char.ofNat l.toNat) with
    | some high, some low => UInt8.ofNat (16 * high + low) :: percentDecode rest
    | _, _ => 37 :: percentDecode (h :: l :: rest)
  | b :: rest => b :: percentDecode rest
  | [] => []

/-- The text that a segment stands for, if what it stands for is a text. -/
def segmentText? (segment : String) : Option String := (percentDecode (.ofText segment)).text?

/-- Drops the scheme and the authority in front of a path. -/
def dropAuthority (target : List Char) : List Char :=
  match target.dropWhile fun c => c ≠ '/' ∧ c ≠ ':' with
  | ':' :: '/' :: '/' :: rest => rest.dropWhile (· ≠ '/')
  | _ => target

/-- The segments of the path of a target, still in their written form. -/
def segments (target : String) : List String :=
  let path := (dropAuthority target.toList).takeWhile fun c => c ≠ '?' ∧ c ≠ '#'
  match path with
  | '/' :: rest => (rest.splitOn '/').map String.ofList
  | _ => []

end MeshNode.Http
