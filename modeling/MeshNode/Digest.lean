import MeshNode.Bytes.Hex
import MeshNode.Crypto.Sha256
import MeshNode.NameSet
import MeshNode.Text.Blank

/-!
# Digests

Content is identified by the hexadecimal SHA-256 of its bytes, and a set of capabilities by the
digest of its names, one per line. The names are trimmed, empty ones dropped, and the rest sorted
with each name once, so that the digest depends on the set alone and not on how it was listed.
-/

namespace MeshNode.Digest

/-- The hexadecimal SHA-256 of some content. -/
def ofContent (content : Bytes) : String := (Sha256.hash content).toHex

/-- How many characters of a digest are shown in events. -/
def headLength : Nat := 12

/-- The part of a digest that is shown in events. -/
def head (digest : String) : String := String.ofList (digest.toList.take headLength)

/-- The set of capabilities that a list announces: trimmed names, without empty ones. -/
def capabilities (names : List String) : List String :=
  NameSet.ofList ((names.map Text.trim).filter (· ≠ ""))

/-- The digest of the set of capabilities that a list announces. -/
def ofCapabilities (names : List String) : String :=
  ofContent (.ofText ("\n".intercalate (capabilities names)))

end MeshNode.Digest
