import MeshNode.Keyed

/-!
# Sets of names

A set of names is listed in increasing order, each name once. Two lists with the same members have
the same listing.
-/

namespace MeshNode.NameSet

/-- The names in increasing order, each once. -/
def ofList (names : List String) : List String :=
  (Keyed.ofList (names.map fun name => (name, ()))).keys

end MeshNode.NameSet
