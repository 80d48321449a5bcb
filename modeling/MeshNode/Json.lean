import MeshNode.Keyed

/-!
# JSON values

Requests, answers and stored records are JSON. A value keeps integers apart from floating-point
numbers: an integer is exact and lies between the least 64-bit signed and the greatest 64-bit
unsigned one (`Number.InRange`), everything else is an IEEE 754 double, kept as its bits.

The fields of an object that was read stand in increasing order of their names, each name once, so
that two objects that differ only in the order in which they were written are the same value. A
value built here may list its fields in the order of its declaration, which is then the order in
which they are written; `sorted` brings any value into the order of values that were read.
-/

namespace MeshNode

/-- A number: exact where it is an integer of 64 bits, else a double. -/
inductive Number where
  | int (n : Int)
  /-- A double, given by its bits. -/
  | float (bits : UInt64)
  deriving DecidableEq, Repr, Inhabited

/-- The integers that are kept exactly: those of 64 bits, signed or unsigned. -/
def Number.InRange (n : Int) : Prop := -0x8000000000000000 ≤ n ∧ n < 0x10000000000000000

instance (n : Int) : Decidable (Number.InRange n) := inferInstanceAs (Decidable (_ ∧ _))

/-- A JSON value. -/
inductive Json where
  | null
  | bool (b : Bool)
  | num (n : Number)
  | str (s : String)
  | arr (items : List Json)
  | obj (fields : List (String × Json))
  deriving BEq, Repr, Inhabited

namespace Json

/-- An integer value. -/
abbrev int (n : Int) : Json := num (.int n)

/-- A value counting something. -/
abbrev nat (n : Nat) : Json := num (.int n)

/-- The text, or null. -/
def ofText? (s : Option String) : Json := s.elim null str

/-- The integer, or null. -/
def ofInt? (n : Option Int) : Json := n.elim null int

/-- The field of an object with the given name. -/
def get? (j : Json) (name : String) : Option Json :=
  match j with
  | obj fields => fields.lookup name
  | _ => none

mutual

/-- The value with the fields of every object in increasing order of their names, each name once;
of two fields with one name the later counts. -/
def sorted : Json → Json
  | null => null
  | bool b => bool b
  | num n => num n
  | str s => str s
  | arr items => arr (sortedItems items)
  | obj fields => obj (Keyed.ofList (sortedFields fields))

private def sortedItems : List Json → List Json
  | [] => []
  | j :: rest => sorted j :: sortedItems rest

private def sortedFields : List (String × Json) → List (String × Json)
  | [] => []
  | (name, j) :: rest => (name, sorted j) :: sortedFields rest

end

theorem sorted_arr (items : List Json) : (arr items).sorted = arr (items.map sorted) := by
  have hitems (items : List Json) : sortedItems items = items.map sorted := by
    induction items with
    | nil => rfl
    | cons j items ih => rw [sortedItems, ih, List.map_cons]
  rw [sorted, hitems]

theorem sorted_obj (fields : List (String × Json)) :
    (obj fields).sorted = obj (Keyed.ofList (fields.map fun f => (f.1, f.2.sorted))) := by
  have hfields (fields : List (String × Json)) :
      sortedFields fields = fields.map fun f => (f.1, f.2.sorted) := by
    induction fields with
    | nil => rfl
    | cons f fields ih => rw [sortedFields, ih, List.map_cons]
  rw [sorted, hfields]

end Json

end MeshNode
