import MeshNode.Proofs.Json.Compact
import MeshNode.Proofs.Json.Order
import MeshNode.Proofs.Json.Recoding

/-!
# Values that survive their text

A value in order is read back from its compact form if its numbers are (`Lossless.ofBytes_compact`).
These are the integers of 64 bits and minus zero, which is a double: the numbers of a value that was
read and is whole. Unlike the order of the fields, this does not depend on how deep the value nests,
so that the two can be shown apart of a value that is put together from parts.
-/

namespace MeshNode

namespace Json

/-- Every number is an integer of 64 bits or minus zero. -/
inductive Lossless : Json → Prop where
  | null : Lossless .null
  | bool {b : Bool} : Lossless (.bool b)
  | int {n : Int} (hrange : Number.InRange n) : Lossless (.num (.int n))
  | minusZero : Lossless (.num (.float minusZero))
  | str {s : String} : Lossless (.str s)
  | arr {items : List Json} (hitems : ∀ j ∈ items, Lossless j) : Lossless (.arr items)
  | obj {fields : List (String × Json)} (hfields : ∀ f ∈ fields, Lossless f.2) :
      Lossless (.obj fields)

variable {levels : Nat} {j : Json}

/-- A value that was read is lossless if its numbers are integers. -/
theorem Shaped.lossless (h : j.Shaped levels) (hwhole : j.Whole) : j.Lossless := by
  induction h with
  | null => exact .null
  | bool => exact .bool
  | num hkept =>
    cases hwhole with
    | int => exact .int hkept
    | minusZero => exact .minusZero
  | str => exact .str
  | arr _ ih =>
    cases hwhole with
    | arr hitems => exact .arr fun j hj => ih j hj (hitems j hj)
  | obj _ _ ih =>
    cases hwhole with
    | obj hfields => exact .obj fun f hf => ih f hf (hfields f hf)

namespace Lossless

theorem whole (h : j.Lossless) : j.Whole := by
  induction h with
  | null => exact .null
  | bool => exact .bool
  | int => exact .int
  | minusZero => exact .minusZero
  | str => exact .str
  | arr _ ih => exact .arr ih
  | obj _ ih => exact .obj ih

/-- In order, it is a value that reading answers with. -/
theorem shaped (h : j.Lossless) (horder : j.InOrder levels) : j.Shaped levels := by
  induction horder with
  | null => exact .null
  | bool => exact .bool
  | num =>
    cases h with
    | int hrange => exact .num hrange
    | minusZero => exact .num trivial
  | str => exact .str
  | arr _ ih =>
    cases h with
    | arr hitems => exact .arr fun j hj => ih j hj (hitems j hj)
  | obj hsorted _ ih =>
    cases h with
    | obj hfields => exact .obj hsorted fun f hf => ih f hf (hfields f hf)

/-- **The compact form of a lossless value in order is read as that value.** -/
theorem ofBytes_compact (h : j.Lossless) (horder : j.InOrder maxDepth) :
    ofBytes (.ofText j.compact) = .ok j := by
  rw [ofText_compact, ofBytes, ← write_compact 0 j, readAll_write ((h.shaped horder).reads h.whole)]

/-- What a lossless value holds is lossless. -/
theorem inherits : Inherits Lossless Lossless where
  null := .null
  blank := .obj fun _ hf => absurd hf List.not_mem_nil
  mono _ h := h
  members := by
    rintro members ⟨⟩
    assumption
  items := by
    rintro items ⟨⟩
    assumption

end Lossless

end Json

end MeshNode
