import MeshNode.Bytes.Hex

/-!
# Request ids

Every job request gets an id of its own: a random UUID, which is 16 bytes drawn at random in which
six bits say that it is one.
-/

namespace MeshNode.RequestId

/-- The number of bytes to draw. -/
def size : Nat := 16

/-- The bytes with the version and the variant of random UUIDs in place. -/
def marked (b : Bytes) : Bytes :=
  b.zipIdx.map fun (x, i) =>
    if i = 6 then x &&& 0x0f ||| 0x40 else if i = 8 then x &&& 0x3f ||| 0x80 else x

/-- The id of some random bytes. -/
def ofRandom (b : Bytes) : String :=
  let digits := (Bytes.toHex (marked b)).toList
  let part (start length : Nat) : String := String.ofList ((digits.drop start).take length)
  "-".intercalate [part 0 8, part 8 4, part 12 4, part 16 4, part 20 12]

end MeshNode.RequestId
