import MeshNode.Text.Digits
import MeshNode.Text.Quoted

/-!
# Socket addresses

The text of an address of the fourth or the sixth version, with a port. An address of the sixth
version stands in brackets, may end with one of the fourth, may leave out a run of zero groups once,
and may name a scope by its number. Host names are no addresses.
-/

namespace MeshNode

/-- The address of a host. -/
inductive HostAddress where
  | v4 (octets : List Nat)
  | v6 (groups : List Nat) (scope : Nat)
  deriving DecidableEq, Repr

/-- The address of a socket. -/
structure SocketAddress where
  host : HostAddress
  port : Nat
  deriving DecidableEq, Repr

namespace SocketAddress

/-- A reader of characters: what they stand for and the characters after them. -/
abbrev Reader (α : Type) := List Char → Option (α × List Char)

/-- Reads a number of at least one digit. -/
def readNumber (base : Nat) : Reader Nat := fun s =>
  match s.takeWhile (Text.isDigit base) with
  | [] => none
  | ds => some (Text.number base ds, s.drop ds.length)

/-- Reads a character. -/
def readChar (c : Char) : Reader Unit
  | d :: rest => if d = c then some ((), rest) else none
  | [] => none

/-- Reads a number up to 255 without leading zeros. -/
def readOctet : Reader Nat := fun s => do
  let (n, rest) ← readNumber 10 s
  if n ≤ 255 ∧ (s.head? ≠ some '0' ∨ rest.length + 1 = s.length) then some (n, rest) else none

/-- Reads four octets with points between them. -/
def readOctets : Reader (List Nat) := fun s => do
  let (a, s) ← readOctet s
  let ((), s) ← readChar '.' s
  let (b, s) ← readOctet s
  let ((), s) ← readChar '.' s
  let (c, s) ← readOctet s
  let ((), s) ← readChar '.' s
  let (d, s) ← readOctet s
  return ([a, b, c, d], s)

/-- Reads a group of up to four hexadecimal digits. -/
def readGroup : Reader Nat := fun s => do
  let (n, rest) ← readNumber 16 s
  if s.length ≤ rest.length + 4 then some (n, rest) else none

/-- Reads up to `room` groups with colons between them. Four octets in place of the last two groups
end them, which the second component tells. -/
def readGroups (first : Bool) : (room : Nat) → List Char → (List Nat × Bool) × List Char
  | 0, s => (([], false), s)
  | room + 1, s =>
    let start := if first then some s else (readChar ':' s).map (·.2)
    match if room = 0 then none else start.bind readOctets with
    | some ([a, b, c, d], rest) => (([256 * a + b, 256 * c + d], true), rest)
    | _ =>
      match start.bind readGroup with
      | some (g, rest) =>
        let ((gs, octets), rest) := readGroups false room rest
        ((g :: gs, octets), rest)
      | none => (([], false), s)

/-- Reads eight groups, or fewer around a doubled colon. -/
def readV6 : Reader (List Nat) := fun s =>
  let ((front, octets), s) := readGroups true 8 s
  if front.length = 8 then some (front, s)
  else if octets then none
  else do
    let ((), s) ← readChar ':' s
    let ((), s) ← readChar ':' s
    let ((back, _), s) := readGroups true (7 - front.length) s
    return (front ++ List.replicate (8 - front.length - back.length) 0 ++ back, s)

/-- Reads the number of a scope, if there is one. -/
def readScope : Reader Nat
  | '%' :: rest => (readNumber 10 rest).filter (·.1 < 0x100000000)
  | s => some (0, s)

/-- Reads an address of a host. -/
def readHost : Reader HostAddress
  | '[' :: s => do
    let (groups, s) ← readV6 s
    let (scope, s) ← readScope s
    let ((), s) ← readChar ']' s
    return (.v6 groups scope, s)
  | s => (readOctets s).map fun (octets, s) => (.v4 octets, s)

/-- The address that a text stands for. -/
def ofText? (text : String) : Option SocketAddress := do
  let (host, s) ← readHost text.toList
  let ((), s) ← readChar ':' s
  let (port, s) ← readNumber 10 s
  if s = [] ∧ port < 0x10000 then some ⟨host, port⟩ else none

/-- What is said of a setting that should be an address to listen on and is none. -/
def refusal (text : String) : String :=
  s!"listen_addr {Text.quote text}: invalid socket address syntax"

end SocketAddress

end MeshNode
