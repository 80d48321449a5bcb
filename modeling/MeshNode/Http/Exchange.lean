import MeshNode.Bytes.Hex
import MeshNode.Http.Url

/-!
# Exchanges on the wire

The bytes in which a body is posted, and what the bytes that come back say. Every exchange has a
connection of its own, so an answer ends where the connection does unless it says how long it is.
Its body comes as it is or in chunks, each with its length in front.
-/

namespace MeshNode.Http

/-- The text of a host. -/
def Host.text : Host → String
  | name s => s
  | address (.v4 octets) => ".".intercalate (octets.map toString)
  | address (.v6 groups _) =>
    "[" ++ ":".intercalate (groups.map fun g => String.ofList (Nat.toDigits 16 g)) ++ "]"

/-- The host of a URL, with its port unless that is the one of the scheme. -/
def Url.place (u : Url) : String :=
  if u.port = (if u.secure then 443 else 80) then u.host.text else s!"{u.host.text}:{u.port}"

/-- The bytes in which JSON is posted. -/
def posting (u : Url) (body : Bytes) : Bytes :=
  .ofText (s!"POST {u.target} HTTP/1.1\r\nhost: {u.place}\r\ncontent-type: application/json\r\n" ++
    s!"accept: */*\r\ncontent-length: {body.length}\r\nconnection: close\r\n\r\n") ++ body

/-- Bytes as characters, one for each. -/
def characters (b : Bytes) : List Char := b.map fun x => Char.ofNat x.toNat

/-- The bytes up to the first line end, and those after it. -/
def splitLine : Bytes → Option (Bytes × Bytes)
  | 13 :: 10 :: rest => some ([], rest)
  | b :: rest => (splitLine rest).map fun (line, rest) => (b :: line, rest)
  | [] => none

/-- The bytes after the first line end are fewer. -/
theorem length_of_splitLine {b line rest : Bytes} (h : splitLine b = some (line, rest)) :
    rest.length < b.length := by
  fun_induction splitLine b generalizing line rest with
  | case1 after =>
    cases h
    simp only [List.length_cons]
    omega
  | case2 x after _ ih =>
    simp only [Option.map_eq_some_iff, Prod.mk.injEq] at h
    obtain ⟨⟨l, r⟩, found, _, rfl⟩ := h
    have := ih found
    simp only [List.length_cons]
    omega
  | case3 => simp at h

/-- The lines up to the first empty one, and the bytes after that. -/
def splitHead (b : Bytes) : Option (List String × Bytes) :=
  match _found : splitLine b with
  | none => none
  | some ([], rest) => some ([], rest)
  | some (line, rest) =>
    (splitHead rest).map fun (lines, rest) => (String.ofList (characters line) :: lines, rest)
termination_by b.length
decreasing_by exact length_of_splitLine _found

/-- The value of a header, given its name in small letters. -/
def header? (lines : List String) (name : String) : Option String :=
  lines.findSome? fun line =>
    let (n, value) := line.toList.span (· ≠ ':')
    if String.ofList (n.map Char.toLower) = name then
      some (String.ofList ((value.drop 1).dropWhile (· = ' ')))
    else none

/-- The status in the first line of an answer. -/
def readStatus? (line : String) : Option Nat :=
  match line.splitOn " " with
  | version :: status :: _ =>
    let digits := status.toList
    if version.startsWith "HTTP/1." ∧ digits.length = 3 ∧ digits.all Char.isDigit then
      some (Text.number 10 digits)
    else none
  | _ => none

/-- The body that comes in chunks. -/
def joinChunks (b : Bytes) : Option Bytes :=
  match _found : splitLine b with
  | none => none
  | some (line, rest) =>
    match (characters line).takeWhile (Text.isDigit 16) with
    | [] => none
    | digits =>
      let size := Text.number 16 digits
      if size = 0 then some []
      else if rest.length < size + 2 then none
      else (joinChunks (rest.drop (size + 2))).map (rest.take size ++ ·)
termination_by b.length
decreasing_by
  have := length_of_splitLine _found
  simp only [List.length_drop]
  omega

/-- The status and the body of an answer, as far as it says how its body comes. -/
def readAnswer? (b : Bytes) : Option (Nat × Bytes) := do
  let (lines, body) ← splitHead b
  let status ← readStatus? (← lines.head?)
  if (header? lines "transfer-encoding").any (·.toLower = "chunked") then
    return (status, ← joinChunks body)
  else
    match header? lines "content-length" with
    | none => return (status, body)
    | some text =>
      let length ← text.toNat?
      if body.length < length then none else some (status, body.take length)

end MeshNode.Http
