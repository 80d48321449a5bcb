import MeshNode.Http.Target
import MeshNode.SocketAddress

/-!
# Addresses of services

The address that a service is reached at is a URL of the scheme `http` or `https`: a host, a port
and the target to ask for. It is read as browsers read it. Blanks around it do not matter, nor do
line breaks and tabs in it; backslashes count as slashes, and any number of them may precede the
host. A host that ends in a number is an address of the fourth version, in any of its old notations.

What stands in front of the host, a user's name and password, and a fragment at the end are dropped.
Names of hosts are kept as they are written but for the case of their letters.
-/

namespace MeshNode.Http

/-- The host of a service. -/
inductive Host where
  | name (s : String)
  | address (a : HostAddress)
  deriving DecidableEq, Repr

/-- The address of a service. -/
structure Url where
  secure : Bool
  host : Host
  port : Nat
  /-- The path and the query, as they stand in a request. -/
  target : String
  deriving DecidableEq, Repr

namespace Url

/-- A control character or a space. -/
def isBlank (c : Char) : Bool := c ≤ ' '

/-- A slash of either kind. -/
def isSlash (c : Char) : Bool := c = '/' || c = '\\'

/-- The characters of an address without blanks around them and line breaks between them. -/
def trimmed (text : String) : List Char :=
  let cs := ((text.toList.dropWhile isBlank).reverse.dropWhile isBlank).reverse
  cs.filter fun c => c ≠ '\t' ∧ c ≠ '\n' ∧ c ≠ '\r'

/-! ### Hosts -/

/-- A number in decimal, in octal after a zero, or in hexadecimal after a zero and an x. -/
def octetNumber? (part : String) : Option Nat :=
  let digits (base : Nat) (ds : List Char) : Option Nat :=
    if ds.all (Text.isDigit base) then some (Text.number base ds) else none
  match part.toList with
  | [] => none
  | '0' :: 'x' :: ds => digits 16 ds
  | '0' :: 'X' :: ds => digits 16 ds
  | '0' :: d :: ds => digits 8 (d :: ds)
  | ds => digits 10 ds

/-- The parts of a name between points; a point at the end does not count. -/
def nameParts (name : String) : List String :=
  match (name.splitOn ".").reverse with
  | "" :: p :: rest => (p :: rest).reverse
  | parts => parts.reverse

/-- A host whose name ends in a number, which must then be an address. -/
def endsInNumber (name : String) : Bool :=
  match (nameParts name).getLast? with
  | none => false
  | some last => last ≠ "" && (last.toList.all Char.isDigit || (octetNumber? last).isSome)

/-- The address of up to four numbers, of which the last fills the octets that the others leave. -/
def v4? (name : String) : Option HostAddress := do
  let numbers ← (nameParts name).mapM octetNumber?
  let last ← numbers.getLast?
  let front := numbers.dropLast
  let free := 4 - front.length
  if front.length ≤ 3 ∧ front.all (· ≤ 255) ∧ last < Nat.pow 256 free then
    some (.v4 (front ++ (List.range free).reverse.map fun i => last / Nat.pow 256 i % 256))
  else none

/-- A character that no name of a host has. -/
def isForbidden (c : Char) : Bool := c ≤ ' ' || "#/:<>?@[\\]^|%\x7f".toList.contains c

/-- Reads a host. -/
def host? (cs : List Char) : Option Host :=
  match cs with
  | '[' :: rest =>
    match SocketAddress.readV6 rest with
    | some (groups, [']']) => some (.address (.v6 groups 0))
    | _ => none
  | _ => do
    let name ← segmentText? (String.ofList cs)
    let name := String.ofList (name.toList.map Char.toLower)
    if name = "" ∨ name.toList.any isForbidden then none
    else if endsInNumber name then (v4? name).map .address
    else some (.name name)

/-- Splits a host from its port; a colon between brackets belongs to the host. -/
def splitPort (inBrackets : Bool) : List Char → List Char × Option (List Char)
  | [] => ([], none)
  | c :: rest =>
    if c = ':' ∧ !inBrackets then ([], some rest)
    else
      let (host, port) := splitPort (c = '[' || (inBrackets && c ≠ ']')) rest
      (c :: host, port)

/-- Reads a port; one that is left out is that of the scheme. -/
def port? (secure : Bool) : Option (List Char) → Option Nat
  | some (d :: ds) =>
    let n := Text.number 10 (d :: ds)
    if (d :: ds).all Char.isDigit ∧ n < 0x10000 then some n else none
  | _ => some (if secure then 443 else 80)

/-! ### Targets -/

/-- A character as it stands in a path or, where a question mark is plain, in a query. -/
def encodeChar (inQuery : Bool) (c : Char) : List Char :=
  let special := if inQuery then "\"#<>'" else "\"#<>?^`\x7b\x7d"
  if ' ' < c ∧ c < '\x7f' ∧ !special.toList.contains c then [c]
  else (Bytes.ofText c.toString).flatMap fun b =>
    '%' :: (Bytes.toHex [b]).toList.map Char.toUpper

/-- A segment that stands for its directory. -/
def isDot (segment : String) : Bool := segment = "." || segment.toLower = "%2e"

/-- A segment that stands for the directory above. -/
def isDoubleDot (segment : String) : Bool :=
  [".." , ".%2e", "%2e.", "%2e%2e"].contains segment.toLower

/-- Folds the segments of a path; `before` holds those that were read, in reverse. -/
def fold (before : List String) : List String → List String
  | [] => before.reverse
  | segment :: rest =>
    if isDoubleDot segment then
      fold (if rest = [] then "" :: before.drop 1 else before.drop 1) rest
    else if isDot segment then fold (if rest = [] then "" :: before else before) rest
    else fold (segment :: before) rest

/-- The path of a request. -/
def pathText (cs : List Char) : String :=
  let segments := (String.ofList (cs.map fun c => if isSlash c then '/' else c)).splitOn "/"
  let folded := fold [] (segments.drop 1)
  let encoded := folded.map fun s => String.ofList (s.toList.flatMap (encodeChar false))
  if encoded = [] then "/" else String.join (encoded.map ("/" ++ ·))

/-- The path and the query of a request. -/
def targetText (cs : List Char) : String :=
  let (path, rest) := (cs.takeWhile (· ≠ '#')).span (· ≠ '?')
  match rest with
  | '?' :: query => pathText path ++ "?" ++ String.ofList (query.flatMap (encodeChar true))
  | _ => pathText path

/-- Reads the address of a service. -/
def ofText? (text : String) : Option Url := do
  let (scheme, rest) := (trimmed text).span (· ≠ ':')
  let scheme := String.ofList (scheme.map Char.toLower)
  let secure := scheme = "https"
  if rest = [] ∨ !(secure || scheme = "http") then none
  else
    let (authority, rest) :=
      ((rest.drop 1).dropWhile isSlash).span fun c => !isSlash c && c ≠ '?' && c ≠ '#'
    let place := (authority.reverse.takeWhile (· ≠ '@')).reverse
    let (host, port) := splitPort false place
    return ⟨secure, ← host? host, ← port? secure port, targetText rest⟩

end Url

end MeshNode.Http
