import MeshNode.Json.Reader
import MeshNode.Json.Printer

/-!
# Decoders

A decoder turns JSON into a value of a domain type, and it does so from two sources. `read` takes a
text and checks its form while reading it, so that the first fault in reading order is the one that
is reported, with its place. `convert` takes a value that has been read before, and its errors have
no place. Both accept the same forms:

* a text, a truth value, an integer within bounds, or any value at all;
* an optional value, for which null stands for nothing;
* a list, or a map from texts;
* one of several names, alone or as an object with that name and null;
* a record, as an object whose members stand in any order and may include unknown ones, or as an
  array of the fields in the order of their declaration;
* one of several records told apart by a member that names it.
-/

namespace MeshNode.Json

/-! ### Mismatches -/

/-- A value as an error message names it. -/
def describe : Json → String
  | null => "null"
  | bool b => if b then "boolean `true`" else "boolean `false`"
  | num (.int n) => s!"integer `{n}`"
  | num (.float bits) => s!"floating point `{(num (.float bits)).compact}`"
  | str s => "string " ++ Text.quote s
  | arr _ => "sequence"
  | obj _ => "map"

/-- The value is of another kind than what is expected. -/
def invalidType (j : Json) (expected : String) : String :=
  s!"invalid type: {j.describe}, expected {expected}"

/-- The value is of the expected kind, but not one of the expected values. -/
def invalidValue (what expected : String) : String := s!"invalid value: {what}, expected {expected}"

/-- A list has another length than what is expected. -/
def invalidLength (n : Nat) (expected : String) : String :=
  s!"invalid length {n}, expected {expected}"

/-- A required field is not there. -/
def missingField (name : String) : String := s!"missing field `{name}`"

/-- A field is there twice. -/
def duplicateField (name : String) : String := s!"duplicate field `{name}`"

/-- A name in the quotes of error messages. -/
private def ticked (name : String) : String := "`" ++ name ++ "`"

/-- A name is none of those that are expected. -/
def unknownName (name : String) (expected : List String) : String :=
  let choices := match expected with
    | [] => "there are no variants"
    | [a] => "expected " ++ ticked a
    | [a, b] => "expected " ++ ticked a ++ " or " ++ ticked b
    | _ => "expected one of " ++ ", ".intercalate (expected.map ticked)
  "unknown variant " ++ ticked name ++ ", " ++ choices

/-- Reads a value of the wrong kind, to name it in the error. Of an array or object only the
bracket is looked at. -/
def readMismatch {α : Type} (expected : String) : Reader α := fun s =>
  match skipBlanks s with
  | [] => .error (.next .endInValue [])
  | b :: rest =>
    if b = 91 then .error (.here (.mismatch (invalidType (.arr []) expected)) (b :: rest))
    else if b = 123 then .error (.here (.mismatch (invalidType (.obj []) expected)) (b :: rest))
    else
      match readValue 0 (b :: rest) with
      | .error e => .error e
      | .ok (j, rest) => .error (.here (.mismatch (invalidType j expected)) rest)

/-! ### Decoders -/

/-- How values of a type are read from a text and converted from a value. -/
structure Decoder (α : Type) where
  /-- Reads with at most `levels` arrays and objects inside each other. -/
  read : (levels : Nat) → Reader α
  convert : Json → Except String α

namespace Decoder

variable {α β γ ρ : Type}

/-- Decodes a whole text. -/
def ofBytes (d : Decoder α) (text : Bytes) : Except ReadError α := readAll (d.read maxDepth) text

/-- Decodes the value at the start of a text; whatever comes after it does not matter. -/
def ofStart (d : Decoder α) (text : Bytes) : Except ReadError α :=
  match d.read maxDepth text with
  | .ok (a, _) => .ok a
  | .error e => .error (e.report text)

/-- Decodes to the image under a function. -/
def map (d : Decoder α) (f : α → β) : Decoder β where
  read levels s := mapRead f (d.read levels s)
  convert j := (d.convert j).map f

/-- Any value. -/
def value : Decoder Json where
  read := readValue
  convert j := .ok j

/-- A text. -/
def text : Decoder String where
  read _ s :=
    match skipBlanks s with
    | [] => .error (.next .endInValue [])
    | b :: rest => if b = 34 then readString rest else readMismatch "a string" (b :: rest)
  convert
    | .str s => .ok s
    | j => .error (invalidType j "a string")

/-- A truth value. -/
def bool : Decoder Bool where
  read _ s :=
    match skipBlanks s with
    | [] => .error (.next .endInValue [])
    | b :: rest =>
      if b = 116 then readAs readTrue true rest
      else if b = 102 then readAs readFalse false rest
      else readMismatch "a boolean" (b :: rest)
  convert
    | .bool b => .ok b
    | j => .error (invalidType j "a boolean")

/-- An integer from `least` to `greatest`, or the mismatch of a number that is none. -/
def checkInteger (least greatest : Int) (expected : String) : Number → Except String Int
  | .int n =>
    if least ≤ n ∧ n ≤ greatest then .ok n
    else .error (invalidValue (describe (.int n)) expected)
  | .float bits => .error (invalidType (.num (.float bits)) expected)

/-- An integer from `least` to `greatest`. -/
def integer (least greatest : Int) (expected : String) : Decoder Int where
  read _ s :=
    let check (r : Except Failure (Number × Bytes)) : Except Failure (Int × Bytes) :=
      match r with
      | .error e => .error e
      | .ok (n, rest) =>
        match checkInteger least greatest expected n with
        | .ok n => .ok (n, rest)
        | .error text => .error (.here (.mismatch text) rest)
    match skipBlanks s with
    | [] => .error (.next .endInValue [])
    | b :: rest =>
      if b = 45 then check (readNumber false rest)
      else if Decimal.isDigit b then check (readNumber true (b :: rest))
      else readMismatch expected (b :: rest)
  convert
    | .num n => checkInteger least greatest expected n
    | j => .error (invalidType j expected)

/-- A signed 64-bit integer. -/
def int64 : Decoder Int := integer (-0x8000000000000000) 0x7fffffffffffffff "i64"

/-- An unsigned 64-bit integer. -/
def word64 : Decoder Nat := (integer 0 0xffffffffffffffff "u64").map Int.toNat

/-- A size in memory, which is an unsigned 64-bit integer too. -/
def size : Decoder Nat := (integer 0 0xffffffffffffffff "usize").map Int.toNat

/-- A value or null. -/
def option (d : Decoder α) : Decoder (Option α) where
  read levels s :=
    match skipBlanks s with
    | [] => mapRead some (d.read levels [])
    | b :: rest =>
      if b = 110 then readAs readNull none rest else mapRead some (d.read levels (b :: rest))
  convert
    | .null => .ok none
    | j => (d.convert j).map some

/-- Reads what stands inside a bracket that has been seen, with one level less. -/
def nested (inside : (levels : Nat) → Reader α) : (levels : Nat) → Reader α
  | 0, s => .error (.next .tooDeep s)
  | levels + 1, s => inside levels (s.drop 1)

/-- A list. -/
def list (d : Decoder α) : Decoder (List α) where
  read levels s :=
    match skipBlanks s with
    | [] => .error (.next .endInValue [])
    | b :: rest =>
      if b = 91 then
        nested (fun levels s => endArray (readElements (d.read levels) (s.length + 1) 0 s)) levels
          (b :: rest)
      else readMismatch "a sequence" (b :: rest)
  convert
    | .arr items => items.mapM d.convert
    | j => .error (invalidType j "a sequence")

/-- A map from texts; of two members with one name the later counts. -/
def dict (d : Decoder α) : Decoder (Keyed α) where
  read levels s :=
    match skipBlanks s with
    | [] => .error (.next .endInValue [])
    | b :: rest =>
      if b = 123 then
        nested (fun levels s =>
            endObject (mapRead Keyed.ofList (readMembers (d.read levels) (s.length + 1) true s)))
          levels (b :: rest)
      else readMismatch "a map" (b :: rest)
  convert
    | .obj members =>
      (members.mapM fun m => (d.convert m.2).map fun a => (m.1, a)).map Keyed.ofList
    | j => .error (invalidType j "a map")

/-! ### Names -/

/-- Nothing, written as null. -/
private def unit : Decoder Unit where
  read _ s :=
    match skipBlanks s with
    | [] => .error (.next .endInValue [])
    | b :: rest => if b = 110 then readNull rest else readMismatch "unit" (b :: rest)
  convert
    | .null => .ok ()
    | j => .error (invalidType j "unit")

/-- The value that a name stands for. -/
def pick (choices : List (String × α)) (name : String) : Except String α :=
  match choices.lookup name with
  | some a => .ok a
  | none => .error (unknownName name (choices.map (·.1)))

/-- A name out of several, as a text. -/
def identifier (choices : List (String × α)) : Decoder α where
  read _ s :=
    match skipBlanks s with
    | [] => .error (.next .endInValue [])
    | b :: rest =>
      if b = 34 then
        match readString rest with
        | .error e => .error e
        | .ok (name, rest) =>
          match pick choices name with
          | .ok a => .ok (a, rest)
          | .error text => .error (.here (.mismatch text) rest)
      else readMismatch "variant identifier" (b :: rest)
  convert
    | .str name => pick choices name
    | j => .error (invalidType j "variant identifier")

/-- A name out of several: as a text, or as an object whose only member has that name and is
null. -/
def choice (choices : List (String × α)) : Decoder α where
  read levels s :=
    let member (levels : Nat) : Reader α := fun s =>
      match (identifier choices).read levels s with
      | .error e => .error e
      | .ok (a, rest) =>
        match readColon rest with
        | .error e => .error e
        | .ok ((), rest) =>
          match unit.read levels rest with
          | .error e => .error e
          | .ok ((), rest) =>
            match skipBlanks rest with
            | [] => .error (.here .endInObject [])
            | b :: rest =>
              if b = 125 then .ok (a, rest) else .error (.here .expectedValue (b :: rest))
    match skipBlanks s with
    | [] => .error (.next .endInValue [])
    | b :: rest =>
      if b = 34 then (identifier choices).read levels (b :: rest)
      else if b = 123 then nested member levels (b :: rest)
      else .error (.next .expectedValue (b :: rest))
  convert
    | .str name => pick choices name
    | .obj [(name, j)] => do
      let a ← pick choices name
      let () ← unit.convert j
      return a
    | .obj _ => .error (invalidValue "map" "map with a single key")
    | j => .error (invalidType j "string or map")

end Decoder

/-! ### Fields -/

/-- A field of a record. -/
structure Field (β : Type) where
  name : String
  decoder : Decoder β
  /-- The value when an object has no such member; nothing if it must have one. -/
  absent : Option β
  /-- The value when an array ends before the field; nothing if it must not. -/
  short : Option β

namespace Field

variable {β : Type}

/-- A field that must be there. -/
def required (name : String) (d : Decoder β) : Field β := ⟨name, d, none, none⟩

/-- A field with a value for when it is not there. -/
def withDefault (name : String) (d : Decoder β) (b : β) : Field β := ⟨name, d, some b, some b⟩

/-- An optional field that an object may omit and an array may not. -/
def optional (name : String) (d : Decoder β) : Field (Option β) := ⟨name, d.option, some none, none⟩

/-- An optional field that may be omitted at the end of an array too. -/
def omissible (name : String) (d : Decoder β) : Field (Option β) :=
  withDefault name d.option none

end Field

/-- A sequence of fields in the order of their declaration. `ρ` has a slot for the value of each
field, `α` the values themselves. -/
structure Fields (ρ α : Type) where
  count : Nat
  /-- Empty slots. -/
  blank : ρ
  /-- Reads the value of a member, colon included, into its slot; nothing for an unknown name. -/
  readMember : (levels : Nat) → (name : String) → ρ → Option (Reader ρ)
  /-- Converts the value of a member into its slot; nothing for an unknown name. -/
  convertMember : (name : String) → Json → ρ → Option (Except String ρ)
  /-- The values, once there are no more members. -/
  finish : ρ → Except String α
  /-- Reads the elements from the one numbered `index` on. -/
  readElements : (levels index : Nat) → (expected : String) → Reader α
  /-- Converts the elements from the one numbered `index` on; also answers with those left over. -/
  convertElements : (index : Nat) → (expected : String) → List Json → Except String (α × List Json)

namespace Fields

variable {α β ρ : Type}

/-- No fields. -/
def nil : Fields Unit Unit where
  count := 0
  blank := ()
  readMember _ _ _ := none
  convertMember _ _ _ := none
  finish _ := .ok ()
  readElements _ _ _ s := .ok ((), s)
  convertElements _ _ items := .ok ((), items)

/-- One more field in front. -/
def cons (f : Field β) (fs : Fields ρ α) : Fields (Option β × ρ) (β × α) where
  count := fs.count + 1
  blank := (none, fs.blank)
  readMember levels name slots :=
    if name = f.name then
      some fun s =>
        match slots.1 with
        | some _ => .error (.floating (duplicateField name) s)
        | none =>
          mapRead (fun b => (some b, slots.2)) (readMemberValue name (f.decoder.read levels) s)
    else (fs.readMember levels name slots.2).map fun read s => mapRead (slots.1, ·) (read s)
  convertMember name j slots :=
    if name = f.name then
      match slots.1 with
      | some _ => some (.error (duplicateField name))
      | none => some ((f.decoder.convert j).map fun b => (some b, slots.2))
    else (fs.convertMember name j slots.2).map fun r => r.map (slots.1, ·)
  finish slots :=
    match slots.1.or f.absent with
    | some b => (fs.finish slots.2).map (b, ·)
    | none => .error (missingField f.name)
  readElements levels index expected s :=
    let others (b : β) (s : Bytes) : Except Failure ((β × α) × Bytes) :=
      mapRead (b, ·) (fs.readElements levels (index + 1) expected s)
    match nextElement (index = 0) s with
    | .error e => .error (e.under (.element index))
    | .ok (true, rest) =>
      match f.decoder.read levels rest with
      | .error e => .error (e.under (.element index))
      | .ok (b, rest) => others b rest
    | .ok (false, rest) =>
      match f.short with
      | some b => others b rest
      | none => .error (.floating (invalidLength index expected) rest)
  convertElements index expected items :=
    let others (b : β) (items : List Json) : Except String ((β × α) × List Json) :=
      (fs.convertElements (index + 1) expected items).map fun (a, left) => ((b, a), left)
    match items with
    | j :: rest =>
      match f.decoder.convert j with
      | .error e => .error e
      | .ok b => others b rest
    | [] =>
      match f.short with
      | some b => others b []
      | none => .error (invalidLength index expected)

/-- The number of fields in words. -/
def elements (fs : Fields ρ α) : String :=
  if fs.count = 1 then "1 element" else s!"{fs.count} elements"

/-- Reads the members that are left. Each round takes at least one byte. -/
def readMembers (fs : Fields ρ α) (levels : Nat) :
    (rounds : Nat) → (first : Bool) → ρ → Reader α
  | 0, _, _, s => .error (.here .endInObject s)
  | rounds + 1, first, slots, s =>
    match nextMember first s with
    | .error e => .error (e.under .unnamed)
    | .ok (none, rest) =>
      match fs.finish slots with
      | .ok a => .ok (a, rest)
      | .error text => .error (.floating text rest)
    | .ok (some name, rest) =>
      match fs.readMember levels name slots with
      | some read =>
        match read rest with
        | .error e => .error e
        | .ok (slots, rest) => readMembers fs levels rounds false slots rest
      | none =>
        match readMemberValue name skipValue rest with
        | .error e => .error e
        | .ok ((), rest) => readMembers fs levels rounds false slots rest

/-- Converts members one after the other. -/
def convertMembers (fs : Fields ρ α) : ρ → List (String × Json) → Except String α
  | slots, [] => fs.finish slots
  | slots, (name, j) :: rest =>
    match fs.convertMember name j slots with
    | none => convertMembers fs slots rest
    | some (.error e) => .error e
    | some (.ok slots) => convertMembers fs slots rest

end Fields

namespace Decoder

variable {α β γ ρ : Type}

/-- A record of the given name. -/
def record (name : String) (fs : Fields ρ α) (build : α → γ) : Decoder γ where
  read levels s :=
    let expected := s!"struct {name}"
    match skipBlanks s with
    | [] => .error (.next .endInValue [])
    | b :: rest =>
      mapRead build <|
        if b = 91 then
          nested (fun levels s =>
              endArray (fs.readElements levels 0 s!"{expected} with {fs.elements}" s))
            levels (b :: rest)
        else if b = 123 then
          nested (fun levels s =>
              endObject (fs.readMembers levels (s.length + 1) true fs.blank s))
            levels (b :: rest)
        else readMismatch expected (b :: rest)
  convert j :=
    let expected := s!"struct {name}"
    match j with
    | .arr items =>
      match fs.convertElements 0 s!"{expected} with {fs.elements}" items with
      | .error e => .error e
      | .ok (a, []) => .ok (build a)
      | .ok (_, _ :: _) => .error (invalidLength items.length "fewer elements in array")
    | .obj members => (fs.convertMembers fs.blank members).map build
    | j => .error (invalidType j expected)

/-! ### Records told apart by a member -/

/-- One of the records that a member tells apart. -/
structure Variant (α : Type) where
  ofMembers : List (String × Json) → Except String α
  ofElements : List Json → Except String α

/-- The variant with the given name and fields. -/
def variant (name : String) (fs : Fields ρ α) (build : α → γ) : Variant γ where
  ofMembers members := (fs.convertMembers fs.blank members).map build
  ofElements items :=
    match fs.convertElements 0 s!"struct variant {name} with {fs.elements}" items with
    | .error e => .error e
    | .ok (a, []) => .ok (build a)
    | .ok (_, _ :: _) => .error (invalidLength items.length s!"{fs.elements} in sequence")

/-- The members of a record whose variant is not known yet. -/
structure Untagged (α : Type) where
  variant : Option (Variant α)
  members : List (String × Json)

/-- Reads the members of a tagged record: the tag as a name, the others as they stand. -/
def readTagged (tag : String) (choices : List (String × Variant α)) (levels : Nat) :
    (rounds : Nat) → (first : Bool) → Untagged α → Reader (Variant α × List (String × Json))
  | 0, _, _, s => .error (.here .endInObject s)
  | rounds + 1, first, u, s =>
    match nextMember first s with
    | .error e => .error (e.under .unnamed)
    | .ok (none, rest) =>
      match u.variant with
      | some v => .ok ((v, u.members), rest)
      | none => .error (.floating (missingField tag) rest)
    | .ok (some name, rest) =>
      if name = tag then
        match u.variant with
        | some _ => .error (.floating (duplicateField tag) rest)
        | none =>
          match readMemberValue name ((identifier choices).read levels) rest with
          | .error e => .error e
          | .ok (v, rest) => readTagged tag choices levels rounds false ⟨some v, u.members⟩ rest
      else
        match readMemberValue name (readVerbatim levels) rest with
        | .error e => .error e
        | .ok (j, rest) =>
          readTagged tag choices levels rounds false ⟨u.variant, u.members ++ [(name, j)]⟩ rest

/-- One of several records, told apart by the member `tag`, which names the variant. As an array
the name comes first. -/
def tagged (what tag : String) (choices : List (String × Variant α)) : Decoder α where
  read levels s :=
    let settleInside (r : Except Failure (Except String α × Bytes)) :
        Except Failure (α × Bytes) :=
      match r with
      | .error e => .error e
      | .ok (.ok a, rest) => .ok (a, rest)
      | .ok (.error text, rest) => .error (.floating text rest)
    let elements (levels : Nat) : Reader (Variant α × List Json) := fun s =>
      match nextElement true s with
      | .error e => .error (e.under (.element 0))
      | .ok (false, rest) => .error (.floating (missingField tag) rest)
      | .ok (true, rest) =>
        match (identifier choices).read levels rest with
        | .error e => .error (e.under (.element 0))
        | .ok (v, rest) =>
          mapRead (v, ·) (readElements (readVerbatim levels) (rest.length + 1) 1 rest)
    match skipBlanks s with
    | [] => .error (.next .endInValue [])
    | b :: rest =>
      if b = 123 then
        settleInside <| nested (fun levels s =>
            endObject (mapRead (fun (v, members) => v.ofMembers members)
              (readTagged tag choices levels (s.length + 1) true ⟨none, []⟩ s)))
          levels (b :: rest)
      else if b = 91 then
        settleInside <| nested (fun levels s =>
            endArray (mapRead (fun (v, items) => v.ofElements items) (elements levels s)))
          levels (b :: rest)
      else readMismatch what (b :: rest)
  convert
    | .obj members =>
      match members.lookup tag with
      | none => .error (missingField tag)
      | some j => do
        let v ← (identifier choices).convert j
        v.ofMembers (members.filter (·.1 ≠ tag))
    | .arr [] => .error (missingField tag)
    | .arr (j :: items) => do
      let v ← (identifier choices).convert j
      v.ofElements items
    | j => .error (invalidType j what)

end Decoder

end MeshNode.Json
