import Mathlib.Data.List.Basic
import Mathlib.Data.List.DropRight
import MeshNode.Digest
import MeshNode.Proofs.Keyed

/-!
# What a digest of capabilities determines

A list of names announces the set of the names in it, trimmed and without empty ones. Lists that
announce the same set have the same listing, and so the same digest. The listing has a line for each
name, and a name may hold line feeds itself: what can be read off it are the lines of the names and
not the names. So two sets have the same digest exactly if their names, in order, have the same
lines, which is to be the same set where no name holds a line feed (`ofCapabilities_eq_iff`).

That different listings have different hashes is no law of the hash; it is assumed of the two
listings at hand.
-/

namespace MeshNode

namespace Text

/-- A text is trimmed at its front and then at its back. -/
theorem toList_trim (s : String) :
    (trim s).toList = (s.toList.dropWhile isBlank).rdropWhile isBlank := by
  simp [trim, dropBlanks, List.rdropWhile]

/-- Nothing is left to trim of a trimmed text. -/
@[simp] theorem trim_trim (s : String) : trim (trim s) = trim s := by
  have hfront : ((trim s).toList).dropWhile isBlank = (trim s).toList := by
    rw [List.dropWhile_eq_self_iff]
    intro hpos
    -- What is trimmed at the back starts with what was there before.
    have hprefix : (trim s).toList <+: s.toList.dropWhile isBlank := by
      rw [toList_trim]
      exact List.rdropWhile_prefix isBlank _
    rw [List.IsPrefix.getElem hprefix hpos]
    exact List.dropWhile_get_zero_not isBlank s.toList (hpos.trans_le hprefix.length_le)
  rw [← String.toList_inj, toList_trim, hfront, toList_trim, List.rdropWhile_idempotent]

end Text

namespace NameSet

/-- The names in the list are those that were listed. -/
theorem mem_ofList {names : List String} {name : String} : name ∈ ofList names ↔ name ∈ names := by
  simp [ofList, Keyed.mem_keys_ofList]

theorem pairwise_ofList (names : List String) : (ofList names).Pairwise (· < ·) :=
  List.pairwise_map.mpr (Keyed.sorted_ofList _)

/-- Two lists with the same names have the same listing. -/
theorem ofList_eq_iff {a b : List String} :
    ofList a = ofList b ↔ ∀ name, name ∈ a ↔ name ∈ b := by
  constructor
  · intro h name
    rw [← mem_ofList, h, mem_ofList]
  · intro h
    have hnodup (names : List String) : (ofList names).Nodup :=
      (pairwise_ofList names).imp Std.ne_of_lt
    have hmem (name : String) : name ∈ ofList a ↔ name ∈ ofList b := by
      rw [mem_ofList, mem_ofList, h]
    have hperm := (List.perm_ext_iff_of_nodup (hnodup a) (hnodup b)).mpr hmem
    exact hperm.eq_of_pairwise (fun _ _ _ _ hlt hgt => absurd hgt (String.lt_asymm hlt))
      (pairwise_ofList a) (pairwise_ofList b)

end NameSet

namespace Digest

/-! ### Sets of capabilities -/

/-- The list announces a capability: it is what one of the names is when it is trimmed, and not
empty. -/
def Announces (names : List String) (capability : String) : Prop :=
  capability ≠ "" ∧ ∃ name ∈ names, Text.trim name = capability

/-- Two lists announce the same capabilities. -/
def SameSet (a b : List String) : Prop :=
  ∀ capability, Announces a capability ↔ Announces b capability

theorem mem_capabilities {names : List String} {capability : String} :
    capability ∈ capabilities names ↔ Announces names capability := by
  simp [capabilities, NameSet.mem_ofList, Announces, and_comm]

/-- The listing depends on the set alone, and determines it. -/
theorem capabilities_eq_iff {a b : List String} :
    capabilities a = capabilities b ↔ SameSet a b := by
  rw [capabilities, capabilities, NameSet.ofList_eq_iff]
  simp only [SameSet, ← mem_capabilities, capabilities, NameSet.mem_ofList]

/-- What a list announces is announced by its listing too. -/
@[simp] theorem capabilities_capabilities (names : List String) :
    capabilities (capabilities names) = capabilities names := by
  refine capabilities_eq_iff.mpr fun capability => ⟨?_, fun h => ?_⟩
  · rintro ⟨hne, name, hname, rfl⟩
    obtain ⟨-, name, hmem, rfl⟩ := mem_capabilities.mp hname
    exact ⟨hne, name, hmem, (Text.trim_trim name).symm⟩
  · obtain ⟨hne, name, hname, rfl⟩ := h
    exact ⟨hne, _, mem_capabilities.mpr ⟨hne, name, hname, rfl⟩, Text.trim_trim name⟩

/-- The listing of some capabilities has their digest. -/
@[simp] theorem ofCapabilities_capabilities (names : List String) :
    ofCapabilities (capabilities names) = ofCapabilities names := by
  rw [ofCapabilities, capabilities_capabilities, ← ofCapabilities]

/-! ### Listings -/

/-- The lines of some names, one name after the other. -/
def lines (names : List String) : List (List Char) :=
  names.flatMap fun name => name.toList.splitOn '\n'

/-- The lines of names are those of the text with a line feed between them. -/
theorem lines_cons (name : String) (names : List String) :
    lines (name :: names) = ("\n".intercalate (name :: names)).toList.splitOn '\n' := by
  induction names generalizing name with
  | nil => simp [lines]
  | cons next names ih =>
    have hsplit : ("\n".intercalate (name :: next :: names)).toList =
        name.toList ++ '\n' :: ("\n".intercalate (next :: names)).toList := by
      simp [String.append_assoc]
    have happend := List.splitOnP_append_cons name.toList
      ("\n".intercalate (next :: names)).toList (p := (· == '\n')) (beq_self_eq_true '\n')
    rw [hsplit, List.splitOn, happend, ← List.splitOn, ← List.splitOn, ← ih, lines,
      List.flatMap_cons, ← lines]

/-- A name has a line. -/
theorem lines_eq_nil {names : List String} : lines names = [] ↔ names = [] := by
  cases names with
  | nil => simp [lines]
  | cons name names => simp [lines_cons, List.splitOn, List.splitOnP_ne_nil]

/-- A name that is not empty leaves some text. -/
theorem intercalate_eq_empty {names : List String} (h : "" ∉ names) :
    "\n".intercalate names = "" ↔ names = [] := by
  cases names with
  | nil => simp
  | cons name names =>
    have hname : name ≠ "" := fun heq => h (heq ▸ List.mem_cons_self)
    cases names with
    | nil => simp [hname]
    | cons next names => simp

/-- Names that are not empty have the same lines exactly if the texts with a line feed between them
are the same. -/
theorem lines_eq_iff {a b : List String} (ha : "" ∉ a) (hb : "" ∉ b) :
    lines a = lines b ↔ "\n".intercalate a = "\n".intercalate b := by
  match a, b with
  | [], b =>
    rw [eq_comm, eq_comm (a := "\n".intercalate []), String.intercalate_nil,
      intercalate_eq_empty hb]
    exact lines_eq_nil
  | a, [] =>
    rw [String.intercalate_nil, intercalate_eq_empty ha]
    exact lines_eq_nil
  | first :: a, first' :: b =>
    rw [lines_cons, lines_cons, ← String.toList_inj]
    refine ⟨fun h => ?_, fun h => by rw [h]⟩
    -- The texts are the lines put together again.
    have hjoined := congrArg (List.intercalate ['\n']) h
    rwa [List.intercalate_splitOn, List.intercalate_splitOn] at hjoined

/-- A name without line feeds is its only line. -/
theorem lines_of_not_mem {names : List String} (h : ∀ name ∈ names, '\n' ∉ name.toList) :
    lines names = names.map String.toList := by
  have hline (name : String) (hname : name ∈ names) :
      name.toList.splitOn '\n' = [name.toList] := by
    refine List.splitOnP_eq_singleton fun c hc => ?_
    exact beq_eq_false_iff_ne.mpr fun heq => h name hname (heq ▸ hc)
  rw [lines, List.flatMap_congr hline, List.map_eq_flatMap]

/-! ### Digests -/

/-- What the digest of some capabilities is taken of. -/
def listing (names : List String) : Bytes := .ofText ("\n".intercalate (capabilities names))

/-- Two lists have the same listing exactly if their capabilities, in order, have the same lines. -/
theorem listing_eq_iff {a b : List String} :
    listing a = listing b ↔ lines (capabilities a) = lines (capabilities b) := by
  have hempty (names : List String) : "" ∉ capabilities names := fun h =>
    (mem_capabilities.mp h).1 rfl
  rw [lines_eq_iff (hempty a) (hempty b)]
  exact ⟨Bytes.ofText_injective, congrArg Bytes.ofText⟩

/-- Two lists have the same digest exactly if their capabilities, in order, have the same lines, if
the hash tells their two listings apart. So a digest depends on the set of capabilities alone, and
it determines the set where no name holds a line feed. -/
theorem ofCapabilities_eq_iff {a b : List String}
    (hcollision : Sha256.hash (listing a) = Sha256.hash (listing b) → listing a = listing b) :
    (ofCapabilities a = ofCapabilities b ↔ lines (capabilities a) = lines (capabilities b)) ∧
      (SameSet a b → ofCapabilities a = ofCapabilities b) ∧
      ((∀ capability, Announces a capability ∨ Announces b capability → '\n' ∉ capability.toList) →
        (ofCapabilities a = ofCapabilities b ↔ SameSet a b)) := by
  have hdigest : ofCapabilities a = ofCapabilities b ↔
      lines (capabilities a) = lines (capabilities b) := by
    rw [← listing_eq_iff]
    exact ⟨fun h => hcollision (Bytes.toHex_injective h), congrArg ofContent⟩
  have hset (h : SameSet a b) : ofCapabilities a = ofCapabilities b :=
    hdigest.mpr (congrArg lines (capabilities_eq_iff.mpr h))
  refine ⟨hdigest, hset, fun hbreaks => ⟨fun h => ?_, hset⟩⟩
  have hlines := hdigest.mp h
  rw [lines_of_not_mem fun name hname => hbreaks name (.inl (mem_capabilities.mp hname)),
    lines_of_not_mem fun name hname => hbreaks name (.inr (mem_capabilities.mp hname))] at hlines
  have hinjective := List.map_injective_iff.mpr fun _ _ => String.toList_injective
  exact capabilities_eq_iff.mp (hinjective hlines)

/-- The digest of a set changes when a capability is added to it. -/
theorem ofCapabilities_ne_of_added :
    (Sha256.hash (listing ["gpu", "fs.write"]) =
        Sha256.hash (listing ["gpu", "fs.write", "net.probe"]) →
      listing ["gpu", "fs.write"] = listing ["gpu", "fs.write", "net.probe"]) ∧
    ofCapabilities ["gpu", "fs.write"] ≠ ofCapabilities ["gpu", "fs.write", "net.probe"] := by
  have hcollision : Sha256.hash (listing ["gpu", "fs.write"]) =
      Sha256.hash (listing ["gpu", "fs.write", "net.probe"]) →
      listing ["gpu", "fs.write"] = listing ["gpu", "fs.write", "net.probe"] := by
    intro h
    exact absurd h (by decide +kernel)
  constructor
  · exact hcollision
  · intro h
    have hlines := (ofCapabilities_eq_iff hcollision).1.mp h
    exact absurd hlines (by decide +kernel)

/-- A name with a line feed in it and the names of its lines have the same digest. -/
theorem not_forall_ofCapabilities_eq_iff_sameSet :
    ¬ ∀ a b : List String,
      (Sha256.hash (listing a) = Sha256.hash (listing b) → listing a = listing b) →
      (ofCapabilities a = ofCapabilities b ↔ SameSet a b) := by
  intro h
  have hlisting : listing ["a\nb"] = listing ["a", "b"] := by decide +kernel
  have hset : SameSet ["a\nb"] ["a", "b"] :=
    (h ["a\nb"] ["a", "b"] fun _ => hlisting).mp (congrArg ofContent hlisting)
  exact absurd (capabilities_eq_iff.mpr hset) (by decide +kernel)

end Digest

end MeshNode
