import MeshNode.Proofs.Json.Answers

/-!
# The order in which members are written

A text may give the members of an object in any order. To read it is to read what was written, each
member where it stands, and to bring that into order (`ofBytes_eq_map_sorted`).

Two values differ in the order of members alone if one becomes the other by exchanges of neighbours
(`Reordered`), in any object however deep it is. Members with one name keep their places, since of
them the last counts. Values that differ so are the same once they are in order
(`Reordered.sorted_eq`), and if no object repeats a name there are no others that are the same then
(`Distinct.sorted_eq_iff`). For that, every value is led to the one in order: the members first
change where they stand, and are exchanged then.
-/

namespace MeshNode

namespace Json

variable {α β γ : Type}

/-! ### Reading as it stands -/

/-- The value in a text, with the members of every object as they are written. -/
def asWritten (text : Bytes) : Except ReadError Json := readAll (readVerbatim maxDepth) text

theorem mapRead_mapRead (f : α → β) (g : β → γ) (x : Except Failure (α × Bytes)) :
    mapRead g (mapRead f x) = mapRead (fun a => g (f a)) x := by
  cases x <;> rfl

theorem mapRead_readAs (f : α → β) (word : Reader γ) (a : α) (s : Bytes) :
    mapRead f (readAs word a s) = readAs word (f a) s := by
  unfold readAs
  split <;> rfl

theorem mapRead_endArray (f : α → β) (x : Except Failure (α × Bytes)) :
    mapRead f (endArray x) = endArray (mapRead f x) := by
  rcases x with e | ⟨a, s⟩
  · rfl
  · simp only [endArray, mapRead]
    cases closeArray s <;> rfl

theorem mapRead_endObject (f : α → β) (x : Except Failure (α × Bytes)) :
    mapRead f (endObject x) = endObject (mapRead f x) := by
  rcases x with e | ⟨a, s⟩
  · rfl
  · simp only [endObject, mapRead]
    cases closeObject s <;> rfl

section Mapped

variable {f : α → β} {r : Reader α} {r' : Reader β}

/-- What is read after a colon is mapped as it is read. -/
theorem readMemberValue_mapRead (h : ∀ s, r' s = mapRead f (r s)) (name : String) (s : Bytes) :
    readMemberValue name r' s = mapRead f (readMemberValue name r s) := by
  unfold readMemberValue
  split
  · rfl
  · rw [h]
    cases r _ <;> rfl

/-- Elements are mapped as they are read. -/
theorem readElements_mapRead (h : ∀ s, r' s = mapRead f (r s)) (rounds index : Nat) (s : Bytes) :
    readElements r' rounds index s = mapRead (List.map f) (readElements r rounds index s) := by
  induction rounds generalizing index s with
  | zero => rfl
  | succ rounds ih =>
    simp only [readElements]
    split
    · rfl
    · rfl
    · rw [h]
      rcases r _ with e | ⟨a, rest⟩
      · rfl
      · simp only [mapRead, ih]
        cases readElements r rounds (index + 1) rest <;> rfl

/-- The values of members are mapped as they are read. -/
theorem readMembers_mapRead (h : ∀ s, r' s = mapRead f (r s)) (rounds : Nat) (first : Bool)
    (s : Bytes) :
    readMembers r' rounds first s =
      mapRead (List.map fun m => (m.1, f m.2)) (readMembers r rounds first s) := by
  induction rounds generalizing first s with
  | zero => rfl
  | succ rounds ih =>
    simp only [readMembers]
    split
    · rfl
    · rfl
    · rename_i name rest _
      rw [readMemberValue_mapRead h]
      rcases readMemberValue name r rest with e | ⟨a, rest⟩
      · rfl
      · simp only [mapRead, ih]
        cases readMembers r rounds false rest <;> rfl

/-- A whole text is mapped as it is read. -/
theorem readAll_mapRead (h : ∀ s, r' s = mapRead f (r s)) (text : Bytes) :
    readAll r' text = (readAll r text).map f := by
  simp only [readAll, h]
  rcases r text with e | ⟨a, rest⟩
  · rfl
  · simp only [mapRead]
    split <;> rfl

end Mapped

/-- To read a value is to bring what was written into order, if that is so of its elements and
members. -/
theorem readTree_eq_mapRead_sorted {levels : Nat} (ih : ∀ n, levels = n + 1 → ∀ s,
    readValue n s = mapRead sorted (readVerbatim n s)) (s : Bytes) :
    readValue levels s = mapRead sorted (readVerbatim levels s) := by
  rw [readValue, readVerbatim, readTree.eq_def, readTree.eq_def id]
  simp only
  split
  · rfl
  · simp only [apply_ite (mapRead sorted), mapRead_readAs, mapRead_mapRead, sorted]
    -- The branches of scalars agree. What is left are the elements of an array and the members of
    -- an object, which are read with a level less.
    congr 7
    · split
      · rfl
      · rename_i n
        have hitems := readElements_mapRead (ih n rfl)
        rw [readValue, readVerbatim] at hitems
        rw [mapRead_endArray, mapRead_mapRead, hitems, mapRead_mapRead]
        simp only [sorted_arr]
    · congr 1
      split
      · rfl
      · rename_i n
        have hmembers := readMembers_mapRead (ih n rfl)
        rw [readValue, readVerbatim] at hmembers
        rw [mapRead_endObject, mapRead_mapRead, hmembers, mapRead_mapRead]
        simp only [sorted_obj, id]

/-- **To read a value is to bring what was written into order.** -/
theorem readValue_eq_mapRead_sorted (levels : Nat) (s : Bytes) :
    readValue levels s = mapRead sorted (readVerbatim levels s) := by
  induction levels generalizing s with
  | zero => exact readTree_eq_mapRead_sorted (fun n hn => absurd hn (Nat.succ_ne_zero n).symm) s
  | succ levels ih => exact readTree_eq_mapRead_sorted (fun n hn => Nat.succ.inj hn ▸ ih) s

/-- A text is read as what is written in it, in order. -/
theorem ofBytes_eq_map_sorted (text : Bytes) : ofBytes text = (asWritten text).map sorted :=
  readAll_mapRead (readValue_eq_mapRead_sorted maxDepth) text

theorem ofBytes_of_asWritten {text : Bytes} {j : Json} (h : asWritten text = .ok j) :
    ofBytes text = .ok j.sorted := by
  rw [ofBytes_eq_map_sorted, h]
  rfl

/-! ### Exchanges -/

/-- Values that differ in nothing but the order of members: exchanges of neighbouring members with
different names lead from one to the other. -/
inductive Reordered : Json → Json → Prop where
  | refl (j : Json) : Reordered j j
  | trans {i j k : Json} (hij : Reordered i j) (hjk : Reordered j k) : Reordered i k
  | element {j k : Json} (h : Reordered j k) (before after : List Json) :
      Reordered (.arr (before ++ j :: after)) (.arr (before ++ k :: after))
  | member {j k : Json} (h : Reordered j k) (name : String)
      (before after : List (String × Json)) :
      Reordered (.obj (before ++ (name, j) :: after)) (.obj (before ++ (name, k) :: after))
  | swap {f g : String × Json} (hne : f.1 ≠ g.1) (before after : List (String × Json)) :
      Reordered (.obj (before ++ f :: g :: after)) (.obj (before ++ g :: f :: after))

namespace Reordered

variable {j k : Json}

theorem symm (h : j.Reordered k) : k.Reordered j := by
  induction h with
  | refl j => exact .refl j
  | trans _ _ ihij ihjk => exact ihjk.trans ihij
  | element _ before after ih => exact ih.element before after
  | member _ name before after ih => exact ih.member name before after
  | swap hne before after => exact .swap hne.symm before after

/-- **The order of members does not matter**: once they are in order, the values are the same. -/
theorem sorted_eq (h : j.Reordered k) : j.sorted = k.sorted := by
  induction h with
  | refl => rfl
  | trans _ _ ihij ihjk => exact ihij.trans ihjk
  | element _ before after ih => simp only [sorted_arr, List.map_append, List.map_cons, ih]
  | member _ name before after ih => simp only [sorted_obj, List.map_append, List.map_cons, ih]
  | @swap f g hne before after =>
    have hnames : (f.1, f.2.sorted).1 ≠ (g.1, g.2.sorted).1 := hne
    simp only [sorted_obj, List.map_append, List.map_cons, Keyed.ofList_swap hnames]

/-- All parts of a list can be changed, if each can where it stands. -/
theorem of_each {build : List β → Json} {change : β → β} {parts : List β}
    (h : ∀ x ∈ parts, ∀ before after,
      Reordered (build (before ++ x :: after)) (build (before ++ change x :: after))) :
    Reordered (build parts) (build (parts.map change)) := by
  -- The parts are changed from the first on; `front` are those that have been.
  have hfront (front : List β) :
      Reordered (build (front ++ parts)) (build (front ++ parts.map change)) := by
    induction parts generalizing front with
    | nil => exact .refl _
    | cons x parts ih =>
      obtain ⟨hx, hparts⟩ := List.forall_mem_cons.mp h
      have hrest := ih hparts (front ++ [change x])
      rw [List.append_assoc, List.append_assoc] at hrest
      exact (hx front parts).trans hrest
  exact hfront []

/-- Members with different names can be put into any order. -/
theorem of_perm {fields fields' : List (String × Json)} (h : fields.Perm fields')
    (hnames : fields.Pairwise (·.1 ≠ ·.1)) : Reordered (.obj fields) (.obj fields') := by
  have hfront (front : List (String × Json)) :
      Reordered (.obj (front ++ fields)) (.obj (front ++ fields')) := by
    induction h generalizing front with
    | nil => exact .refl _
    | cons f _ ih =>
      have hrest := ih (List.pairwise_cons.mp hnames).2 (front ++ [f])
      rwa [List.append_assoc, List.append_assoc] at hrest
    | swap f g rest =>
      have hne : g.1 ≠ f.1 := (List.pairwise_cons.mp hnames).1 f List.mem_cons_self
      exact .swap hne front rest
    | trans hfields _ ih ih' =>
      have hnames' := (hfields.pairwise_iff fun hne => Ne.symm hne).mp hnames
      exact (ih hnames front).trans (ih' hnames' front)
  exact hfront []

end Reordered

/-! ### Without repeated names -/

/-- No object has two members with one name. -/
inductive Distinct : Json → Prop where
  | null : Distinct .null
  | bool {b : Bool} : Distinct (.bool b)
  | num {n : Number} : Distinct (.num n)
  | str {s : String} : Distinct (.str s)
  | arr {items : List Json} (hitems : ∀ j ∈ items, Distinct j) : Distinct (.arr items)
  | obj {fields : List (String × Json)} (hnames : fields.Pairwise (·.1 ≠ ·.1))
      (hfields : ∀ f ∈ fields, Distinct f.2) : Distinct (.obj fields)

namespace Distinct

variable {j k : Json}

/-- Exchanges lead to the value in order. -/
theorem reordered_sorted (h : j.Distinct) : j.Reordered j.sorted := by
  induction h with
  | null | bool | num | str =>
    rw [sorted]
    exact .refl _
  | arr _ ih =>
    rw [sorted_arr]
    exact .of_each fun j hj => (ih j hj).element
  | @obj fields hnames _ ih =>
    have heach : Reordered (.obj fields) (.obj (fields.map fun f => (f.1, f.2.sorted))) :=
      .of_each fun f hf => (ih f hf).member f.1
    have hsorted : (fields.map fun f => (f.1, f.2.sorted)).Pairwise (·.1 ≠ ·.1) :=
      List.pairwise_map.mpr hnames
    rw [sorted_obj]
    exact heach.trans (.of_perm (Keyed.perm_ofList hsorted).symm hsorted)

/-- **Values are the same in order exactly if they differ in the order of members alone.** -/
theorem sorted_eq_iff (h : j.Distinct) (h' : k.Distinct) :
    j.sorted = k.sorted ↔ j.Reordered k := by
  refine ⟨fun heq => ?_, Reordered.sorted_eq⟩
  have hjk : j.Reordered k.sorted := heq ▸ h.reordered_sorted
  exact hjk.trans h'.reordered_sorted.symm

end Distinct

/-- Bringing a value into order makes no doubles. -/
theorem Integral.sorted {j : Json} (h : j.Integral) : j.sorted.Integral := by
  induction h with
  | null => exact .null
  | bool => exact .bool
  | int => exact .int
  | str => exact .str
  | arr _ ih =>
    rw [sorted_arr]
    exact .arr (List.forall_mem_map.mpr ih)
  | obj _ ih =>
    rw [sorted_obj]
    refine .obj fun f hf => ?_
    obtain ⟨g, hg, rfl⟩ := List.mem_map.mp (Keyed.mem_of_mem_ofList hf)
    exact ih g hg

end Json

end MeshNode
