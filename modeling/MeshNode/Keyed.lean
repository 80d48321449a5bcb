/-!
# Keyed lists

A finite map from texts to values, kept as a list of pairs in strictly increasing order of the
keys. `insert` puts a pair where the order wants it, or replaces the value of a key that is there;
`erase` drops a key. Looking a key up after either says all there is to say about them, and both
laws hold of every list; the order is what makes two maps with the same lookups the same list.
-/

namespace MeshNode

/-- Pairs of a key and a value, in increasing order of the keys. -/
abbrev Keyed (β : Type) := List (String × β)

namespace Keyed

variable {β : Type}

/-- The keys are strictly increasing. -/
def Sorted (m : Keyed β) : Prop := m.Pairwise (·.1 < ·.1)

/-- The value of a key. -/
def get? (m : Keyed β) (k : String) : Option β := m.lookup k

/-- Whether a key is present. -/
def contains (m : Keyed β) (k : String) : Bool := (m.get? k).isSome

/-- Adds a pair, or replaces the value of a key that is there. -/
def insert (m : Keyed β) (k : String) (v : β) : Keyed β :=
  match m with
  | [] => [(k, v)]
  | (j, w) :: rest =>
    if k < j then (k, v) :: (j, w) :: rest
    else if k = j then (k, v) :: rest
    else (j, w) :: insert rest k v

/-- Drops a key. -/
def erase (m : Keyed β) (k : String) : Keyed β := m.filter (·.1 ≠ k)

/-- The map of a list of pairs, of which the last with a key counts. -/
def ofList (pairs : List (String × β)) : Keyed β :=
  pairs.foldl (fun m p => m.insert p.1 p.2) []

/-- The keys, in increasing order. -/
def keys (m : Keyed β) : List String := m.map (·.1)

@[simp] theorem get?_nil (k : String) : get? ([] : Keyed β) k = none := rfl

theorem get?_cons (j : String) (w : β) (m : Keyed β) (k : String) :
    get? ((j, w) :: m) k = if k = j then some w else get? m k := by
  by_cases h : k = j
  · simp [get?, h]
  · simp [get?, List.lookup_cons, h, beq_eq_false_iff_ne.2 h]

theorem get?_insert (m : Keyed β) (k : String) (v : β) (j : String) :
    (m.insert k v).get? j = if j = k then some v else m.get? j := by
  induction m with
  | nil => simp [insert, get?_cons]
  | cons p rest ih =>
    obtain ⟨i, w⟩ := p
    by_cases hlt : k < i
    · simp [insert, hlt, get?_cons]
    · by_cases heq : k = i
      · subst heq
        rw [insert, if_neg hlt, if_pos rfl, get?_cons, get?_cons]
        by_cases h : j = k <;> simp [h]
      · simp only [insert, hlt, if_false, heq, get?_cons, ih]
        by_cases h : j = i
        · simp [h, Ne.symm heq]
        · simp [h]

@[simp] theorem get?_insert_self (m : Keyed β) (k : String) (v : β) :
    (m.insert k v).get? k = some v := by simp [get?_insert]

theorem get?_erase (m : Keyed β) (k j : String) :
    (m.erase k).get? j = if j = k then none else m.get? j := by
  induction m with
  | nil => simp [erase]
  | cons p rest ih =>
    obtain ⟨i, w⟩ := p
    have hstep : erase ((i, w) :: rest) k =
        if i = k then erase rest k else (i, w) :: erase rest k := by
      by_cases h : i = k <;> simp [erase, h]
    by_cases h : i = k
    · subst h
      rw [hstep, if_pos rfl, ih, get?_cons]
      by_cases hj : j = i <;> simp [hj]
    · rw [hstep, if_neg h, get?_cons, get?_cons, ih]
      by_cases hj : j = i
      · subst hj; simp [h]
      · simp [hj]

end Keyed

end MeshNode
