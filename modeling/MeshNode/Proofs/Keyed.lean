import Mathlib.Data.List.Basic
import Mathlib.Tactic.SplitIfs
import MeshNode.Keyed

/-!
# Lists of pairs that are in order

A pair whose key comes after all others is inserted at the end. So a list of pairs that is in order
already is the map of itself. Wherever a pair is inserted, the pairs stay in order, and none of them
comes from elsewhere.
-/

namespace MeshNode.Keyed

variable {β : Type}

instance (m : Keyed β) : Decidable (Sorted m) :=
  inferInstanceAs (Decidable (m.Pairwise (·.1 < ·.1)))

/-- The order is that of the keys. -/
theorem sorted_of_keys {m : Keyed β} (h : m.keys.Pairwise (· < ·)) : Sorted m :=
  List.pairwise_map.mp h

/-- A pair with the greatest key goes to the end. -/
theorem insert_of_forall_lt {m : Keyed β} {k : String} (h : ∀ p ∈ m, p.1 < k) (v : β) :
    m.insert k v = m ++ [(k, v)] := by
  induction m with
  | nil => rfl
  | cons p m ih =>
    obtain ⟨j, w⟩ := p
    have hlt : j < k := h (j, w) List.mem_cons_self
    have hne : k ≠ j := fun heq => String.lt_irrefl j (heq ▸ hlt)
    rw [insert, if_neg (String.lt_asymm hlt), if_neg hne,
      ih fun p hp => h p (List.mem_cons_of_mem _ hp), List.cons_append]

/-- Pairs in order are the map of themselves. -/
theorem ofList_of_sorted {m : Keyed β} (h : Sorted m) : ofList m = m := by
  have hfold (rest : Keyed β) : ∀ front : Keyed β, Sorted (front ++ rest) →
      rest.foldl (fun m p => m.insert p.1 p.2) front = front ++ rest := by
    induction rest with
    | nil => exact fun front _ => (List.append_nil front).symm
    | cons p rest ih =>
      intro front hsorted
      have hlast : ∀ q ∈ front, q.1 < p.1 := fun q hq =>
        (List.pairwise_append.mp hsorted).2.2 q hq p List.mem_cons_self
      have happend : front ++ p :: rest = (front ++ [p]) ++ rest := by simp
      rw [happend] at hsorted ⊢
      rw [List.foldl_cons, insert_of_forall_lt hlast, ih _ hsorted]
  exact hfold m [] h

/-! ### Insertion into pairs in order -/

/-- After an insertion there are the pair that was inserted and pairs that were there. -/
theorem eq_or_mem_of_mem_insert {m : Keyed β} {k : String} {v : β} {p : String × β}
    (h : p ∈ m.insert k v) : p = (k, v) ∨ p ∈ m := by
  induction m with
  | nil => exact Or.inl (List.mem_singleton.mp h)
  | cons q m ih =>
    rw [insert] at h
    split_ifs at h
    · exact List.mem_cons.mp h
    · exact (List.mem_cons.mp h).imp_right (List.mem_cons_of_mem q)
    · rcases List.mem_cons.mp h with rfl | h
      · exact Or.inr List.mem_cons_self
      · exact (ih h).imp_right (List.mem_cons_of_mem q)

/-- Pairs stay in order when one is inserted. -/
theorem Sorted.insert {m : Keyed β} (h : m.Sorted) (k : String) (v : β) :
    (m.insert k v).Sorted := by
  induction m with
  | nil => exact List.pairwise_singleton _ _
  | cons q m ih =>
    obtain ⟨j, w⟩ := q
    obtain ⟨hfirst, hrest⟩ := List.pairwise_cons.mp h
    rw [Keyed.insert]
    split_ifs with hlt heq
    · -- What comes after the next key comes after the new one too.
      refine List.pairwise_cons.mpr ⟨fun p hp => ?_, h⟩
      rcases List.mem_cons.mp hp with rfl | hp
      · exact hlt
      · exact String.lt_trans hlt (hfirst p hp)
    · exact List.pairwise_cons.mpr ⟨fun p hp => heq ▸ hfirst p hp, hrest⟩
    · refine List.pairwise_cons.mpr ⟨fun p hp => ?_, ih hrest⟩
      rcases eq_or_mem_of_mem_insert hp with rfl | hp
      · exact Std.lt_of_le_of_ne (String.not_lt.mp hlt) (Ne.symm heq)
      · exact hfirst p hp

/-- The map of a list of pairs is in order. -/
theorem sorted_ofList (pairs : List (String × β)) : (ofList pairs).Sorted :=
  List.foldlRecOn pairs _ List.Pairwise.nil fun _ hm p _ => hm.insert p.1 p.2

/-- A pair with a new key is put somewhere between the others. -/
theorem insert_perm {m : Keyed β} {k : String} (h : ∀ p ∈ m, k ≠ p.1) (v : β) :
    (m.insert k v).Perm ((k, v) :: m) := by
  induction m with
  | nil => exact .refl _
  | cons q m ih =>
    obtain ⟨j, w⟩ := q
    obtain ⟨hfirst, hrest⟩ := List.forall_mem_cons.mp h
    rw [insert, if_neg hfirst]
    split_ifs
    · exact .refl _
    · exact ((ih hrest).cons (j, w)).trans (.swap _ _ _)

/-- Pairs with new keys are put somewhere between the others. -/
theorem foldl_insert_perm {pairs : List (String × β)} {m : Keyed β}
    (h : (pairs ++ m).Pairwise (·.1 ≠ ·.1)) :
    (pairs.foldl (fun m p => m.insert p.1 p.2) m).Perm (pairs ++ m) := by
  induction pairs generalizing m with
  | nil => exact .refl _
  | cons p pairs ih =>
    obtain ⟨hfirst, hrest⟩ := List.pairwise_cons.mp h
    have hinsert : (pairs ++ m.insert p.1 p.2).Perm (p :: (pairs ++ m)) :=
      ((insert_perm (fun q hq => hfirst q (List.mem_append_right pairs hq)) p.2).append_left
        pairs).trans List.perm_middle
    exact (ih ((hinsert.pairwise_iff fun hne => Ne.symm hne).mpr h)).trans hinsert

/-- The map of a list of pairs is the list in another order, if no two of them have one key. -/
theorem perm_ofList {pairs : List (String × β)} (h : pairs.Pairwise (·.1 ≠ ·.1)) :
    (ofList pairs).Perm pairs := by
  have hpairs := foldl_insert_perm (m := []) ((List.append_nil pairs).symm ▸ h)
  rwa [List.append_nil] at hpairs

/-- The map of a list of pairs is the list in order, if no two of them have one key. -/
theorem ofList_eq_of_perm {pairs : List (String × β)} {m : Keyed β} (h : pairs.Perm m)
    (hm : m.Sorted) : ofList pairs = m := by
  have hkeys : pairs.Pairwise (·.1 ≠ ·.1) :=
    (h.pairwise_iff fun hne => Ne.symm hne).mpr (hm.imp Std.ne_of_lt)
  exact ((perm_ofList hkeys).trans h).eq_of_pairwise
    (fun _ _ _ _ hlt hgt => absurd hgt (String.lt_asymm hlt)) (sorted_ofList pairs) hm

/-- The map of a list of pairs has no others. -/
theorem mem_of_mem_ofList {pairs : List (String × β)} {p : String × β} (h : p ∈ ofList pairs) :
    p ∈ pairs := by
  refine List.foldlRecOn (motive := fun m : Keyed β => ∀ q ∈ m, q ∈ pairs) pairs _
    (fun q hq => absurd hq List.not_mem_nil) (fun m hm r hr q hq => ?_) p h
  rcases eq_or_mem_of_mem_insert hq with rfl | hq
  · exact hr
  · exact hm q hq

/-- The value of a key stands beside it. -/
theorem mem_of_get? {m : Keyed β} {k : String} {v : β} (h : m.get? k = some v) : (k, v) ∈ m := by
  obtain ⟨before, after, rfl, -⟩ := List.lookup_eq_some_iff.mp h
  exact List.mem_append_right before List.mem_cons_self

/-- The keys of the map of a list of pairs are the keys that are listed. -/
theorem mem_keys_ofList {pairs : List (String × β)} {k : String} :
    k ∈ (ofList pairs).keys ↔ ∃ p ∈ pairs, p.1 = k := by
  constructor
  · intro h
    obtain ⟨p, hp, rfl⟩ := List.mem_map.mp h
    exact ⟨p, mem_of_mem_ofList hp, rfl⟩
  · rintro ⟨p, hp, rfl⟩
    -- Once its pair is inserted, a key stays.
    have hstays (rest : List (String × β)) (m : Keyed β) (h : (m.get? p.1).isSome) :
        ((rest.foldl (fun m p => m.insert p.1 p.2) m).get? p.1).isSome :=
      List.foldlRecOn (motive := fun m : Keyed β => (m.get? p.1).isSome) rest _ h fun m hm q _ => by
        rw [get?_insert]
        split_ifs
        · rfl
        · exact hm
    obtain ⟨before, after, rfl⟩ := List.append_of_mem hp
    have hsome : ((ofList (before ++ p :: after)).get? p.1).isSome := by
      rw [ofList, List.foldl_append, List.foldl_cons]
      exact hstays after _ (by rw [get?_insert_self, Option.isSome_some])
    obtain ⟨v, hv⟩ := Option.isSome_iff_exists.mp hsome
    exact List.mem_map.mpr ⟨(p.1, v), mem_of_get? hv, rfl⟩

/-- In pairs that are in order, what stands beside a key is its value. -/
theorem Sorted.get?_eq_some {m : Keyed β} (h : m.Sorted) {p : String × β} (hp : p ∈ m) :
    m.get? p.1 = some p.2 := by
  obtain ⟨before, after, rfl⟩ := List.append_of_mem hp
  refine List.lookup_eq_some_iff.mpr ⟨before, after, rfl, fun q hq => ?_⟩
  have hlt : q.1 < p.1 := (List.pairwise_append.mp h).2.2 q hq p List.mem_cons_self
  have hne : p.1 ≠ q.1 := fun heq => String.lt_irrefl q.1 (heq ▸ hlt)
  exact bne_iff_ne.mpr hne

/-- In pairs that are in order, a value that is found among some of them is found among all. -/
theorem Sorted.get?_of_sublist {m part : Keyed β} (h : m.Sorted) (hpart : part.Sublist m)
    {k : String} {v : β} (hget : part.get? k = some v) : m.get? k = some v :=
  h.get?_eq_some (hpart.subset (mem_of_get? hget))

/-- Of pairs that are in order, erasing a key takes out one. -/
theorem Sorted.perm_cons_erase {m : Keyed β} (h : m.Sorted) {p : String × β} (hp : p ∈ m) :
    m.Perm (p :: m.erase p.1) := by
  obtain ⟨before, after, rfl⟩ := List.append_of_mem hp
  obtain ⟨-, hafter, hbefore⟩ := List.pairwise_append.mp h
  have hb : erase before p.1 = before := List.filter_eq_self.mpr fun q hq =>
    decide_eq_true (Std.ne_of_lt (hbefore q hq p List.mem_cons_self))
  have ha : erase after p.1 = after := List.filter_eq_self.mpr fun q hq =>
    decide_eq_true (Std.ne_of_lt ((List.pairwise_cons.mp hafter).1 q hq)).symm
  have herase : erase (before ++ p :: after) p.1 = erase before p.1 ++ erase after p.1 := by
    simp [erase]
  rw [herase, hb, ha]
  exact List.perm_middle

/-- The keys stay the same when the value of one of them is replaced. -/
theorem Sorted.keys_insert {m : Keyed β} (h : m.Sorted) {p : String × β} (hp : p ∈ m) (v : β) :
    (m.insert p.1 v).keys = m.keys := by
  induction m with
  | nil => cases hp
  | cons q m ih =>
    obtain ⟨hfirst, hrest⟩ := List.pairwise_cons.mp h
    rcases List.mem_cons.mp hp with rfl | hp
    · rw [Keyed.insert, if_neg (String.lt_irrefl p.1), if_pos rfl]
      rfl
    · have hlt : q.1 < p.1 := hfirst p hp
      rw [Keyed.insert, if_neg (String.lt_asymm hlt), if_neg (Std.ne_of_lt hlt).symm]
      exact congrArg (q.1 :: ·) (ih hrest hp)

/-- An insertion adds at most one pair. -/
theorem length_insert_le (m : Keyed β) (k : String) (v : β) :
    (m.insert k v).length ≤ m.length + 1 := by
  induction m with
  | nil => exact Nat.le_refl 1
  | cons q m ih =>
    rw [insert]
    split_ifs
    · exact Nat.le_refl _
    · exact Nat.le_succ _
    · exact Nat.succ_le_succ ih

/-- Pairs that are in order are known by what is found among them. -/
theorem Sorted.eq_of_get? {m m' : Keyed β} (h : m.Sorted) (h' : m'.Sorted)
    (heq : ∀ k, m.get? k = m'.get? k) : m = m' := by
  have hnodup {m : Keyed β} (h : m.Sorted) : m.Nodup := by
    refine h.imp fun hlt heq => ?_
    rw [heq] at hlt
    exact String.lt_irrefl _ hlt
  have hmem {m : Keyed β} (h : m.Sorted) (p : String × β) : p ∈ m ↔ m.get? p.1 = some p.2 :=
    ⟨h.get?_eq_some, mem_of_get?⟩
  have hperm : m.Perm m' := (List.perm_ext_iff_of_nodup (hnodup h) (hnodup h')).mpr fun p => by
    rw [hmem h, hmem h', heq]
  rw [← ofList_of_sorted h]
  exact ofList_eq_of_perm hperm h'

/-- Insertions of different keys can be exchanged. -/
theorem Sorted.insert_comm {m : Keyed β} (h : m.Sorted) {j k : String} (hne : j ≠ k) (v w : β) :
    (m.insert j v).insert k w = (m.insert k w).insert j v := by
  refine ((h.insert j v).insert k w).eq_of_get? ((h.insert k w).insert j v) fun i => ?_
  simp only [get?_insert]
  split_ifs with hk hj
  · exact absurd (hj.symm.trans hk) hne
  all_goals rfl

/-- Neighbouring pairs with different keys can be exchanged in the list that a map is made of. -/
theorem ofList_swap {p q : String × β} (hne : p.1 ≠ q.1) (before after : List (String × β)) :
    ofList (before ++ p :: q :: after) = ofList (before ++ q :: p :: after) := by
  have hswap := (sorted_ofList before).insert_comm hne p.2 q.2
  simp only [ofList] at hswap
  simp only [ofList, List.foldl_append, List.foldl_cons, hswap]

/-- Pairs that are in order are their keys, each with its value. -/
theorem Sorted.filterMap_keys {m : Keyed β} (h : m.Sorted) :
    m.keys.filterMap (fun k => (m.get? k).map (k, ·)) = m := by
  have hpair {p : String × β} (hp : p ∈ m) : (m.get? p.1).map (p.1, ·) = some p := by
    rw [h.get?_eq_some hp]
    rfl
  rw [keys, List.filterMap_map]
  exact (List.filterMap_congr fun p hp => hpair hp).trans List.filterMap_some

theorem Sorted.erase {m : Keyed β} (h : m.Sorted) (k : String) : (m.erase k).Sorted :=
  h.filter _

/-! ### Other values for the same keys -/

variable {γ : Type}

theorem get?_map (m : Keyed β) (f : β → γ) (k : String) :
    get? (m.map fun p => (p.1, f p.2)) k = (m.get? k).map f := by
  induction m with
  | nil => rfl
  | cons p m ih =>
    rw [List.map_cons, get?_cons, ih, get?_cons]
    split <;> rfl

theorem map_insert (m : Keyed β) (k : String) (v : β) (f : β → γ) :
    ((m.insert k v).map fun p => (p.1, f p.2)) =
      insert (m.map fun p => (p.1, f p.2)) k (f v) := by
  induction m with
  | nil => rfl
  | cons p m ih =>
    rw [List.map_cons, insert, insert]
    split_ifs
    · rfl
    · rfl
    · rw [List.map_cons, ih]

end MeshNode.Keyed
