import MeshNode.Envelope
import MeshNode.Proofs.Json.Reordered
import MeshNode.Proofs.Json.Unique

/-!
# What is authenticated beside a payload

The value beside a payload is authenticated as the bytes of its compact form, and no value as no
bytes. So the bytes tell whether there was a value, and which one if it has no doubles
(`aadBytes_exact`). This holds of a null as well, which is written as a word: it is because of the
written form of envelopes, not of these bytes, that sealing takes a null for an absent value.

Where a value comes from a text or is put together member by member, the order of its members is
lost before there are bytes, and nothing but the order.
-/

namespace MeshNode

namespace Envelope

/-- Every value is authenticated as at least one byte. -/
theorem aadBytes_some_ne_nil (j : Json) : aadBytes (some j) ≠ [] := by
  obtain ⟨b, t, heq, -⟩ := j.exists_render_eq
  rw [aadBytes, heq]
  exact List.cons_ne_nil b t

/-- Values without doubles are told apart by the bytes that they are authenticated as, and from an
absent one. -/
theorem aadBytes_inj {aad aad' : Option Json} (h : ∀ j ∈ aad, j.Integral)
    (h' : ∀ j ∈ aad', j.Integral) : aadBytes aad = aadBytes aad' ↔ aad = aad' := by
  refine ⟨fun heq => ?_, congrArg aadBytes⟩
  cases aad with
  | none =>
    cases aad' with
    | none => rfl
    | some j' => exact absurd heq.symm (aadBytes_some_ne_nil j')
  | some j =>
    cases aad' with
    | none => exact absurd heq (aadBytes_some_ne_nil j)
    | some j' => exact congrArg some (((h j rfl).render_inj (h' j' rfl)).mp heq)

/-- **Different values are authenticated as different bytes**: optional values without doubles have
the same bytes only if they are equal, and no value has those of an absent one. Values that differ
in the order of members alone are one value in order, and that is what a text of either is read as.
Without repeated names, two values have the same bytes in order exactly if they differ so. -/
theorem aadBytes_exact :
    (∀ aad aad' : Option Json, (∀ j ∈ aad, j.Integral) → (∀ j ∈ aad', j.Integral) →
      (aadBytes aad = aadBytes aad' ↔ aad = aad')) ∧
    (∀ j : Json, aadBytes none ≠ aadBytes (some j)) ∧
    (∀ t t' : Json, t.Reordered t' → t.sorted = t'.sorted ∧
      ∀ text text' : Bytes, Json.asWritten text = .ok t → Json.asWritten text' = .ok t' →
        Json.ofBytes text = .ok t.sorted ∧ Json.ofBytes text' = .ok t.sorted) ∧
    (∀ t t' : Json, t.Integral → t'.Integral → t.Distinct → t'.Distinct →
      (aadBytes (some t.sorted) = aadBytes (some t'.sorted) ↔ t.Reordered t')) := by
  refine ⟨fun _ _ => aadBytes_inj, fun j => (aadBytes_some_ne_nil j).symm,
    fun t t' hreordered => ⟨hreordered.sorted_eq, fun text text' htext htext' => ?_⟩,
    fun t t' h h' hnames hnames' => ?_⟩
  · exact ⟨Json.ofBytes_of_asWritten htext,
      hreordered.sorted_eq ▸ Json.ofBytes_of_asWritten htext'⟩
  · have hbytes : aadBytes (some t.sorted) = aadBytes (some t'.sorted) ↔ t.sorted = t'.sorted :=
      h.sorted.render_inj h'.sorted
    exact hbytes.trans (hnames.sorted_eq_iff hnames')

/-- An array of one text that looks like two once it is written, and an object whose members are
written in another order at two depths, with other blanks and an escape. -/
theorem aadBytes_exact_of_orders :
    let joined : Json := .arr [.str "a\",\"b"]
    let apart : Json := .arr [.str "a", .str "b"]
    let part : Json := .obj [("y", .int 1), ("x", .null)]
    let part' : Json := .obj [("x", .null), ("y", .int 1)]
    let t : Json := .obj [("b", .arr [part]), ("a", .int (-1))]
    let t' : Json := .obj [("a", .int (-1)), ("b", .arr [part'])]
    let text := Bytes.ofText "\x7b\"b\":[\x7b\"y\":1,\"x\":null\x7d],\"a\":-1\x7d"
    let text' := Bytes.ofText
      "\x7b \"a\": -1, \"\\u0062\": [\x7b\"x\": null, \"y\": 1\x7d] \x7d"
    (joined.Integral ∧ apart.Integral ∧ aadBytes (some joined) ≠ aadBytes (some apart)) ∧
      (t.Reordered t' ∧ Json.asWritten text = .ok t ∧ Json.asWritten text' = .ok t' ∧
        Json.ofBytes text = .ok t.sorted ∧ Json.ofBytes text' = .ok t.sorted) ∧
      (part.Integral ∧ part'.Integral ∧ part.Distinct ∧ part'.Distinct ∧
        aadBytes (some part.sorted) = aadBytes (some part'.sorted)) := by
  intro joined apart part part' t t' text text'
  obtain ⟨hinj, -, horder, hbytes⟩ := aadBytes_exact
  have hjoined : joined.Integral := .arr (by simp [Json.Integral.str])
  have hapart : apart.Integral := .arr (by simp [Json.Integral.str])
  have hne : aadBytes (some joined) ≠ aadBytes (some apart) := by
    refine mt (hinj _ _ (fun _ hj => Option.some.inj hj ▸ hjoined)
      fun _ hj => Option.some.inj hj ▸ hapart).mp ?_
    simp [joined, apart]
  have hpart : part.Reordered part' := .swap (by decide) [] []
  have houter : t.Reordered (.obj [("a", .int (-1)), ("b", .arr [part])]) :=
    .swap (by decide) [] []
  have hreordered : t.Reordered t' :=
    houter.trans ((hpart.element [] []).member "b" [("a", .int (-1))] [])
  have htext : Json.asWritten text = .ok t := rfl
  have htext' : Json.asWritten text' = .ok t' := rfl
  have hintegral : part.Integral := .obj (by simp [Json.Integral.int, Json.Integral.null])
  have hintegral' : part'.Integral := .obj (by simp [Json.Integral.int, Json.Integral.null])
  have hdistinct : part.Distinct := .obj (by simp) (by simp [Json.Distinct.num, Json.Distinct.null])
  have hdistinct' : part'.Distinct :=
    .obj (by simp) (by simp [Json.Distinct.num, Json.Distinct.null])
  exact ⟨⟨hjoined, hapart, hne⟩,
    ⟨hreordered, htext, htext', (horder t t' hreordered).2 text text' htext htext'⟩,
    hintegral, hintegral', hdistinct, hdistinct',
    (hbytes part part' hintegral hintegral' hdistinct hdistinct').mpr hpart⟩

end Envelope

end MeshNode
