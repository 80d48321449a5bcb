import MeshNode.Job.Response
import MeshNode.Proofs.Envelope
import MeshNode.Proofs.Json.Order

/-!
# Answers survive the wire

An answer is sent with its fields as they are declared when it is sealed, and in increasing order
when it is not. The result comes last both times, and what comes before it fills the same slots, so
that both forms are read alike, whatever the result is (`RunResponse.ofBytes_sorted_iff`). The
sealed form of requests and answers is read as it was, from its text or from a value.
-/

namespace MeshNode

namespace RunResponse

variable {a : RunResponse} {n : Nat}

/-- The fields in front of the result. -/
private def head (a : RunResponse) : List (String × Json) :=
  [("request_id", .str a.requestId), ("attempt_id", .str a.attemptId), ("job_id", .str a.jobId),
    ("cached", .bool a.cached)]

/-- The fields in front of the result, in increasing order. -/
private def sortedHead (a : RunResponse) : List (String × Json) :=
  [("attempt_id", .str a.attemptId), ("cached", .bool a.cached), ("job_id", .str a.jobId),
    ("request_id", .str a.requestId)]

private theorem sortedHead_perm (a : RunResponse) : (sortedHead a).Perm (head a) :=
  (List.perm_append_singleton _ [_, _, _]).trans (((List.Perm.swap _ _ _).cons _).cons _)

private theorem toJson_sorted (h : a.result.InOrder n) :
    a.toJson.sorted = .obj (sortedHead a ++ [("result", a.result)]) := by
  have hkeys : ["attempt_id", "cached", "job_id", "request_id", "result"].Pairwise (· < ·) := by
    decide
  have hperm := (sortedHead_perm a).symm.append_right [("result", a.result)]
  rw [toJson, Json.sorted_obj]
  simp only [List.map_cons, List.map_nil, Json.sorted, h.sorted_eq]
  exact congrArg Json.obj (Keyed.ofList_eq_of_perm hperm (Keyed.sorted_of_keys hkeys))

section Fields

open Json Json.Fields

/-- The fields of an answer. -/
private def fields := cons (.required "request_id" .text) <| cons (.required "attempt_id" .text) <|
  cons (.required "job_id" .text) <| cons (.required "cached" .bool) <|
  cons (.required "result" .value) nil

variable {levels : Nat}

private theorem takes_requestId (s : String) (slots) :
    fields.Takes levels ("request_id", .str s) (none, slots) (some s, slots) :=
  takes_first _ (Decoder.reads_text levels s) slots

private theorem takes_attemptId (s : String) (slot slots) :
    fields.Takes levels ("attempt_id", .str s) (slot, none, slots) (slot, some s, slots) :=
  (takes_first _ (Decoder.reads_text levels s) slots).later (by simp) slot

private theorem takes_jobId (s : String) (slot slot' slots) :
    fields.Takes levels ("job_id", .str s) (slot, slot', none, slots)
      (slot, slot', some s, slots) :=
  ((takes_first _ (Decoder.reads_text levels s) slots).later (by simp) slot').later (by simp) slot

private theorem takes_cached (b : Bool) (slot slot' slot'' slots) :
    fields.Takes levels ("cached", .bool b) (slot, slot', slot'', none, slots)
      (slot, slot', slot'', some b, slots) :=
  (((takes_first _ (Decoder.reads_bool levels b) slots).later (by simp) slot'').later
    (by simp) slot').later (by simp) slot

private theorem fills_head (a : RunResponse) : fields.Fills levels fields.blank (head a)
    (some a.requestId, some a.attemptId, some a.jobId, some a.cached, none, ()) :=
  .cons (takes_requestId _ _) <| .cons (takes_attemptId _ _ _) <| .cons (takes_jobId _ _ _ _) <|
    .cons (takes_cached _ _ _ _ _) .nil

private theorem fills_sortedHead (a : RunResponse) :
    fields.Fills levels fields.blank (sortedHead a)
      (some a.requestId, some a.attemptId, some a.jobId, some a.cached, none, ()) :=
  .cons (takes_attemptId _ _ _) <| .cons (takes_cached _ _ _ _ _) <| .cons (takes_jobId _ _ _ _) <|
    .cons (takes_requestId _ _) .nil

end Fields

/-- Both forms are equally long. -/
theorem length_sorted (h : a.result.InOrder n) :
    a.toJson.sorted.render.length = a.toJson.render.length := by
  rw [toJson_sorted h]
  exact Json.length_render_obj_of_perm ((sortedHead_perm a).append_right [("result", a.result)])

/-- Both forms are read alike. -/
theorem read_sorted (h : a.result.InOrder n) (levels : Nat) :
    decoder.read (levels + 1) a.toJson.sorted.render =
      decoder.read (levels + 1) a.toJson.render := by
  rw [toJson_sorted h]
  exact Json.Decoder.read_record_perm (fills_sortedHead a) (fills_head a) (sortedHead_perm a)
    [("result", a.result)] _ _

/-- **Both forms are read alike** from a whole text. -/
theorem ofBytes_sorted_iff (h : a.result.InOrder n) {a' : RunResponse} :
    decoder.ofBytes a.toJson.sorted.render = .ok a' ↔ decoder.ofBytes a.toJson.render = .ok a' := by
  rw [Json.Decoder.ofBytes_eq_ok_iff, Json.Decoder.ofBytes_eq_ok_iff, Json.maxDepth,
    read_sorted h 126]

/-- An answer is read as it was sent, if its result can be read beneath it. -/
theorem ofBytes_render (h : Json.Reads (Json.readValue 126) a.result a.result) :
    decoder.ofBytes a.toJson.render = .ok a := by
  have hresult := (Json.Fields.readsMembers_nil 126).present (f := .required "result" .value)
    (by simp) h
  have hcached := hresult.present (f := .required "cached" .bool) (by simp)
    (Json.Decoder.reads_bool 126 a.cached)
  have hjob := hcached.present (f := .required "job_id" .text) (by simp)
    (Json.Decoder.reads_text 126 a.jobId)
  have hattempt := hjob.present (f := .required "attempt_id" .text) (by simp)
    (Json.Decoder.reads_text 126 a.attemptId)
  have hall := hattempt.present (f := .required "request_id" .text) (by simp)
    (Json.Decoder.reads_text 126 a.requestId)
  exact Json.Decoder.ofBytes_render (Json.Decoder.reads_record hall _ _)

end RunResponse

/-! ### Sealed forms -/

namespace Envelope

variable {e : Envelope} {n : Nat}

/-- The members of an envelope in increasing order. -/
private def sortedMembers (e : Envelope) : List (String × Json) :=
  (e.aad.map ("aad", ·)).toList ++ [("ct", .str e.ct), ("nonce", .str e.nonce), ("ts", .int e.ts)]

private theorem toJson_sorted (h : ∀ j ∈ e.aad, j.InOrder n) :
    e.toJson.sorted = .obj (sortedMembers e) := by
  obtain ⟨ct, nonce, ts, aad⟩ := e
  cases aad with
  | none =>
    have hkeys : ["ct", "nonce", "ts"].Pairwise (· < ·) := by decide
    rw [toJson, Json.sorted_obj]
    simp only [List.append_nil, List.map_cons, List.map_nil, Json.sorted]
    exact congrArg Json.obj (Keyed.ofList_of_sorted (Keyed.sorted_of_keys hkeys))
  | some j =>
    have hj := (h j rfl).sorted_eq
    have hkeys : ["aad", "ct", "nonce", "ts"].Pairwise (· < ·) := by decide
    rw [toJson, Json.sorted_obj]
    simp only [List.cons_append, List.nil_append, List.map_cons, List.map_nil, Json.sorted, hj]
    exact congrArg Json.obj (Keyed.ofList_eq_of_perm (List.perm_append_singleton _ [_, _, _])
      (Keyed.sorted_of_keys hkeys))

/-- An envelope is converted from its value as it was. -/
theorem convert_sorted (hts : -0x8000000000000000 ≤ e.ts ∧ e.ts ≤ 0x7fffffffffffffff)
    (haad : ∀ j ∈ e.aad, j ≠ .null ∧ j.InOrder n) : decoder.convert e.toJson.sorted = .ok e := by
  rw [toJson_sorted fun j hj => (haad j hj).2]
  obtain ⟨ct, nonce, ts, aad⟩ := e
  have htext (s : String) : Json.Decoder.text.convert (.str s) = .ok s := rfl
  have htime : Json.Decoder.int64.convert (.int ts) = .ok ts := if_pos hts
  cases aad with
  | none =>
    simp [decoder, sortedMembers, Json.Decoder.record, Json.Fields.convertMembers, Json.Fields.cons,
      Json.Fields.nil, Json.Field.required, Json.Field.omissible, Json.Field.withDefault, htext,
      htime, Except.map]
  | some j =>
    have haad : Json.Decoder.value.option.convert j = .ok (some j) :=
      Json.Decoder.convert_option_some _ (haad j rfl).1
    simp [decoder, sortedMembers, Json.Decoder.record, Json.Fields.convertMembers, Json.Fields.cons,
      Json.Fields.nil, Json.Field.required, Json.Field.omissible, Json.Field.withDefault, htext,
      htime, haad, Except.map]

/-- An envelope is read back as a value. -/
theorem readable_sorted (hts : -0x8000000000000000 ≤ e.ts ∧ e.ts ≤ 0x7fffffffffffffff)
    (haad : ∀ j ∈ e.aad, j.Readable 125) : e.toJson.sorted.Readable 126 := by
  rw [toJson_sorted fun j hj => (haad j hj).inOrder]
  obtain ⟨ct, nonce, ts, aad⟩ := e
  have htime : Json.Readable 125 (.int ts) := .int ⟨hts.1, Int.lt_of_le_of_lt hts.2 (by decide)⟩
  cases aad with
  | none =>
    have hkeys : ["ct", "nonce", "ts"].Pairwise (· < ·) := by decide
    refine .obj (Keyed.sorted_of_keys hkeys) ?_
    simp only [sortedMembers, Option.map_none, Option.toList_none, List.nil_append,
      List.forall_mem_cons, List.not_mem_nil, false_imp_iff, implies_true, and_true]
    exact ⟨.str, .str, htime⟩
  | some j =>
    have hkeys : ["aad", "ct", "nonce", "ts"].Pairwise (· < ·) := by decide
    refine .obj (Keyed.sorted_of_keys hkeys) ?_
    simp only [sortedMembers, Option.map_some, Option.toList_some, List.cons_append,
      List.nil_append, List.forall_mem_cons, List.not_mem_nil, false_imp_iff, implies_true,
      and_true]
    exact ⟨haad j rfl, .str, .str, htime⟩

/-- An envelope is read from its value as it was, one level deeper than by itself. -/
theorem reads_sorted (hts : -0x8000000000000000 ≤ e.ts ∧ e.ts ≤ 0x7fffffffffffffff)
    (haad : ∀ j ∈ e.aad, j ≠ .null ∧ j.Readable 125) :
    Json.Reads (decoder.read 126) e.toJson.sorted e := by
  rw [toJson_sorted fun j hj => (haad j hj).2.inOrder]
  obtain ⟨ct, nonce, ts, aad⟩ := e
  have hct := Json.Decoder.reads_text 125 ct
  have hnonce := Json.Decoder.reads_text 125 nonce
  have hts := Json.Decoder.reads_int64 hts 125
  cases aad with
  | none =>
    have habsent := (Json.Fields.readsMembers_nil 125).absent
      (f := .omissible "aad" .value) (by simp) rfl
    have hlast := habsent.present (f := .required "ts" .int64) (by simp) hts
    have hmiddle := hlast.present (f := .required "nonce" .text) (by simp) hnonce
    have hall := hmiddle.present (f := .required "ct" .text) (by simp) hct
    exact Json.Decoder.reads_record hall _ _
  | some j =>
    obtain ⟨hnull, hreadable⟩ := haad j rfl
    have hvalue := Json.Decoder.reads_option_some (Json.Decoder.reads_value hreadable) hnull
    have hfront := (Json.Fields.readsMembers_nil 125).present
      (f := .omissible "aad" .value) (by simp) hvalue
    have hlast := hfront.insert [_] (f := .required "ts" .int64) (by simp) hts
    have hmiddle := hlast.insert [_] (f := .required "nonce" .text) (by simp) hnonce
    have hall := hmiddle.insert [_] (f := .required "ct" .text) (by simp) hct
    exact Json.Decoder.reads_record hall _ _

end Envelope

namespace SealedRun

variable {r : SealedRun} {n : Nat}

theorem toJson_sorted (r : SealedRun) :
    r.toJson.sorted =
      .obj [("envelope", r.envelope.toJson.sorted), ("session_id", .str r.sessionId)] := by
  have hkeys : ["envelope", "session_id"].Pairwise (· < ·) := by decide
  rw [toJson, Json.sorted_obj]
  simp only [List.map_cons, List.map_nil, Json.sorted]
  exact congrArg Json.obj (Keyed.ofList_eq_of_perm (.swap _ _ _) (Keyed.sorted_of_keys hkeys))

/-- The sealed form is converted from its value as it was. -/
theorem convert_sorted
    (hts : -0x8000000000000000 ≤ r.envelope.ts ∧ r.envelope.ts ≤ 0x7fffffffffffffff)
    (haad : ∀ j ∈ r.envelope.aad, j ≠ .null ∧ j.InOrder n) :
    decoder.convert r.toJson.sorted = .ok r := by
  have hid : Json.Decoder.text.convert (.str r.sessionId) = .ok r.sessionId := rfl
  have henvelope := Envelope.convert_sorted hts haad
  rw [toJson_sorted]
  simp [decoder, Json.Decoder.record, Json.Fields.convertMembers, Json.Fields.cons, Json.Fields.nil,
    Json.Field.required, hid, henvelope, Except.map]

/-- The sealed form is read back as a value. -/
theorem readable_sorted
    (hts : -0x8000000000000000 ≤ r.envelope.ts ∧ r.envelope.ts ≤ 0x7fffffffffffffff)
    (haad : ∀ j ∈ r.envelope.aad, j.Readable 125) : r.toJson.sorted.Readable Json.maxDepth := by
  rw [toJson_sorted]
  have hkeys : ["envelope", "session_id"].Pairwise (· < ·) := by decide
  refine .obj (Keyed.sorted_of_keys hkeys) ?_
  simp only [List.forall_mem_cons, List.not_mem_nil, false_imp_iff, implies_true, and_true]
  exact ⟨Envelope.readable_sorted hts haad, .str⟩

/-- The sealed form is read from its text as it was. -/
theorem ofBytes_sorted
    (hts : -0x8000000000000000 ≤ r.envelope.ts ∧ r.envelope.ts ≤ 0x7fffffffffffffff)
    (haad : ∀ j ∈ r.envelope.aad, j ≠ .null ∧ j.Readable 125) :
    decoder.ofBytes r.toJson.sorted.render = .ok r := by
  have henvelope := (Json.Fields.readsMembers_nil 126).present
    (f := .required "envelope" Envelope.decoder) (by simp) (Envelope.reads_sorted hts haad)
  have hall := Json.Fields.ReadsMembers.insert [_] henvelope (f := .required "session_id" .text)
    (by simp) (Json.Decoder.reads_text 126 r.sessionId)
  rw [toJson_sorted]
  exact Json.Decoder.ofBytes_render (Json.Decoder.reads_record hall _ _)

end SealedRun

end MeshNode
