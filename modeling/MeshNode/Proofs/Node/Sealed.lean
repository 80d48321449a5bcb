import MeshNode.Proofs.Body
import MeshNode.Proofs.Handshake
import MeshNode.Proofs.Job.Response
import MeshNode.Proofs.Node.Repeated

/-!
# Sealed requests are answered as plain ones

A client at the other end of a session may seal a request for a job or send it plain. What it seals
is the text of the value, and the node reads it as the value that would have come plain if the
numbers are integers of 64 bits. Then it runs the same job on the same workspace. The answer that it
seals has its fields in another order than the plain one, but the client reads both alike, at
whatever depth reading stops: either as the same answer, or not at all (`sealed_agrees`). A result
of the job itself is always read; one that was looked up in the ledger may nest too deep beneath an
answer.

Other numbers are doubles, and the text of a double need not be read as the same one. A request that
holds such a number is another request once it is sealed (`not_forall_sealed_agrees`).
-/

namespace MeshNode

/-- No error is answered as a success. -/
theorem ApiError.status_ne (e : ApiError) : e.status ≠ 200 := by
  cases e with
  | auth error => cases error <;> simp [status]
  | badRequest | sealedAuth | notFound | internal => simp [status]

namespace Node

variable {n : Node} {o : Occasion} {client : Channel} {s : Session}
  {request opened : Json} {a a' : RunResponse}

/-- The node keeps the other end of the client's session. -/
structure Shares (n : Node) (client : Channel) (s : Session) : Prop where
  session : n.sessions.sessions.get? client.sessionId = some s
  paired : client.Paired s.channel

/-! ### Requests -/

/-- A request that a client has sealed. -/
def sealedRequest (client : Channel) (nonce : Bytes) (ts : Int) (request : Json)
    (aad : Option Json) : SealedRun :=
  ⟨client.sessionId, client.sealed nonce ts request.render aad⟩

theorem isSealed_toJson_sorted (r : SealedRun) : isSealed r.toJson.sorted = true := by
  rw [SealedRun.toJson_sorted]
  rfl

/-- What a client has sealed is opened and read as its text is. -/
theorem openAs_sealed (h : n.Shares client s) {nonce : Bytes}
    (hnonce : nonce.length = Aead.nonceLength) (ts : Int)
    (hread : Json.ofBytes request.render = .ok opened)
    (hlimit : Envelope.Admits s.channel.maxPayload request.render.length) (aad : Option Json) :
    s.channel.openAs .value (client.sealed nonce ts request.render aad) = .ok opened := by
  have hvalue : Json.Decoder.value.ofBytes request.render = .ok opened := hread
  simp only [Channel.openAs, h.paired.open?_sealed hnonce ts hlimit aad, hvalue]

/-- Jobs do not look at sessions. -/
theorem runJob_touched (id : String) (now : Nat) :
    (n.touched id now).runJob request o =
      ((n.runJob request o).1,
        { (n.runJob request o).2 with sessions := (n.sessions.get id now).2 }) := by
  cases hspec : JobSpec.ofRequest request with
  | error e =>
    rw [runJob_of_malformed hspec, runJob_of_malformed hspec]
    rfl
  | ok spec =>
    rw [runJob_of_ofRequest hspec, runJob_of_ofRequest hspec]
    rfl

/-- A sealed request runs the job of what its text is read as. -/
theorem run_sealed (h : n.Shares client s) {nonce : Bytes}
    (hnonce : nonce.length = Aead.nonceLength) {ts : Int}
    (hts : -0x8000000000000000 ≤ ts ∧ ts ≤ 0x7fffffffffffffff)
    (hread : Json.ofBytes request.render = .ok opened)
    (hlimit : Envelope.Admits s.channel.maxPayload request.render.length) {aad : Option Json}
    {levels : Nat} (haad : ∀ j ∈ aad, j.InOrder levels) :
    n.run (sealedRequest client nonce ts request aad).toJson.sorted o =
      ((n.runJob opened o).1.map fun a =>
          (answerIn s.channel client.sessionId o a).toJson.sorted,
        { (n.runJob opened o).2 with
          sessions := (n.sessions.get client.sessionId o.nanos).2 }) := by
  have hconvert := SealedRun.convert_sorted (r := sealedRequest client nonce ts request aad) hts
    fun j hj => (Envelope.mem_of_mem_presentAad hj).imp_right (haad j)
  have hopen := openAs_sealed h hnonce ts hread hlimit aad
  have hrun := runSealed_of_opened (n := n) (o := o)
    (r := sealedRequest client nonce ts request aad) h.session hopen
  rw [run, isSealed_toJson_sorted, if_pos rfl, hconvert]
  simp only [hrun, runJob_touched]
  rcases n.runJob opened o with ⟨_ | _, _⟩ <;> rfl

/-! ### Answers -/

/-- What a job answers comes from a call for it. -/
theorem exists_run_of_runJob (h : (n.runJob request o).1 = .ok a) :
    ∃ spec, JobSpec.ofRequest request = .ok spec ∧
      (n.runner.run (o.call spec) n.workspace).1 = .ok a := by
  cases hspec : JobSpec.ofRequest request with
  | error e =>
    rw [runJob_of_malformed hspec] at h
    cases h
  | ok spec =>
    rw [runJob_of_ofRequest hspec] at h
    cases hrun : (n.runner.run (o.call spec) n.workspace).1 with
    | error e =>
      rw [hrun] at h
      cases h
    | ok a' =>
      rw [hrun] at h
      exact ⟨spec, rfl, hrun.trans (congrArg Except.ok (Except.ok.inj h))⟩

/-- What a job answers is in order if its request is. -/
theorem inOrder_of_runJob (hrequest : request.InOrder Json.maxDepth)
    (h : (n.runJob request o).1 = .ok a) : a.result.InOrder Json.maxDepth := by
  obtain ⟨spec, hspec, hrun⟩ := exists_run_of_runJob h
  have hargs : (o.call spec).spec.args.InOrder 126 := JobSpec.inOrder_of_ofRequest hrequest hspec
  exact JobRunner.inOrder_of_run hargs (by decide) hrun

/-- A result can be read beneath an answer if the job has it, or else if it does not nest too deep
and its numbers are integers of 64 bits. -/
theorem reads_of_runJob (hrequest : request.InOrder Json.maxDepth) (hlossless : request.Lossless)
    (hclock : Number.InRange o.wallMillis) (h : (n.runJob request o).1 = .ok a)
    (hfresh : a.cached = false → Job.Counted a.result)
    (hcached : a.cached = true → a.result.InOrder 126 ∧ a.result.Lossless) :
    Json.Reads (Json.readValue 126) a.result a.result := by
  obtain ⟨spec, hspec, hrun⟩ := exists_run_of_runJob h
  have hresult : a.result.InOrder 126 ∧ a.result.Lossless := by
    rcases JobRunner.result_of_run hrun with ⟨hnew, hresult⟩ | ⟨hlooked, -⟩
    · have hargs : spec.args.Lossless :=
        JobSpec.args_of_ofRequest Json.Lossless.inherits hlossless hspec
      exact ⟨hresult.inOrder (JobSpec.inOrder_of_ofRequest hrequest hspec),
        hresult.lossless hargs hclock (hfresh hnew)⟩
    · exact hcached hlooked
  exact (hresult.2.shaped hresult.1).reads hresult.2.whole

/-- The envelope of an answer is read from its text. -/
theorem ofBytes_answerIn (c : Channel) (id : String)
    (ho : -0x8000000000000000 ≤ o.wallMillis ∧ o.wallMillis ≤ 0x7fffffffffffffff)
    (a : RunResponse) :
    SealedRun.decoder.ofBytes (answerIn c id o a).toJson.sorted.render =
      .ok (answerIn c id o a) := by
  refine SealedRun.ofBytes_sorted ho fun j hj => ?_
  obtain rfl := Option.some.inj hj
  have hkeys : ["request_id", "session_id"].Pairwise (· < ·) := by decide
  refine ⟨Json.noConfusion, .obj (Keyed.sorted_of_keys hkeys) ?_⟩
  simp only [List.forall_mem_cons, List.not_mem_nil, false_imp_iff, implies_true, and_true]
  exact ⟨.str, .str⟩

/-- The client reads from the envelope of an answer what it would have read from the answer. -/
theorem openAnswer_answerIn_iff (h : n.Shares client s) (ho : o.nonce.length = Aead.nonceLength)
    (hlimit : Envelope.Admits client.maxPayload a.toJson.render.length) (id : String) :
    client.openAnswer (answerIn s.channel id o a) = .ok a' ↔
      RunResponse.decoder.ofBytes a.toJson.render = .ok a' := by
  simp only [Channel.openAnswer, Channel.openAs, answerIn,
    h.paired.symm.open?_sealed ho o.wallMillis hlimit]
  split
  · rename_i hread
    simp [hread]
  · rename_i hread
    simp [hread]

/-! ### Agreement -/

/-- A sealed request has been answered, and left the workspace, like the plain one. -/
structure Agree (client : Channel) (plain wrapped : Http.Response × Node) : Prop where
  workspace : wrapped.2.workspace = plain.2.workspace
  refused : plain.1.status ≠ 200 → wrapped.1 = plain.1
  answered : plain.1.status = 200 → wrapped.1.status = 200 ∧
    ∃ r, SealedRun.decoder.ofBytes wrapped.1.bytes = .ok r ∧
      ∀ a, RunResponse.decoder.ofBytes plain.1.bytes = .ok a ↔ client.openAnswer r = .ok a

/-- The plain answer and the sealed one agree. -/
theorem agree_of_run {plain wrapped : Http.Request} (hshares : n.Shares client s)
    (ho : o.nonce.length = Aead.nonceLength)
    (hclock : -0x8000000000000000 ≤ o.wallMillis ∧ o.wallMillis ≤ 0x7fffffffffffffff)
    (hrequest : request.InOrder Json.maxDepth)
    (hanswer : Envelope.Admits client.maxPayload (n.serve plain o).1.bytes.length)
    (hplain : n.serve plain o =
      Api.reply ((n.runJob request o).1.map fun a => a.toJson.sorted, (n.runJob request o).2))
    (hwrapped : n.serve wrapped o =
      Api.reply ((n.runJob request o).1.map fun a =>
          (answerIn s.channel client.sessionId o a).toJson.sorted,
        { (n.runJob request o).2 with
          sessions := (n.sessions.get client.sessionId o.nanos).2 })) :
    Agree client (n.serve plain o) (n.serve wrapped o) := by
  cases hjob : (n.runJob request o).1 with
  | error e =>
    rw [hjob] at hplain hwrapped
    rw [hplain, hwrapped]
    exact ⟨rfl, fun _ => rfl, fun hstatus => absurd hstatus e.status_ne⟩
  | ok a =>
    rw [hjob] at hplain hwrapped
    have horder := inOrder_of_runJob hrequest hjob
    rw [hplain] at hanswer
    have hlength : Envelope.Admits client.maxPayload a.toJson.render.length :=
      RunResponse.length_sorted horder ▸ hanswer
    rw [hplain, hwrapped]
    refine ⟨rfl, fun hstatus => absurd rfl hstatus, fun _ => ⟨rfl, _,
      ofBytes_answerIn s.channel client.sessionId hclock a, fun a' => ?_⟩⟩
    rw [openAnswer_answerIn_iff hshares ho hlength]
    exact RunResponse.ofBytes_sorted_iff horder

/-- **Sealed requests are answered as plain ones**, if the numbers in them are integers of 64 bits:
a client that seals a request instead of sending it plain leaves the same workspace behind and is
refused with the same answer. Where it would be answered, it reads from the sealed answer what it
would have read from the plain one. It reads either as what the job has answered, if the result is
the job's own, or was looked up, does not nest too deep and holds no other numbers. -/
theorem sealed_agrees (n : Node) (client : Channel) (s : Session) (hshares : n.Shares client s)
    (plain wrapped : Http.Request) (request : Json) (hlossless : request.Lossless)
    (hplain : n.Asks plain request) (hunsealed : isSealed request = false) (nonce : Bytes)
    (hnonce : nonce.length = Aead.nonceLength) (ts : Int)
    (hts : -0x8000000000000000 ≤ ts ∧ ts ≤ 0x7fffffffffffffff) (aad : Option Json) (levels : Nat)
    (haad : ∀ j ∈ aad, j.InOrder levels)
    (hwrapped : n.Asks wrapped (sealedRequest client nonce ts request aad).toJson.sorted)
    (o : Occasion) (ho : o.nonce.length = Aead.nonceLength)
    (hclock : -0x8000000000000000 ≤ o.wallMillis ∧ o.wallMillis ≤ 0x7fffffffffffffff)
    (hlimit : Envelope.Admits s.channel.maxPayload request.render.length)
    (hanswer : Envelope.Admits client.maxPayload (n.serve plain o).1.bytes.length) :
    Agree client (n.serve plain o) (n.serve wrapped o) ∧
      ∀ a, (n.runJob request o).1 = .ok a → (a.cached = false → Job.Counted a.result) →
        (a.cached = true → a.result.InOrder 126 ∧ a.result.Lossless) →
        RunResponse.decoder.ofBytes (n.serve plain o).1.bytes = .ok a := by
  obtain ⟨rest, hread⟩ := Http.Request.exists_read_of_readBody hplain.body
  have horder := (Json.shaped_readValue Json.maxDepth plain.body request rest hread).inOrder
  have hserve : n.serve plain o =
      Api.reply ((n.runJob request o).1.map fun a => a.toJson.sorted, (n.runJob request o).2) := by
    rw [hplain.serve, run_plain hunsealed]
  constructor
  · have hagain : Json.ofBytes request.render = .ok request := by
      rw [← Json.ofText_compact, hlossless.ofBytes_compact horder]
    refine agree_of_run hshares ho hclock horder hanswer hserve ?_
    rw [hwrapped.serve, run_sealed hshares hnonce hts hagain hlimit haad]
  · intro a hjob hfresh hcached
    have hrange : Number.InRange o.wallMillis :=
      ⟨hclock.1, Int.lt_of_le_of_lt hclock.2 (by decide)⟩
    have hbytes : (n.serve plain o).1.bytes = a.toJson.sorted.render := by
      rw [hserve, hjob]
      rfl
    rw [hbytes, RunResponse.ofBytes_sorted_iff (inOrder_of_runJob horder hjob)]
    exact RunResponse.ofBytes_render
      (reads_of_runJob horder hlossless hrange hjob hfresh hcached)

/-! ### A probe through a session -/

/-- One end of a session. -/
private def endOf (role : Role) : Channel := ⟨⟨List.replicate 32 66⟩, "s", role, 4096⟩

/-- A node with the session. -/
private def host : Node :=
  { keeper with sessions := ⟨.default, [("s", ⟨endOf .responder, 0⟩)]⟩ }

private theorem shares_host : host.Shares (endOf .initiator) ⟨endOf .responder, 0⟩ :=
  ⟨rfl, rfl, rfl⟩

/-- A request for a probe as the client seals it. -/
private def sealedProbing (sent : Json) : Json :=
  (sealedRequest (endOf .initiator) instant.nonce 0 (probing sent) none).toJson.sorted

private theorem asks_sealedProbing (sent : Json)
    (hlength : (sealedProbing sent).render.length ≤ 4096) :
    host.Asks (posted (sealedProbing sent)) (sealedProbing sent) :=
  have hts : -0x8000000000000000 ≤ (0 : Int) ∧ (0 : Int) ≤ 0x7fffffffffffffff := by decide
  asks_posted rfl (Json.ofBytes_render (SealedRun.readable_sorted hts
    fun j hj => absurd hj (Option.not_mem_none j))) hlength

/-- What a probe is answered plain, and what it leaves. -/
private theorem serve_posted {sent read : Json} (hasks : host.Asks (posted (probing sent))
    (probing read)) : ∃ w, host.serve (posted (probing sent)) instant =
        (.ofJson 200 (RunResponse.mk "r" "a" "j" false (probed read)).toJson.sorted,
          { host with workspace := w }) ∧
      w.row "a" = some (Ledger.completedRow (Ledger.claimedRow 0) (probed read)) := by
  obtain ⟨w, hrun, hrow⟩ := exists_runJob_probing (n := host) read rfl rfl
  refine ⟨w, ?_, hrow⟩
  rw [hasks.serve, run_plain rfl, hrun]
  rfl

/-- A client reads from the sealed answer to a sealed probe what the probe has answered. -/
theorem sealed_agrees_of_probe :
    ∃ r, SealedRun.decoder.ofBytes
        (host.serve (posted (sealedProbing .null)) instant).1.bytes = .ok r ∧
      (endOf .initiator).openAnswer r = .ok ⟨"r", "a", "j", false, probed .null⟩ := by
  have hlossless : (probing .null).Lossless := by
    refine .obj ?_
    simp only [List.forall_mem_cons, List.not_mem_nil, false_imp_iff, implies_true, and_true]
    exact ⟨.arr (by simp [Json.Lossless.null]), .str, .str, .int (by decide), .str, .str⟩
  have horder : (probing .null).InOrder Json.maxDepth := by
    refine .obj (by decide) ?_
    simp only [List.forall_mem_cons, List.not_mem_nil, false_imp_iff, implies_true, and_true]
    have hsent : (Json.arr [.null]).InOrder 126 := .arr (by simp [Json.InOrder.null])
    exact ⟨hsent, .str, .str, .num, .str, .str⟩
  have hread := hlossless.ofBytes_compact horder
  rw [Json.ofText_compact] at hread
  have hasks := asks_posted (n := host) rfl hread (by decide +kernel)
  have hwrapped := asks_sealedProbing .null (by decide +kernel)
  obtain ⟨w, hserve, -⟩ := serve_posted hasks
  obtain ⟨w', hrun, -⟩ := exists_runJob_probing (n := host) .null rfl rfl
  have hanswer : Envelope.Admits 4096
      (host.serve (posted (probing .null)) instant).1.bytes.length := by
    rw [hserve]
    exact (by decide +kernel : Envelope.Admits 4096
      (RunResponse.mk "r" "a" "j" false (probed .null)).toJson.sorted.render.length)
  obtain ⟨hagree, hplain⟩ := sealed_agrees host (endOf .initiator) _ shares_host
    (posted (probing .null)) (posted (sealedProbing .null)) (probing .null) hlossless hasks rfl
    instant.nonce (by decide) 0 (by decide) none 0 (fun j hj => absurd hj (Option.not_mem_none j))
    hwrapped instant (by decide) (by decide) (by decide +kernel) hanswer
  obtain ⟨-, r, hr, hiff⟩ := hagree.answered (by rw [hserve]; rfl)
  exact ⟨r, hr, (hiff _).mp (hplain _ (by rw [hrun]) (fun _ => counted_probed _) nofun)⟩

/-! ### A number that sealing changes -/

set_option maxRecDepth 8192 in
private theorem ofBytes_probing_widened :
    Json.ofBytes (probing widened).render = .ok (probing widenedAgain) := by
  with_unfolding_all rfl

/-- **An integer that has no machine word is another number when it is sealed**: its double is
written, and read as another double. The ledger keeps the one or the other. -/
theorem not_forall_sealed_agrees :
    ¬ ∀ (n : Node) (client : Channel) (s : Session) (plain wrapped : Http.Request)
        (written request : Json) (nonce : Bytes) (ts : Int) (o : Occasion),
      n.Shares client s → Integers plain written → n.Asks plain request →
        isSealed request = false → nonce.length = Aead.nonceLength →
        -0x8000000000000000 ≤ ts ∧ ts ≤ 0x7fffffffffffffff →
        n.Asks wrapped (sealedRequest client nonce ts request none).toJson.sorted →
        o.nonce.length = Aead.nonceLength →
        -0x8000000000000000 ≤ o.wallMillis ∧ o.wallMillis ≤ 0x7fffffffffffffff →
        Envelope.Admits s.channel.maxPayload request.render.length →
        Envelope.Admits client.maxPayload (n.serve plain o).1.bytes.length →
          Agree client (n.serve plain o) (n.serve wrapped o) := by
  intro hall
  have hasks : host.Asks (posted (probing wide)) (probing widened) := asks_wide rfl
  have hwrapped := asks_sealedProbing widened (by decide +kernel)
  obtain ⟨w, hserve, hrow⟩ := serve_posted hasks
  have hanswer : Envelope.Admits 4096
      (host.serve (posted (probing wide)) instant).1.bytes.length := by
    rw [hserve]
    exact (by decide +kernel : Envelope.Admits 4096
      (RunResponse.mk "r" "a" "j" false (probed widened)).toJson.sorted.render.length)
  have hagree := hall host (endOf .initiator) _ (posted (probing wide))
    (posted (sealedProbing widened)) (probing wide) (probing widened) instant.nonce 0 instant
    shares_host integers_posted_wide hasks rfl (by decide) (by decide) hwrapped (by decide)
    (by decide) (by decide +kernel) hanswer
  -- The node opens the request with the other number and carries that out.
  obtain ⟨w', hrun, hrow'⟩ := exists_runJob_probing (n := host) widenedAgain rfl rfl
  have haad : ∀ j ∈ (none : Option Json), j.InOrder 0 := fun j hj =>
    absurd hj (Option.not_mem_none j)
  have hserve' : (host.serve (posted (sealedProbing widened)) instant).2.workspace = w' := by
    rw [hwrapped.serve, sealedProbing, run_sealed shares_host (by decide) (by decide)
      ofBytes_probing_widened (by decide +kernel) haad, hrun]
    rfl
  have hworkspace := hagree.workspace
  rw [hserve, hserve'] at hworkspace
  have hrows := hrow'.symm.trans ((congrArg (Workspace.row · "a") hworkspace).trans hrow)
  have htexts : (probed widenedAgain).compact = (probed widened).compact :=
    Option.some.inj (congrArg LedgerRow.result (Option.some.inj hrows))
  have hbytes : (probed widenedAgain).render = (probed widened).render := by
    rw [← Json.ofText_compact, ← Json.ofText_compact, htexts]
  exact absurd hbytes (by decide +kernel)

end Node

end MeshNode
