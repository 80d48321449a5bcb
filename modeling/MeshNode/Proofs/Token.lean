import Mathlib.Data.List.Basic
import MeshNode.Job.Spec
import MeshNode.Proofs.Decimal
import MeshNode.Proofs.Hex

/-!
# What a claim token is bound to

A token is made for a job, an attempt and a deadline, and what is signed joins the three with
colons. The deadline can be read off the signed bytes, since no decimal text holds a colon. The two
ids can not: an id may hold colons itself, and then the boundary between the ids is lost. So a token
authorizes another request than the one it was made for exactly when the deadline is the same and
the two pairs of ids differ by a text that has moved, with a colon, across their boundary.

That different messages have different HMACs is no law of the hash; where it matters it is assumed
of the two messages at hand. Which texts are accepted as the token for one message needs no such
assumption: the one that was issued and its spellings with capital letters (`authorize_exact`).
-/

namespace MeshNode

namespace JobSpec

/-- A job belongs to the attempt that it names, or else to the request, or else to itself. -/
theorem claimContext_eq {spec : JobSpec} {jobId token : String} {deadline : Int}
    (hjob : spec.jobId = some jobId) (hdeadline : spec.deadline = some deadline)
    (htoken : spec.token = some token) :
    spec.claimContext =
      ⟨some jobId, some (spec.attemptId.getD (spec.reqUid.getD jobId)), some deadline,
        some token⟩ := by
  rw [claimContext, effectiveAttemptId, hjob, hdeadline, htoken]
  cases spec.attemptId <;> cases spec.reqUid <;> rfl

end JobSpec

namespace Token

/-! ### The signed bytes -/

/-- A list without a separator can be read off what ends with it after that separator. -/
private theorem eq_of_append_separator {α : Type} {c : α} {x y v w : List α} (hv : c ∉ v)
    (h : x ++ c :: v = y ++ c :: w) (hle : x.length ≤ y.length) : x = y ∧ v = w := by
  rcases List.append_eq_append_iff.mp h with ⟨s, rfl, hs⟩ | ⟨s, rfl, hs⟩
  · cases s with
    | nil => exact ⟨(List.append_nil x).symm, (List.cons.inj hs).2⟩
    | cons b s =>
      have hmem : c ∈ v := by rw [(List.cons.inj hs).2]; simp
      exact absurd hmem hv
  · have hlength : s.length = 0 := by
      rw [List.length_append] at hle
      omega
    obtain rfl := List.eq_nil_of_length_eq_zero hlength
    exact ⟨List.append_nil y, (List.cons.inj hs).2.symm⟩

/-- The last separator splits a list in one way only. -/
private theorem append_separator_inj {α : Type} {c : α} {x y v w : List α} (hv : c ∉ v)
    (hw : c ∉ w) : x ++ c :: v = y ++ c :: w ↔ x = y ∧ v = w := by
  constructor
  · intro h
    rcases Nat.le_total x.length y.length with hle | hle
    · exact eq_of_append_separator hv h hle
    · obtain ⟨hxy, hvw⟩ := eq_of_append_separator hw h.symm hle
      exact ⟨hxy.symm, hvw.symm⟩
  · rintro ⟨rfl, rfl⟩
    rfl

/-- The signed bytes are those of the two ids with a colon between them, another colon, and the
deadline. -/
theorem signedBytes_eq (jobId attemptId : String) (deadline : Int) :
    signedBytes jobId attemptId deadline =
      Bytes.ofText (jobId ++ ":" ++ attemptId) ++ 58 :: Decimal.ofInt deadline := by
  have hcolon : Bytes.ofText ":" = [58] := by decide
  simp [signedBytes, hcolon]

/-- The signed bytes determine the deadline, and the ids joined by a colon. -/
theorem signedBytes_eq_iff {jobId attemptId jobId' attemptId' : String} {deadline deadline' : Int} :
    signedBytes jobId attemptId deadline = signedBytes jobId' attemptId' deadline' ↔
      jobId ++ ":" ++ attemptId = jobId' ++ ":" ++ attemptId' ∧ deadline = deadline' := by
  -- There is no colon in a number, so the last colon is the one before the deadline.
  have hcolon (n : Int) : (58 : UInt8) ∉ Decimal.ofInt n :=
    Decimal.notMem_ofInt (by decide) (by decide) n
  rw [signedBytes_eq, signedBytes_eq, append_separator_inj (hcolon _) (hcolon _)]
  constructor
  · rintro ⟨htext, hdeadline⟩
    exact ⟨Bytes.ofText_injective htext, Decimal.ofInt_injective hdeadline⟩
  · rintro ⟨htext, rfl⟩
    rw [htext]
    exact ⟨rfl, rfl⟩

/-- A text has moved, with a colon, from the front of the attempt id to the end of the job id. -/
def Moved (jobId attemptId jobId' attemptId' : String) : Prop :=
  ∃ text, jobId' = jobId ++ ":" ++ text ∧ attemptId = text ++ ":" ++ attemptId'

private theorem eq_or_moved {jobId attemptId jobId' attemptId' : String}
    (h : jobId ++ ":" ++ attemptId = jobId' ++ ":" ++ attemptId')
    (hle : jobId.toList.length ≤ jobId'.toList.length) :
    (jobId = jobId' ∧ attemptId = attemptId') ∨ Moved jobId attemptId jobId' attemptId' := by
  have hlist : jobId.toList ++ ':' :: attemptId.toList =
      jobId'.toList ++ ':' :: attemptId'.toList := by
    simpa using congrArg String.toList h
  -- What the longer job id has more is what has moved, with the colon in front of it.
  rcases List.append_eq_append_iff.mp hlist with ⟨s, hjob, hs⟩ | ⟨s, hjob, hs⟩
  · cases s with
    | nil =>
      left
      exact ⟨String.toList_inj.mp (by simpa using hjob.symm),
        String.toList_inj.mp (List.cons.inj hs).2⟩
    | cons c s =>
      right
      obtain ⟨rfl, hattempt⟩ := List.cons.inj hs
      refine ⟨String.ofList s, String.toList_inj.mp ?_, String.toList_inj.mp ?_⟩
      · simpa using hjob
      · simpa using hattempt
  · left
    have hlength : s.length = 0 := by
      rw [hjob, List.length_append] at hle
      omega
    obtain rfl := List.eq_nil_of_length_eq_zero hlength
    exact ⟨String.toList_inj.mp (by simpa using hjob),
      String.toList_inj.mp (List.cons.inj hs).2.symm⟩

/-- Two pairs of ids are joined to the same text exactly if they are the same or a text has moved
across their boundary, one way or the other. -/
theorem joined_eq_iff {jobId attemptId jobId' attemptId' : String} :
    jobId ++ ":" ++ attemptId = jobId' ++ ":" ++ attemptId' ↔
      (jobId = jobId' ∧ attemptId = attemptId') ∨ Moved jobId attemptId jobId' attemptId' ∨
        Moved jobId' attemptId' jobId attemptId := by
  constructor
  · intro h
    rcases Nat.le_total jobId.toList.length jobId'.toList.length with hle | hle
    · exact (eq_or_moved h hle).imp_right Or.inl
    · rcases eq_or_moved h.symm hle with ⟨rfl, rfl⟩ | hmoved
      · exact Or.inl ⟨rfl, rfl⟩
      · exact Or.inr (Or.inr hmoved)
  · rintro (⟨rfl, rfl⟩ | ⟨text, rfl, rfl⟩ | ⟨text, rfl, rfl⟩)
    · rfl
    · simp only [String.append_assoc]
    · simp only [String.append_assoc]

/-! ### Authorization -/

/-- A request with all its parts is refused after its deadline, and before it authorized exactly if
its token reads as the HMAC of the other parts. -/
theorem authorize_full (key : Bytes) (jobId attemptId token : String) (deadline now : Int) :
    authorize key ⟨some jobId, some attemptId, some deadline, some token⟩ now =
      if deadline < now then .error (.expired deadline now)
      else if Bytes.ofHex? token = some (mac key jobId attemptId deadline) then
        .ok ⟨jobId, attemptId, deadline⟩
      else .error .invalidToken := by
  by_cases hlate : deadline < now
  · simp [authorize, present, hlate, bind, Except.bind, throw, throwThe, MonadExceptOf.throw]
  · simp [authorize, present, hlate, bind, Except.bind, pure, Except.pure, throw, throwThe,
      MonadExceptOf.throw]

/-- A token that was issued reads as its HMAC. -/
@[simp] theorem ofHex?_issue (key : Bytes) (jobId attemptId : String) (deadline : Int) :
    Bytes.ofHex? (issue key jobId attemptId deadline) = some (mac key jobId attemptId deadline) :=
  Bytes.ofHex?_toHex _

/-- **What a token is bound to.** Unless the two messages collide under the key, a token that was
issued for one job, attempt and deadline authorizes a request with others exactly if the deadline
has not passed and is the same, and the ids are the same too or differ by a text that has moved
with a colon across the boundary between them. -/
theorem authorize_issued_iff {key : Bytes} {jobId attemptId jobId' attemptId' : String}
    {deadline deadline' now : Int}
    (hcollision : mac key jobId attemptId deadline = mac key jobId' attemptId' deadline' →
      signedBytes jobId attemptId deadline = signedBytes jobId' attemptId' deadline') :
    (∃ claim, authorize key ⟨some jobId', some attemptId', some deadline',
        some (issue key jobId attemptId deadline)⟩ now = .ok claim) ↔
      now ≤ deadline' ∧ deadline = deadline' ∧
        ((jobId = jobId' ∧ attemptId = attemptId') ∨ Moved jobId attemptId jobId' attemptId' ∨
          Moved jobId' attemptId' jobId attemptId) := by
  rw [authorize_full, ofHex?_issue, ← joined_eq_iff]
  constructor
  · rintro ⟨claim, hclaim⟩
    split_ifs at hclaim with hlate hmac
    obtain ⟨hjoined, hdeadline⟩ := signedBytes_eq_iff.mp (hcollision (Option.some_inj.mp hmac))
    exact ⟨Int.not_lt.mp hlate, hdeadline, hjoined⟩
  · rintro ⟨hnow, rfl, hjoined⟩
    have hmac : mac key jobId attemptId deadline = mac key jobId' attemptId' deadline :=
      congrArg (Hmac.sha256 key) (signedBytes_eq_iff.mpr ⟨hjoined, rfl⟩)
    exact ⟨_, by rw [if_neg (Int.not_lt.mpr hnow), if_pos (congrArg some hmac)]⟩

/-- A token for attempt `c` of job `a:b` authorizes attempt `b:c` of job `a`. -/
theorem authorize_issued_moved_id :
    signedBytes "a:b" "c" 1700000060 = signedBytes "a" "b:c" 1700000060 ∧
      ∃ claim, authorize [107] ⟨some "a", some "b:c", some 1700000060,
        some (issue [107] "a:b" "c" 1700000060)⟩ 1700000000 = .ok claim := by
  have hsame : signedBytes "a:b" "c" 1700000060 = signedBytes "a" "b:c" 1700000060 :=
    signedBytes_eq_iff.mpr ⟨rfl, rfl⟩
  have hmoved : Moved "a" "b:c" "a:b" "c" := ⟨"b", rfl, rfl⟩
  exact ⟨hsame, (authorize_issued_iff fun _ => hsame).mpr
    ⟨by decide, rfl, Or.inr (Or.inr hmoved)⟩⟩

/-- Tokens are not bound to the two ids one by one, even where no messages collide. -/
theorem not_forall_authorized_ids_eq :
    ¬ ∀ (key : Bytes) (jobId attemptId jobId' attemptId' : String) (deadline deadline' now : Int),
      (mac key jobId attemptId deadline = mac key jobId' attemptId' deadline' →
        signedBytes jobId attemptId deadline = signedBytes jobId' attemptId' deadline') →
      (∃ claim, authorize key ⟨some jobId', some attemptId', some deadline',
        some (issue key jobId attemptId deadline)⟩ now = .ok claim) →
      jobId = jobId' ∧ attemptId = attemptId' ∧ deadline = deadline' := by
  intro h
  have hsame : signedBytes "a:b" "c" 1700000060 = signedBytes "a" "b:c" 1700000060 :=
    signedBytes_eq_iff.mpr ⟨rfl, rfl⟩
  have hmac : mac [107] "a:b" "c" 1700000060 = mac [107] "a" "b:c" 1700000060 :=
    congrArg (Hmac.sha256 [107]) hsame
  have hids := (h [107] "a:b" "c" "a" "b:c" 1700000060 1700000060 1700000000 (fun _ => hsame)
    ⟨⟨"a", "b:c", 1700000060⟩, by simp [authorize_full, hmac]⟩).1
  exact absurd hids (by decide)

/-! ### Which tokens are accepted -/

/-- The token of a request is accepted if it is the one that is issued once its letters are
lowered. -/
theorem authorize_spelled (key : Bytes) (jobId attemptId token : String) (deadline now : Int) :
    authorize key ⟨some jobId, some attemptId, some deadline, some token⟩ now =
      if deadline < now then .error (.expired deadline now)
      else if token.toLower = issue key jobId attemptId deadline then
        .ok ⟨jobId, attemptId, deadline⟩
      else .error .invalidToken := by
  have hspelled : Bytes.ofHex? token = some (mac key jobId attemptId deadline) ↔
      token.toLower = issue key jobId attemptId deadline := Bytes.ofHex?_eq_some_iff
  rw [authorize_full, if_congr hspelled rfl rfl]

/-- Whether a request is authorized is whether there is a claim for it. -/
theorem verify_eq_true_iff {key : Bytes} {c : ClaimContext} {now : Int} :
    verify key c now = true ↔ ∃ claim, authorize key c now = .ok claim := by
  unfold verify
  cases authorize key c now <;> simp

/-- **Issued tokens work and only they do.** A request with all its parts is authorized, for just
these parts, exactly if its deadline has not passed and its token is the one that is issued for
them, once letters are lowered; after the deadline it is refused for that, whatever its token; and
otherwise its token is refused. So a job is authorized by the tokens that are issued for the attempt
that it names, or else for the request, or else for itself. -/
theorem authorize_exact (key : Bytes) (jobId attemptId token : String) (deadline now : Int) :
    (∀ claim, authorize key ⟨some jobId, some attemptId, some deadline, some token⟩ now =
        .ok claim ↔ claim = ⟨jobId, attemptId, deadline⟩ ∧ now ≤ deadline ∧
          token.toLower = issue key jobId attemptId deadline) ∧
      (∀ late late', authorize key ⟨some jobId, some attemptId, some deadline, some token⟩ now =
        .error (.expired late late') ↔ late = deadline ∧ late' = now ∧ deadline < now) ∧
      (authorize key ⟨some jobId, some attemptId, some deadline, some token⟩ now =
        .error .invalidToken ↔
          now ≤ deadline ∧ token.toLower ≠ issue key jobId attemptId deadline) ∧
      ∀ spec : JobSpec, spec.jobId = some jobId → spec.deadline = some deadline →
        spec.token = some token → (verify key spec.claimContext now = true ↔ now ≤ deadline ∧
          token.toLower = issue key jobId (spec.attemptId.getD (spec.reqUid.getD jobId)) deadline)
    := by
  have haccepted (attemptId : String) (claim : Claim) :
      authorize key ⟨some jobId, some attemptId, some deadline, some token⟩ now = .ok claim ↔
        claim = ⟨jobId, attemptId, deadline⟩ ∧ now ≤ deadline ∧
          token.toLower = issue key jobId attemptId deadline := by
    rw [authorize_spelled]
    split_ifs with hlate hissued
    · simp [Int.not_le.mpr hlate]
    · simp [Int.not_lt.mp hlate, hissued, eq_comm]
    · simp [hissued]
  refine ⟨haccepted attemptId, fun late late' => ?_, ?_, fun spec hjob hdeadline htoken => ?_⟩
  · rw [authorize_spelled]
    split_ifs with hlate hissued
    · simp [hlate, eq_comm]
    · simp [hlate]
    · simp [hlate]
  · rw [authorize_spelled]
    split_ifs with hlate hissued
    · simp [Int.not_le.mpr hlate]
    · simp [hissued]
    · simp [Int.not_lt.mp hlate, hissued]
  · rw [verify_eq_true_iff, JobSpec.claimContext_eq hjob hdeadline htoken]
    simp only [haccepted, exists_eq_left]

/-- A job that names neither attempt nor request, with a token in capital letters. -/
private def plainJob : JobSpec where
  jobId := some "a"
  attemptId := none
  reqUid := none
  kind := "probe"
  args := .null
  timeoutSecs := none
  token := some "DAAC4DFB9B9F3368CFE2067BD84DE8BF7216DB04B9D55DCAFC0909AB01A4899C"
  deadline := some 60

/-- The job is authorized up to its deadline by the token that was issued for it as an attempt of
itself. -/
theorem authorize_exact_of_capitals :
    plainJob.jobId = some "a" ∧ plainJob.deadline = some 60 ∧
      plainJob.token =
        some "DAAC4DFB9B9F3368CFE2067BD84DE8BF7216DB04B9D55DCAFC0909AB01A4899C" ∧
      verify [107] plainJob.claimContext 60 = true := by
  have hissued : "DAAC4DFB9B9F3368CFE2067BD84DE8BF7216DB04B9D55DCAFC0909AB01A4899C".toLower =
      issue [107] "a" "a" 60 := by decide +kernel
  obtain ⟨-, -, -, hjobs⟩ := authorize_exact [107] "a" "a"
    "DAAC4DFB9B9F3368CFE2067BD84DE8BF7216DB04B9D55DCAFC0909AB01A4899C" 60 60
  exact ⟨rfl, rfl, rfl, (hjobs plainJob rfl rfl rfl).mpr ⟨Int.le_refl 60, hissued⟩⟩

end Token

end MeshNode
