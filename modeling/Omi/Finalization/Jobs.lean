import Mathlib
import Omi.Foundation.Machine
import Omi.Foundation.PyValue
import Omi.Foundation.Table

/-! The durable finalization outbox of `database/conversation_finalization_jobs.py`: one
job per finalization revision, its Firestore transactions, and the sharded projection
counters they move. Conversations belong to other code, so every transaction takes the
snapshot it reads; times are microseconds. -/
namespace Omi.Finalization
open Omi.Foundation

inductive FinalizationJobStatus where
  | queued
  | leased
  | completed
  | deadLetter
  | blockedByok
  deriving DecidableEq, Repr

def FinalizationJobStatus.text : FinalizationJobStatus → String
  | .queued => "queued"
  | .leased => "leased"
  | .completed => "completed"
  | .deadLetter => "dead_letter"
  | .blockedByok => "blocked_byok"

inductive FanoutStatus where
  | pending
  | leased
  | completed
  | fenced
  deriving DecidableEq, Repr

inductive TerminalOutcome where
  | success
  | failure
  | stale
  deriving DecidableEq, Repr

/-- A job document; a field a legacy row may lack is optional. -/
structure FinalizationJob where
  uid : Option String := none
  conversationId : Option String := none
  finalizationRevision : Option ℤ := none
  status : Option FinalizationJobStatus := none
  requiresByok : Bool := false
  clientPlatform : PyVal := .none
  forceProcess : Bool := false
  fanoutKey : Option String := none
  fanoutStatus : Option FanoutStatus := none
  fanoutLeaseEpoch : Option ℤ := none
  fanoutStartedAt : Option ℤ := none
  fanoutCompletedAt : Option ℤ := none
  fanoutFencedAt : Option ℤ := none
  dispatchGeneration : Option ℤ := none
  dispatchRequestedAt : Option ℤ := none
  leaseEpoch : Option ℤ := none
  leasedAt : Option ℤ := none
  leaseExpiresAt : Option ℤ := none
  attemptCount : Option ℤ := none
  taskRetryCount : Option ℤ := none
  projectionGeneration : Option String := none
  projectionShard : Option ℤ := none
  reconcileAfterAt : Option ℤ := none
  createdAt : Option ℤ := none
  updatedAt : Option ℤ := none
  lastByokResumeAt : Option ℤ := none
  completedAt : Option ℤ := none
  terminalAt : Option ℤ := none
  lastFailureCode : Option String := none
  finalizationOutcome : Option String := none
  terminalOutcome : Option TerminalOutcome := none
  deriving DecidableEq, Repr

/-- What the transactions read of a conversation document; `hasContent` is the answer of
`_conversation_has_finalization_content` on the same snapshot. -/
structure Conversation where
  status : Option String := none
  deferred : Bool := false
  discarded : Bool := false
  hasContent : Bool := false
  finalizationJobId : Option String := none
  finalizationRevision : Option ℤ := none
  clientPlatform : PyVal := .none
  deriving DecidableEq, Repr

structure FinalizationIntent where
  jobId : Option String
  status : String
  dispatchGeneration : Option ℤ
  requiresByok : Bool
  fanoutKey : Option String
  created : Bool
  deriving DecidableEq, Repr

structure FinalizationAdmission where
  accepted : Bool
  terminal : Bool
  reason : String
  fanoutKey : Option String
  deriving DecidableEq, Repr

structure FinalizationFanoutClaim where
  status : String
  fanoutKey : Option String
  deriving DecidableEq, Repr

structure ByokAbandonment where
  status : String
  conversationOutcome : String := "none"
  deriving DecidableEq, Repr

structure FinalizationClaim where
  status : String
  leaseEpoch : Option ℤ := none
  attemptCount : ℤ := 0
  createdAt : Option ℤ := none
  deriving DecidableEq, Repr

def finalizationProjectionGeneration : String := "terminal-outcomes-v1"

def finalizationProjectionShardCount : ℕ := 16

def byokAbandonedFailureCode : String := "byok_session_abandoned"

/-- `int(value or default)`. -/
def intOr (value : Option ℤ) (default : ℤ) : ℤ :=
  match value with
  | none => default
  | some n => if n = 0 then default else n

def FinalizationJob.generation (job : FinalizationJob) : ℤ := intOr job.dispatchGeneration 1

def FinalizationJob.epoch (job : FinalizationJob) : ℤ := intOr job.leaseEpoch 0

/-- `status in TERMINAL_JOB_STATUSES`. -/
def FinalizationJob.isTerminal (job : FinalizationJob) : Bool :=
  job.status = some .completed || job.status = some .deadLetter

def isCurrentLease (job : FinalizationJob) (dispatchGeneration leaseEpoch : ℤ) : Bool :=
  job.status = some .leased && job.generation = dispatchGeneration && job.epoch = leaseEpoch

/-- `isinstance(lease_expires_at, datetime) and lease_expires_at > now`. -/
def FinalizationJob.leaseLive (job : FinalizationJob) (now : ℤ) : Bool :=
  job.leaseExpiresAt.any (now < ·)

/-- The counters of a projection shard. -/
inductive ProjectionCounter where
  | accepted
  | status (status : FinalizationJobStatus)
  | outcome (outcome : TerminalOutcome)
  deriving DecidableEq, Repr

abbrev ProjectionShard := ProjectionCounter → ℤ

/-- `_projection_ref_for_job`: the shard an admitted job is counted in. -/
def projectionShardOf (job : FinalizationJob) : Option (Fin finalizationProjectionShardCount) :=
  match job.projectionGeneration, job.projectionShard with
  | some generation, some shard =>
    if generation = finalizationProjectionGeneration then
      if h : 0 ≤ shard ∧ shard < finalizationProjectionShardCount then
        some ⟨shard.toNat, by omega⟩
      else none
    else none
  | _, _ => none

/-- The sum of the increments a call gives for one counter. -/
def deltaOf (deltas : List (ProjectionCounter × ℤ)) (counter : ProjectionCounter) : ℤ :=
  ((deltas.filter (·.1 = counter)).map Prod.snd).sum

def recordProjectionDelta (shards : Fin finalizationProjectionShardCount → ProjectionShard)
    (job : FinalizationJob) (deltas : List (ProjectionCounter × ℤ)) :
    Fin finalizationProjectionShardCount → ProjectionShard :=
  match projectionShardOf job with
  | none => shards
  | some shard =>
    Function.update shards shard fun counter => shards shard counter + deltaOf deltas counter

/-- What one transaction does: the job document it writes, the increments it records
for the job it read, the conversation fields it updates, and its answer. -/
structure JobTxn (ρ : Type) where
  reply : ρ
  write : Option FinalizationJob := none
  deltas : List (ProjectionCounter × ℤ) := []
  conversation : Option PyDict := none

def intentFromJob (jobId : String) (job : FinalizationJob) (created : Bool := false) :
    FinalizationIntent where
  jobId := some jobId
  status := (job.status.map FinalizationJobStatus.text).getD "queued"
  dispatchGeneration := some job.generation
  requiresByok := job.requiresByok
  fanoutKey := job.fanoutKey
  created := created

def noFinalizationIntent (status : String) : FinalizationIntent where
  jobId := none
  status := status
  dispatchGeneration := none
  requiresByok := false
  fanoutKey := none
  created := false

/-- The hashes of the deployment: `document_id_from_seed` and the first four digest
bytes of `sha256`. -/
structure FinalizationHashes where
  documentIdFromSeed : String → String
  sha256Prefix : String → ℕ

variable (hashes : FinalizationHashes)

def FinalizationHashes.jobId (uid conversationId : String) (revision : ℤ) : String :=
  hashes.documentIdFromSeed
    ("listen-finalization:" ++ uid ++ ":" ++ conversationId ++ ":" ++ toString revision)

def FinalizationHashes.projectionShard (jobId : String) : ℤ :=
  hashes.sha256Prefix jobId % finalizationProjectionShardCount

/-- The arguments of `create_or_get_finalization_intent`, with the instant, the stale
bound and the conversation its transaction reads. -/
structure IntentRequest where
  uid : String
  conversationId : String
  conversation : Option Conversation
  requiresByok : Bool
  admission : Conversation → FinalizationAdmission
  forceProcess : Bool := false
  extraUpdates : PyDict := []
  reconcileStaleAfter : ℤ
  now : ℤ

/-- The document `_create_or_get_finalization_intent_txn` sets. -/
def IntentRequest.newJob (req : IntentRequest) (conversation : Conversation) (revision : ℤ)
    (fanoutKey : String) : FinalizationJob where
  uid := some req.uid
  conversationId := some req.conversationId
  finalizationRevision := some revision
  status := some (if req.requiresByok then .blockedByok else .queued)
  requiresByok := req.requiresByok
  clientPlatform := conversation.clientPlatform
  forceProcess := req.forceProcess
  fanoutKey := some fanoutKey
  fanoutStatus := some .pending
  dispatchGeneration := some 1
  attemptCount := some 0
  taskRetryCount := some 0
  projectionGeneration := some finalizationProjectionGeneration
  projectionShard :=
    some (hashes.projectionShard (hashes.jobId req.uid req.conversationId revision))
  createdAt := some req.now
  updatedAt := some req.now
  dispatchRequestedAt := some req.now
  reconcileAfterAt := if req.requiresByok then none else some (req.now + req.reconcileStaleAfter)

/-- The rest of `_create_or_get_finalization_intent_txn` for a conversation that is bound to
no job: read the job of the next revision, or create it. -/
def admitFinalizationIntent (jobs : Table FinalizationJob) (req : IntentRequest)
    (conversation : Conversation) (jobId : String) : JobTxn FinalizationIntent :=
  let admission := req.admission conversation
  let revision := intOr conversation.finalizationRevision 0 + 1
  match admission.accepted, admission.fanoutKey.filter (· ≠ "") with
  | true, some fanoutKey =>
    match jobs.get jobId with
    | some job =>
      { reply := intentFromJob jobId job
        conversation := some [("status", .str "processing"),
          ("finalization_job_id", .str jobId), ("finalization_revision", .int revision),
          ("finalization_status",
            .str ((job.status.map FinalizationJobStatus.text).getD "queued"))] }
    | none =>
      let job := req.newJob hashes conversation revision fanoutKey
      let status := if req.requiresByok then FinalizationJobStatus.blockedByok else .queued
      { reply := intentFromJob jobId job true
        write := some job
        deltas := [(.accepted, 1), (.status status, 1)]
        conversation := some (req.extraUpdates.update [("status", .str "processing"),
          ("finalization_job_id", .str jobId), ("finalization_revision", .int revision),
          ("finalization_status", .str status.text)]) }
  | _, _ => { reply := noFinalizationIntent admission.reason }

/-- `_create_or_get_finalization_intent_txn`, with the id of the job it may write. -/
def createOrGetFinalizationIntent (jobs : Table FinalizationJob) (req : IntentRequest) :
    String × JobTxn FinalizationIntent :=
  match req.conversation with
  | none => ("", { reply := noFinalizationIntent "missing" })
  | some conversation =>
    let admission := req.admission conversation
    let jobId := hashes.jobId req.uid req.conversationId
      (intOr conversation.finalizationRevision 0 + 1)
    let existing := (conversation.finalizationJobId.filter (· ≠ "")).bind fun existingJobId =>
      (jobs.get existingJobId).map (intentFromJob existingJobId ·)
    if conversation.deferred then (jobId, { reply := noFinalizationIntent "deferred" })
    else if !conversation.hasContent then (jobId, { reply := noFinalizationIntent "no_content" })
    else if admission.terminal then (jobId, { reply := noFinalizationIntent admission.reason })
    else
      match existing with
      | some intent => (jobId, { reply := intent })
      | none => (jobId, admitFinalizationIntent hashes jobs req conversation jobId)

section Transactions
variable (jobId : String) (snapshot : Option FinalizationJob)

def FinalizationJob.resumed (job : FinalizationJob) (now : ℤ) : FinalizationJob :=
  { job with
    status := some .queued
    updatedAt := some now
    lastByokResumeAt := some now
    reconcileAfterAt := none }

def resumeBlockedByokJob (now : ℤ) : JobTxn FinalizationIntent :=
  match snapshot with
  | none => { reply := noFinalizationIntent "missing" }
  | some job =>
    if job.status = some .blockedByok ∧ job.requiresByok then
      { reply := intentFromJob jobId { job with status := some .queued }
        write := some (job.resumed now)
        deltas := [(.status .blockedByok, -1), (.status .queued, 1)] }
    else { reply := intentFromJob jobId job }

/-- The arguments of `claim_finalization_job`. -/
structure ClaimRequest where
  dispatchGeneration : ℤ
  allowByok : Bool := false
  leaseSeconds : ℤ := 1500
  now : ℤ
  expectedUid : Option String := none
  expectedConversationId : Option String := none
  deriving DecidableEq, Repr

def ClaimRequest.leaseExpiresAt (req : ClaimRequest) : ℤ := req.now + req.leaseSeconds * 1000000

def FinalizationJob.claimed (job : FinalizationJob) (req : ClaimRequest) : FinalizationJob :=
  { job with
    status := some .leased
    leasedAt := some req.now
    leaseExpiresAt := some req.leaseExpiresAt
    leaseEpoch := some (job.epoch + 1)
    reconcileAfterAt := if job.requiresByok then none else some req.leaseExpiresAt
    updatedAt := some req.now
    attemptCount := some (intOr job.attemptCount 0 + 1) }

def claimFinalizationJob (req : ClaimRequest) : JobTxn FinalizationClaim :=
  match snapshot with
  | none => { reply := { status := "missing" } }
  | some job =>
    if req.expectedUid.isSome ∧ job.uid ≠ req.expectedUid then
      { reply := { status := "identity_mismatch" } }
    else if req.expectedConversationId.isSome ∧ job.conversationId ≠ req.expectedConversationId then
      { reply := { status := "identity_mismatch" } }
    else if job.status = some .completed ∧ job.finalizationOutcome = some "fenced" then
      { reply := { status := "fenced" } }
    else if job.isTerminal then
      { reply := { status := (job.status.map FinalizationJobStatus.text).getD "" } }
    else if job.requiresByok ∧ !req.allowByok then { reply := { status := "blocked_byok" } }
    else if job.status = some .blockedByok then { reply := { status := "blocked_byok" } }
    else if job.generation ≠ req.dispatchGeneration then
      { reply := { status := "stale_generation" } }
    else if job.status = some .leased ∧ job.leaseLive req.now then
      { reply := { status := "leased" } }
    else if job.status ≠ some .queued ∧ job.status ≠ some .leased then
      { reply := { status := "not_actionable" } }
    else
      { reply :=
          { status := "claimed"
            leaseEpoch := some (job.epoch + 1)
            attemptCount := intOr job.attemptCount 0 + 1
            createdAt := job.createdAt }
        write := some (job.claimed req)
        deltas := if job.status = some .queued then [(.status .queued, -1), (.status .leased, 1)]
          else [] }

/-- The ownership fence a worker presents with its terminal and fanout writes. -/
structure LeaseProof where
  dispatchGeneration : ℤ
  leaseEpoch : ℤ
  deriving DecidableEq, Repr

def LeaseProof.owns (lease : LeaseProof) (job : FinalizationJob) : Bool :=
  isCurrentLease job lease.dispatchGeneration lease.leaseEpoch

def FinalizationJob.succeeded (job : FinalizationJob) (now : ℤ) : FinalizationJob :=
  { job with
    status := some .completed
    completedAt := some now
    terminalOutcome := some .success
    updatedAt := some now
    leaseExpiresAt := some now
    reconcileAfterAt := none
    lastFailureCode := none }

def markFinalizationCompleted (lease : LeaseProof) (now : ℤ) : JobTxn Bool :=
  match snapshot with
  | none => { reply := false }
  | some job =>
    if job.status = some .completed then { reply := job.epoch = lease.leaseEpoch }
    else if !lease.owns job then { reply := false }
    else if job.fanoutStatus ≠ some .completed then { reply := false }
    else
      { reply := true
        write := some (job.succeeded now)
        deltas := [(.status .leased, -1), (.status .completed, 1), (.outcome .success, 1)] }

/-- The job after `_fenced_finalization_update`. -/
def FinalizationJob.fencedOff (job : FinalizationJob) (now : ℤ) : FinalizationJob :=
  { job with
    status := some .completed
    completedAt := some now
    updatedAt := some now
    leaseExpiresAt := some now
    reconcileAfterAt := none
    lastFailureCode := none
    finalizationOutcome := some "fenced"
    terminalOutcome := some .stale
    fanoutStatus := some .fenced
    fanoutFencedAt := some now }

def fencedDeltas : List (ProjectionCounter × ℤ) :=
  [(.status .leased, -1), (.status .completed, 1), (.outcome .stale, 1)]

def markFinalizationFenced (lease : LeaseProof) (now : ℤ) : JobTxn Bool :=
  match snapshot with
  | none => { reply := false }
  | some job =>
    if job.status = some .completed then
      { reply := job.finalizationOutcome = some "fenced" && job.epoch = lease.leaseEpoch }
    else if !lease.owns job then { reply := false }
    else if job.fanoutStatus ≠ none ∧ job.fanoutStatus ≠ some .pending then { reply := false }
    else { reply := true, write := some (job.fencedOff now), deltas := fencedDeltas }

/-- `_fanout_key`, deterministic for rows older than the fanout boundary. -/
def fanoutKeyOf (job : FinalizationJob) : String :=
  match job.fanoutKey.filter (· ≠ "") with
  | some key => key
  | none => "conversation:" ++ job.conversationId.getD "" ++ ":finalization:" ++
      toString (intOr job.finalizationRevision 1)

def conversationAdmitsFanout (conversation : Conversation) (job : FinalizationJob)
    (jobId : String) : Bool :=
  !conversation.discarded && conversation.status = some "completed" &&
    conversation.finalizationJobId = some jobId &&
    intOr conversation.finalizationRevision 0 = intOr job.finalizationRevision 0

def FinalizationJob.hasIdentity (job : FinalizationJob) : Bool :=
  job.uid.any (· ≠ "") && job.conversationId.any (· ≠ "")

def FinalizationJob.fanoutLeased (job : FinalizationJob) (lease : LeaseProof) (now : ℤ) :
    FinalizationJob :=
  { job with
    fanoutKey := some (fanoutKeyOf job)
    fanoutStatus := some .leased
    fanoutLeaseEpoch := some lease.leaseEpoch
    fanoutStartedAt := some now
    updatedAt := some now }

def claimFinalizationFanout (lease : LeaseProof) (now : ℤ) (conversation : Option Conversation) :
    JobTxn FinalizationFanoutClaim :=
  match snapshot with
  | none => { reply := ⟨"missing", none⟩ }
  | some job =>
    let fanoutKey := some (fanoutKeyOf job)
    if job.fanoutStatus = some .completed then { reply := ⟨"completed", fanoutKey⟩ }
    else if !lease.owns job then { reply := ⟨"lease_conflict", fanoutKey⟩ }
    else if !job.hasIdentity || !conversation.any (conversationAdmitsFanout · job jobId) then
      { reply := ⟨"fenced", fanoutKey⟩
        write := some (job.fencedOff now)
        deltas := fencedDeltas }
    else { reply := ⟨"claimed", fanoutKey⟩, write := some (job.fanoutLeased lease now) }

def FinalizationJob.fanoutDelivered (job : FinalizationJob) (now : ℤ) : FinalizationJob :=
  { job with
    fanoutStatus := some .completed
    fanoutCompletedAt := some now
    updatedAt := some now }

def markFinalizationFanoutCompleted (lease : LeaseProof) (now : ℤ) : JobTxn Bool :=
  match snapshot with
  | none => { reply := false }
  | some job =>
    if job.fanoutStatus = some .completed then
      { reply := intOr job.fanoutLeaseEpoch 0 = lease.leaseEpoch }
    else if !lease.owns job then { reply := false }
    else { reply := true, write := some (job.fanoutDelivered now) }

def FinalizationJob.retryable (job : FinalizationJob) (failureCode : String)
    (reconcileStaleAfter now : ℤ) : FinalizationJob :=
  { job with
    status := some .queued
    updatedAt := some now
    leaseExpiresAt := some now
    reconcileAfterAt := if job.requiresByok then none else some (now + reconcileStaleAfter)
    lastFailureCode := some failureCode }

def markFinalizationRetryable (lease : LeaseProof) (failureCode : String)
    (reconcileStaleAfter now : ℤ) : JobTxn Bool :=
  match snapshot with
  | none => { reply := false }
  | some job =>
    if !lease.owns job then { reply := false }
    else
      { reply := true
        write := some (job.retryable failureCode reconcileStaleAfter now)
        deltas := [(.status .leased, -1), (.status .queued, 1)] }

def FinalizationJob.deadLettered (job : FinalizationJob) (retryCount now : ℤ) : FinalizationJob :=
  { job with
    status := some .deadLetter
    updatedAt := some now
    terminalAt := some now
    terminalOutcome := some .failure
    leaseExpiresAt := some now
    reconcileAfterAt := none
    taskRetryCount := some retryCount
    lastFailureCode := some "final_attempt_failed" }

/-- The conversation still names this job and revision. -/
def boundTo (conversation : Conversation) (job : FinalizationJob) (jobId : String) : Bool :=
  conversation.finalizationJobId = some jobId &&
    conversation.finalizationRevision = job.finalizationRevision

def markFinalizationDeadLetter (lease : LeaseProof) (retryCount now : ℤ)
    (conversation : Option Conversation) : JobTxn Bool :=
  match snapshot with
  | none => { reply := false }
  | some job =>
    if !lease.owns job then { reply := false }
    else
      let closes := job.hasIdentity && conversation.any fun conversation =>
        conversation.status = some "processing" && !conversation.discarded &&
          boundTo conversation job jobId
      { reply := true
        write := some (job.deadLettered retryCount now)
        deltas := [(.status .leased, -1), (.status .deadLetter, 1), (.outcome .failure, 1)]
        conversation :=
          if closes then some [("status", .str "failed"), ("discarded", .bool true),
            ("finalization_status", .str "dead_letter")]
          else none }

def FinalizationJob.replayed (job : FinalizationJob) (staleAfter now : ℤ) : FinalizationJob :=
  { job with
    status := some .queued
    dispatchGeneration := some (job.generation + 1)
    dispatchRequestedAt := some now
    updatedAt := some now
    leaseExpiresAt := some now
    reconcileAfterAt := some (now + staleAfter) }

def claimFinalizationReplay (staleAfter now : ℤ) : JobTxn FinalizationIntent :=
  match snapshot with
  | none => { reply := noFinalizationIntent "missing" }
  | some job =>
    let unchanged : JobTxn FinalizationIntent := { reply := intentFromJob jobId job }
    if job.status = some .blockedByok ∨ job.isTerminal then unchanged
    else if job.status = some .leased ∧ job.leaseLive now then unchanged
    else if job.status = some .queued ∧ job.dispatchRequestedAt.any (now - staleAfter < ·) then
      unchanged
    else if job.status ≠ some .queued ∧ job.status ≠ some .leased then unchanged
    else
      { reply := intentFromJob jobId
          { job with status := some .queued, dispatchGeneration := some (job.generation + 1) }
        write := some (job.replayed staleAfter now)
        deltas := if job.status = some .leased then [(.status .leased, -1), (.status .queued, 1)]
          else [] }

/-- What `abandon_byok_finalization_job` expects of the row it scanned. -/
structure AbandonRequest where
  expectedStatus : Option FinalizationJobStatus
  expectedDispatchGeneration : ℤ
  expectedLeaseEpoch : ℤ
  cutoff : ℤ
  now : ℤ
  deriving DecidableEq, Repr

/-- `_job_last_activity_at`. -/
def FinalizationJob.lastActivityAt (job : FinalizationJob) : Option ℤ :=
  job.updatedAt.or job.createdAt

def FinalizationJob.abandoned (job : FinalizationJob) (now : ℤ) : FinalizationJob :=
  { job with
    status := some .deadLetter
    updatedAt := some now
    terminalAt := some now
    terminalOutcome := some .failure
    finalizationOutcome := some byokAbandonedFailureCode
    leaseExpiresAt := some now
    reconcileAfterAt := none
    fanoutStatus := some .fenced
    fanoutFencedAt := some now
    lastFailureCode := some byokAbandonedFailureCode }

/-- What becomes of the conversation an abandoned job was bound to. -/
def abandonedConversation (conversation : Option Conversation) (job : FinalizationJob)
    (jobId : String) : String × Option PyDict :=
  match conversation.filter fun _ => job.hasIdentity with
  | none => ("missing", none)
  | some conversation =>
    if !boundTo conversation job jobId then ("unbound", none)
    else if conversation.status ≠ some "processing" ∨ conversation.discarded then
      ("already_terminal", none)
    else if conversation.deferred then ("deferred", none)
    else ("closed", some [("status", .str "completed"), ("finalization_status", .str "dead_letter")])

def abandonByokFinalizationJob (req : AbandonRequest) (conversation : Option Conversation) :
    JobTxn ByokAbandonment :=
  match snapshot with
  | none => { reply := { status := "missing" } }
  | some job =>
    let fenced : JobTxn ByokAbandonment := { reply := { status := "fenced" } }
    if !job.requiresByok then fenced
    else if (job.status ≠ some .queued ∧ job.status ≠ some .leased) ∨
        job.status ≠ req.expectedStatus then fenced
    else if job.generation ≠ req.expectedDispatchGeneration then fenced
    else if job.epoch ≠ req.expectedLeaseEpoch then fenced
    else if job.status = some .leased ∧ job.leaseLive req.now then fenced
    else if job.lastActivityAt.all (req.cutoff < ·) then fenced
    else
      let closing := abandonedConversation conversation job jobId
      { reply := { status := "abandoned", conversationOutcome := closing.1 }
        write := some (job.abandoned req.now)
        deltas := [(.status .queued, if job.status = some .queued then -1 else 0),
          (.status .leased, if job.status = some .leased then -1 else 0),
          (.status .deadLetter, 1), (.outcome .failure, 1)]
        conversation := closing.2 }

end Transactions
end Omi.Finalization
