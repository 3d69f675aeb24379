import Omi.Memory.Item

/-! The operation journal entries of `models/memory_operations.py`: their server-computed
identity, their integrity checks and their transitions. -/
namespace Omi.Memory
open Omi.Foundation

inductive MemoryOperationType where
  | sourceCandidate
  | sourceReplacement
  | synthesis
  | longTermApply
  | userMutation
  | archiveTransition
  | projectionSync
  | vectorSync
  | graphEnrichment
  | deletion
  | ledgerMutation
  deriving DecidableEq, Repr

def MemoryOperationType.text : MemoryOperationType → String
  | .sourceCandidate => "source_candidate"
  | .sourceReplacement => "source_replacement"
  | .synthesis => "synthesis"
  | .longTermApply => "long_term_apply"
  | .userMutation => "user_mutation"
  | .archiveTransition => "archive_transition"
  | .projectionSync => "projection_sync"
  | .vectorSync => "vector_sync"
  | .graphEnrichment => "graph_enrichment"
  | .deletion => "deletion"
  | .ledgerMutation => "ledger_mutation"

inductive MemoryOperationStatus where
  | pending
  | committed
  | skippedIdempotent
  | retryableFailure
  | permanentFailure
  | staleGeneration
  deriving DecidableEq, Repr

def MemoryOperationStatus.text : MemoryOperationStatus → String
  | .pending => "pending"
  | .committed => "committed"
  | .skippedIdempotent => "skipped_idempotent"
  | .retryableFailure => "retryable_failure"
  | .permanentFailure => "permanent_failure"
  | .staleGeneration => "stale_generation"

/-- `_TERMINAL_STATUSES`. -/
def MemoryOperationStatus.terminal : MemoryOperationStatus → Bool
  | .committed | .skippedIdempotent | .permanentFailure | .staleGeneration => true
  | .pending | .retryableFailure => false

structure OperationLogicalPayload where
  decision : String
  memoryText : Option String := none
  targetMemoryId : Option String := none
  resultStatus : Option String := none
  supersedes : List String := []
  subjectEntityId : Option String := none
  predicate : Option String := none
  arguments : PyDict := []
  targetTier : Option String := none
  targetVisibility : Option String := none
  targetUserAsserted : Option Bool := none
  clearGraphAssertion : Option Bool := none
  mutationMetadata : Option PyDict := none
  metadata : PyDict := []
  deriving DecidableEq, Repr

def strings (texts : List String) : PyVal := .list (texts.map .str)

/-- `None` for an absent text. -/
def optionalText (text : Option String) : PyVal := text.elim .none .str

/-- The entry of a field under `exclude_none`. -/
private def presentEntry {α : Type} (key : String) (value : Option α) (dump : α → PyVal) : PyDict :=
  value.elim [] fun value => [(key, dump value)]

/-- `model_dump(exclude_none=True)`. -/
def OperationLogicalPayload.canonical (payload : OperationLogicalPayload) : PyDict :=
  [("decision", .str payload.decision)] ++
  presentEntry "memory_text" payload.memoryText .str ++
  presentEntry "target_memory_id" payload.targetMemoryId .str ++
  presentEntry "result_status" payload.resultStatus .str ++
  [("supersedes", strings payload.supersedes)] ++
  presentEntry "subject_entity_id" payload.subjectEntityId .str ++
  presentEntry "predicate" payload.predicate .str ++
  [("arguments", .dict payload.arguments)] ++
  presentEntry "target_tier" payload.targetTier .str ++
  presentEntry "target_visibility" payload.targetVisibility .str ++
  presentEntry "target_user_asserted" payload.targetUserAsserted .bool ++
  presentEntry "clear_graph_assertion" payload.clearGraphAssertion .bool ++
  presentEntry "mutation_metadata" payload.mutationMetadata .dict ++
  [("metadata", .dict payload.metadata)]

structure MemoryOperation where
  operationId : String
  uid : String
  operationType : MemoryOperationType
  status : MemoryOperationStatus := .pending
  sourcePacketId : Option String := none
  targetMemoryId : Option String := none
  evidenceIds : List String := []
  logicalPayload : OperationLogicalPayload
  logicalPayloadDigest : String
  accountGeneration : ℤ
  sourceGeneration : ℤ
  observedHeadCommitId : Option String := none
  committedHeadCommitId : Option String := none
  committedSequence : Option ℤ := none
  committedMemoryItemIds : List String := []
  committedOutboxEventIds : List String := []
  attemptCount : ℤ := 0
  errorCode : Option String := none
  untrustedProposedOperationId : Option String := none
  createdAt : ℤ
  updatedAt : ℤ
  deriving DecidableEq, Repr

section Identity
variable (hash : ContractHash)

/-- `logical_payload_digest`. -/
def digestLogicalPayload (payload : OperationLogicalPayload) : String :=
  hash.contractId "memory-operation-logical-payload" payload.canonical

/-- `build_operation_id`, from the fields of the operation that it names. -/
def buildOperationId (operation : MemoryOperation) : String :=
  "op_" ++ firstChars 32 (hash.contractId "memory-operation"
    [("uid", .str operation.uid), ("operation_type", .str operation.operationType.text),
      ("source_packet_id", optionalText operation.sourcePacketId),
      ("target_memory_id", optionalText operation.targetMemoryId),
      ("evidence_ids", strings (operation.evidenceIds.insertionSort (· ≤ ·))),
      ("logical_payload", .dict operation.logicalPayload.canonical),
      ("account_generation", .int operation.accountGeneration),
      ("source_generation", .int operation.sourceGeneration)])

end Identity

namespace MemoryOperation
variable (hash : ContractHash)

/-- What the status of an operation requires of its other fields. -/
def statusFieldsPresent (operation : MemoryOperation) : Bool :=
  match operation.status with
  | .committed =>
    operation.committedHeadCommitId.any (· ≠ "") && operation.committedSequence.isSome
  | .retryableFailure | .permanentFailure => operation.errorCode.any (· ≠ "")
  | .pending | .skippedIdempotent | .staleGeneration => true

/-- The validators of `MemoryOperation`. -/
def valid (operation : MemoryOperation) : Bool :=
  !isBlank operation.operationId && !isBlank operation.uid &&
  [operation.committedHeadCommitId, operation.errorCode].all optionalNonblank &&
  [operation.accountGeneration, operation.sourceGeneration, operation.attemptCount].all (0 ≤ ·) &&
  operation.committedSequence.all (0 ≤ ·) && operation.createdAt ≤ operation.updatedAt &&
  operation.operationId = buildOperationId hash operation &&
  operation.logicalPayloadDigest = digestLogicalPayload hash operation.logicalPayload &&
  operation.statusFieldsPresent

/-- `MemoryOperation(**data)`. -/
def construct (operation : MemoryOperation) : Except String MemoryOperation :=
  if operation.valid hash then .ok operation else .error "ValidationError"

/-- The operation `MemoryOperation.new` builds, before its validators run. -/
def new (fields : MemoryOperation) (now : ℤ) : MemoryOperation :=
  { operationId := buildOperationId hash fields
    uid := fields.uid
    operationType := fields.operationType
    sourcePacketId := fields.sourcePacketId
    targetMemoryId := fields.targetMemoryId
    evidenceIds := fields.evidenceIds
    logicalPayload := fields.logicalPayload
    logicalPayloadDigest := digestLogicalPayload hash fields.logicalPayload
    accountGeneration := fields.accountGeneration
    sourceGeneration := fields.sourceGeneration
    observedHeadCommitId := fields.observedHeadCommitId
    untrustedProposedOperationId := fields.untrustedProposedOperationId
    createdAt := now
    updatedAt := now }

/-- The fields `mark_committed` sets. -/
def committedAs (operation : MemoryOperation) (commitId : String) (sequence : ℤ)
    (itemIds eventIds : List String) (now : ℤ) : MemoryOperation :=
  { operation with
    status := .committed
    committedHeadCommitId := some commitId
    committedSequence := some sequence
    committedMemoryItemIds := itemIds
    committedOutboxEventIds := eventIds
    errorCode := none
    updatedAt := now }

/-- `mark_committed`: no way out of a terminal status, and the marked operation is checked. -/
def markCommitted (operation : MemoryOperation) (commitId : String) (sequence : ℤ)
    (itemIds eventIds : List String) (now : ℤ) : Except String MemoryOperation :=
  if operation.status.terminal then
    .error ("cannot transition terminal operation from " ++ operation.status.text)
  else construct hash (operation.committedAs commitId sequence itemIds eventIds now)

/-- `_stale_operation`. -/
def stale (operation : MemoryOperation) (now : ℤ) : Except String MemoryOperation :=
  construct hash { operation with status := .staleGeneration, updatedAt := now }

variable {hash} {operation marked : MemoryOperation} {commitId : String} {sequence now : ℤ}
  {itemIds eventIds : List String}

theorem markCommitted_ok
    (h : operation.markCommitted hash commitId sequence itemIds eventIds now = .ok marked) :
    marked = operation.committedAs commitId sequence itemIds eventIds now := by
  unfold markCommitted at h
  split_ifs at h with hterminal
  unfold construct at h
  split_ifs at h with hvalid
  exact (Except.ok.inj h).symm

theorem operationId_new (hash : ContractHash) (fields : MemoryOperation) (created : ℤ) :
    isBlank (new hash fields created).operationId = false := by
  simp [new, buildOperationId, isBlank, isPySpace]

/-- A new operation of some user and nonnegative generations passes its validators. -/
theorem construct_new {hash : ContractHash} {fields : MemoryOperation} {created : ℤ}
    (huid : isBlank fields.uid = false) (haccount : 0 ≤ fields.accountGeneration)
    (hsource : 0 ≤ fields.sourceGeneration) :
    (new hash fields created).construct hash = .ok (new hash fields created) := by
  have hbuild : (new hash fields created).operationId =
      buildOperationId hash (new hash fields created) := rfl
  have hdigest : (new hash fields created).logicalPayloadDigest =
      digestLogicalPayload hash (new hash fields created).logicalPayload := rfl
  unfold construct
  rw [if_pos]
  simp only [valid, Bool.and_eq_true, decide_eq_true_eq]
  refine ⟨⟨⟨⟨⟨⟨⟨⟨?_, ?_⟩, ?_⟩, ?_⟩, ?_⟩, ?_⟩, hbuild⟩, hdigest⟩, ?_⟩
  · simpa using operationId_new hash fields created
  · simpa [new] using huid
  · simp [new, optionalNonblank]
  · simp [new, haccount, hsource]
  · simp [new]
  · simp [new]
  · simp [new, statusFieldsPresent]

/-- Such an operation can be committed. -/
theorem markCommitted_new (hash : ContractHash) (itemIds eventIds : List String)
    {fields : MemoryOperation} {created : ℤ}
    (huid : isBlank fields.uid = false) (haccount : 0 ≤ fields.accountGeneration)
    (hsource : 0 ≤ fields.sourceGeneration) (hcommit : isBlank commitId = false)
    (hsequence : 0 ≤ sequence) (hnow : created ≤ now) :
    ∃ marked, (new hash fields created).markCommitted hash commitId sequence itemIds eventIds
      now = .ok marked := by
  have hne : commitId ≠ "" := by
    rintro rfl
    simp [isBlank] at hcommit
  refine ⟨(new hash fields created).committedAs commitId sequence itemIds eventIds now, ?_⟩
  unfold markCommitted construct
  rw [if_neg (by simp [new, MemoryOperationStatus.terminal]), if_pos]
  have hbuild : (new hash fields created).operationId =
      buildOperationId hash (new hash fields created) := rfl
  have hdigest : (new hash fields created).logicalPayloadDigest =
      digestLogicalPayload hash (new hash fields created).logicalPayload := rfl
  simp only [valid, Bool.and_eq_true, decide_eq_true_eq]
  refine ⟨⟨⟨⟨⟨⟨⟨⟨?_, ?_⟩, ?_⟩, ?_⟩, ?_⟩, ?_⟩, hbuild⟩, hdigest⟩, ?_⟩
  · simpa [committedAs] using operationId_new hash fields created
  · simpa [new, committedAs] using huid
  · simp [committedAs, optionalNonblank, hcommit]
  · simp [committedAs, new, haccount, hsource]
  · simpa [committedAs] using hsequence
  · simpa [committedAs, new] using hnow
  · simp [committedAs, statusFieldsPresent, hne]

end MemoryOperation

end Omi.Memory
