import Omi.Foundation.Runs
import Omi.Memory.Apply

/-! The consumer of one outbox event (`database/memory_outbox_worker.py`): workers that claim
it, write to the provider outside any transaction, re-read the authoritative state and settle,
step by step among the commits that change that state. -/
namespace Omi.Memory
open Omi.Foundation

/-! ### Documents -/

/-- A document as a strict read finds it. -/
inductive Stored (α : Type) where
  | missing
  | malformed
  | found (document : α)

/-- What a delivery reads: whether the account deletion blocks projection writes, the control
state and the row. -/
structure ProjectionStore where
  deletionBlocks : Bool
  control : Stored MemoryControlState
  item : Stored MemoryItem

/-- What the worker leaves to pydantic and Python: the event behind a document, and the moment
behind an ISO text. -/
structure OutboxEnv where
  parseEvent : PyDict → Option MemoryOutboxEvent
  fromIsoformat : String → Option ℤ

/-- `_safe_nonnegative_int`. -/
def safeNonnegativeInt (value : PyVal) : ℤ := (value.int?.filter (0 ≤ ·)).getD 0

/-- `_coerce_timestamp`; moments are aware. -/
def OutboxEnv.coerceTimestamp (env : OutboxEnv) : PyVal → Option ℤ
  | .datetime moment => some moment
  | .str text => env.fromIsoformat text
  | _ => none

def leaseEpochOf (raw : PyDict) : ℤ := safeNonnegativeInt (raw.get "lease_epoch")

/-- The document that a commit writes for an event. -/
def MemoryOutboxEvent.document (event : MemoryOutboxEvent) : PyDict :=
  [("event_id", .str event.eventId), ("uid", .str event.uid),
    ("event_type", .str event.eventType.text), ("status", .str "pending"),
    ("commit_id", .str event.commitId), ("parent_commit_id", .str event.parentCommitId),
    ("commit_sequence", .int event.commitSequence), ("memory_id", optionalText event.memoryId),
    ("operation_id", .str event.operationId),
    ("account_generation", .int event.accountGeneration),
    ("source_generation", .int event.sourceGeneration), ("payload", .dict event.payload),
    ("available_at", .datetime event.availableAt), ("attempt_count", .int event.attemptCount)]

/-! ### Leases -/

structure OutboxWorkerConfig where
  workerId : String
  leaseSeconds : ℤ := 300
  maxAttempts : ℤ := 5
  baseBackoffSeconds : ℤ := 30
  maxBackoffSeconds : ℤ := 1800
  deriving DecidableEq, Repr

/-- `LeasedMemoryOutboxEvent`, without the path that all share. -/
structure LeasedMemoryOutboxEvent where
  rawEvent : PyDict
  workerId : String
  leaseEpoch : ℤ

def supportedEventTypes : List PyVal := [.str "projection_sync", .str "vector_sync"]

def dueStatuses : List PyVal := [.str "pending", .str "retryable_failure"]

/-- `_is_claimable`. -/
def OutboxEnv.isClaimable (env : OutboxEnv) (raw : PyDict) (now : ℤ) : Bool :=
  if raw.get "event_type" ∉ supportedEventTypes then false
  else if raw.get "status" ∈ dueStatuses then
    (env.coerceTimestamp (raw.get "available_at")).any (· ≤ now)
  else if raw.get "status" = .str "processing" then
    (env.coerceTimestamp (raw.get "lease_expires_at")).any (· ≤ now)
  else false

/-- `_claim_event_transaction` on the document: its new content and the lease. -/
def OutboxEnv.claimEvent (env : OutboxEnv) (config : OutboxWorkerConfig) (now : ℤ)
    (raw : PyDict) : Option (PyDict × LeasedMemoryOutboxEvent) :=
  if env.isClaimable raw now then
    let leaseEpoch := leaseEpochOf raw + 1
    some (raw.update
      [("status", .str "processing"), ("lease_owner", .str config.workerId),
        ("lease_epoch", .int leaseEpoch), ("leased_at", .datetime now),
        ("lease_expires_at", .datetime (now + config.leaseSeconds * 1000000)),
        ("updated_at", .datetime now)],
      ⟨raw, config.workerId, leaseEpoch⟩)
  else none

/-- `_ack_event_transaction`: nothing happens under a lease that is not the current one. -/
def ackEvent (lease : LeasedMemoryOutboxEvent) (patch raw : PyDict) : Option PyDict :=
  if raw.get "status" ≠ .str "processing" || raw.get "lease_owner" ≠ .str lease.workerId ||
      leaseEpochOf raw ≠ lease.leaseEpoch then none
  else some (raw.update patch)

/-! ### Outcomes -/

/-- `_ProcessOutcome`, less the flags that only the summary counts. -/
structure ProcessOutcome where
  settledReason : String
  sideEffectAction : Option String := none
  deriving DecidableEq, Repr

/-- The patch of a delivered acknowledgement. -/
def deliveredPatch (now : ℤ) (outcome : ProcessOutcome) : PyDict :=
  [("status", .str "delivered"), ("delivered_at", .datetime now), ("updated_at", .datetime now),
    ("settled_reason", .str outcome.settledReason),
    ("side_effect_action", optionalText outcome.sideEffectAction), ("last_error", .none),
    ("last_error_code", .none), ("lease_owner", .none), ("lease_expires_at", .none)]

/-- `_retry_delay`, in seconds. -/
def retryDelay (config : OutboxWorkerConfig) (attemptCount : ℤ) : ℤ :=
  min config.maxBackoffSeconds
    (config.baseBackoffSeconds * 2 ^ (min (max (attemptCount - 1) 0) 30).toNat)

/-- The patch of `_settle_failure`. -/
def failurePatch (config : OutboxWorkerConfig) (now : ℤ) (lease : LeasedMemoryOutboxEvent)
    (errorCode : String) : PyDict :=
  let nextAttemptCount := safeNonnegativeInt (lease.rawEvent.get "attempt_count") + 1
  let deadLetter := config.maxAttempts ≤ nextAttemptCount
  [("status", .str (if deadLetter then "dead_letter" else "retryable_failure")),
    ("attempt_count", .int nextAttemptCount), ("last_error", .none),
    ("last_error_code", .str errorCode), ("failed_at", .datetime now),
    ("updated_at", .datetime now), ("lease_owner", .none), ("lease_expires_at", .none)] ++
  if deadLetter then []
  else [("available_at", .datetime (now + retryDelay config nextAttemptCount * 1000000))]

/-! ### The authoritative state -/

/-- `_AuthoritativeProjectionState`. -/
structure AuthoritativeState where
  accountGeneration : ℤ
  item : Option MemoryItem
  projectionWritesBlocked : Bool

/-- The part of the fence that is about the row, less the review verdict. -/
structure ItemFence where
  uid : String
  accountGeneration : ℤ
  itemRevision : ℤ
  contentHash : Option String
  ledgerCommitId : Option String
  tier : MemoryLayer
  status : MemoryItemStatus
  processingState : ProcessingState
  sourceState : SourceState
  sensitivityLabels : List String
  deriving DecidableEq

def itemFence (item : MemoryItem) : ItemFence where
  uid := item.uid
  accountGeneration := item.accountGeneration
  itemRevision := item.itemRevision
  contentHash := item.contentHash
  ledgerCommitId := item.ledgerCommitId
  tier := item.tier
  status := item.status
  processingState := item.processingState
  sourceState := item.sourceState
  sensitivityLabels := item.sensitivityLabels.mergeSort fun a b => decide (a ≤ b)

/-- `observed.fence == state.fence`. -/
def AuthoritativeState.sameFence (observed state : AuthoritativeState) : Bool :=
  observed.accountGeneration = state.accountGeneration &&
  observed.projectionWritesBlocked = state.projectionWritesBlocked &&
  match observed.item, state.item with
  | none, none => true
  | some current, some written =>
    decide (itemFence current = itemFence written) &&
      (current.promotionRecord.get "user_review").deepEq
        (written.promotionRecord.get "user_review")
  | _, _ => false

/-- `_is_search_projection_indexable`, and `_is_vector_indexable` word for word. -/
def isIndexable (item : MemoryItem) : Bool :=
  (item.tier = .shortTerm || item.tier = .longTerm) && item.status = .active &&
  item.processingState = .processed && item.sourceState = .active &&
  item.promotionRecord.get "user_review" ≠ .bool false && !item.restricted &&
  !isBlank (item.content.getD "")

/-- What is asked of the provider. -/
inductive ProviderWrite where
  | projectionUpsert (item : MemoryItem) (accountGeneration : ℤ)
  | projectionDelete (uid memoryId : String) (accountGeneration : ℤ)
  | vectorUpsert (item : MemoryItem) (projectionCommitId : String)
  | vectorDelete (uid memoryId : String)

def ProviderWrite.action : ProviderWrite → String
  | .projectionUpsert .. => "projection_upsert"
  | .projectionDelete .. => "projection_delete"
  | .vectorUpsert .. => "vector_upsert"
  | .vectorDelete .. => "vector_delete"

def ProviderWrite.errorCode (write : ProviderWrite) : String := write.action ++ "_failed"

/-- The row as far as projection writes see it. -/
def AuthoritativeState.visibleItem (state : AuthoritativeState) : Option MemoryItem :=
  if state.projectionWritesBlocked then none
  else state.item.filter fun item => item.accountGeneration = state.accountGeneration

/-- The write of `_perform_authoritative_side_effect`; `none` for an event of another type. -/
def authoritativeWrite (event : MemoryOutboxEvent) (uid memoryId : String)
    (state : AuthoritativeState) (useEventCommitId : Bool) : Option ProviderWrite :=
  match event.eventType with
  | .projectionSync =>
    match state.visibleItem.filter isIndexable with
    | some item => some (.projectionUpsert item state.accountGeneration)
    | none => some (.projectionDelete uid memoryId state.accountGeneration)
  | .vectorSync =>
    match state.visibleItem.filter isIndexable with
    | some item =>
      some (.vectorUpsert item
        (if useEventCommitId then event.commitId
        else if present item.ledgerCommitId then item.ledgerCommitId.getD "" else event.commitId))
    | none => some (.vectorDelete uid memoryId)
  | .exportSync | .deleteSync => none

/-! ### Processing -/

def providerConvergenceAttempts : ℕ := 5

def providerStateRaceError : String := "provider_state_changed_during_delivery"

def providerRepairRequiredErrorCodes : List PyVal :=
  [.str providerStateRaceError, .str "projection_upsert_failed", .str "projection_delete_failed",
    .str "vector_upsert_failed", .str "vector_delete_failed"]

/-- An event that is delivered: its row and the fence it was written with. -/
structure Delivery where
  event : MemoryOutboxEvent
  memoryId : String
  expectedRevision : ℤ
  expectedContentHash : String

/-- Why the authoritative state is read. -/
inductive Reading where
  | initial
  | verify (attempt : ℕ) (written : AuthoritativeState) (write : ProviderWrite)

/-- Where a worker stands. Reading the state is three reads. -/
inductive Stage where
  | leased
  | readControlForBarrier (event : MemoryOutboxEvent)
  | readDeletionFence (delivery : Delivery) (reading : Reading)
  | readControl (delivery : Delivery) (reading : Reading) (blocked : Bool)
  | readItem (delivery : Delivery) (reading : Reading) (blocked : Bool) (accountGeneration : ℤ)
  | writing (delivery : Delivery) (attempt : ℕ) (state : AuthoritativeState)
      (write : ProviderWrite)
  | settling (patch : PyDict)
  | settled

def barrierOutcome (event : MemoryOutboxEvent) (control : MemoryControlState) : ProcessOutcome :=
  if event.accountGeneration ≠ control.accountGeneration then
    { settledReason := "stale_account_generation" }
  else if event.sourceGeneration ≠ control.sourceGeneration then
    { settledReason := "stale_source_generation" }
  else { settledReason := "barrier" }

/-- A worker that has claimed the event, in a tick that began at `now`. -/
structure OutboxProcess where
  config : OutboxWorkerConfig
  requestedUid : String
  documentId : String
  now : ℤ
  lease : LeasedMemoryOutboxEvent
  stage : Stage

namespace OutboxProcess
variable (process : OutboxProcess)

def fail (errorCode : String) : Stage :=
  .settling (failurePatch process.config process.now process.lease errorCode)

def deliver (outcome : ProcessOutcome) : Stage := .settling (deliveredPatch process.now outcome)

/-- The checks of `_process_leased_event` before its first read. -/
def startProcessing (env : OutboxEnv) : Stage :=
  match env.parseEvent process.lease.rawEvent with
  | none => process.fail "invalid_event"
  | some event =>
    let action := event.payload.get "action"
    if event.uid ≠ process.requestedUid then process.fail "event_uid_mismatch"
    else if event.eventId ≠ process.documentId then process.fail "event_id_mismatch"
    else if action = .str "barrier" then
      if event.memoryId.isSome then process.fail "invalid_barrier_event"
      else .readControlForBarrier event
    else if !action.hashable then process.fail "processing_failed"
    else if action ≠ .str "upsert" && action ≠ .str "delete" then
      process.fail "invalid_event_action"
    else
      match event.memoryId with
      | none => process.fail "event_memory_id_mismatch"
      | some memoryId =>
        if event.payload.get "memory_id" ≠ .str memoryId then
          process.fail "event_memory_id_mismatch"
        else
          match (event.payload.get "item_revision").int?,
              (event.payload.get "content_hash").str? with
          | some revision, some contentHash =>
            if revision < 1 || isBlank contentHash then process.fail "invalid_event_fence"
            else .readDeletionFence ⟨event, memoryId, revision, contentHash⟩ .initial
          | _, _ => process.fail "invalid_event_fence"

/-- The next write of `_deliver_authoritative_projection_state`. -/
def writeNext (delivery : Delivery) (attempt : ℕ) (state : AuthoritativeState)
    (useEventCommitId : Bool) : Stage :=
  match authoritativeWrite delivery.event process.requestedUid delivery.memoryId state
      useEventCommitId with
  | none => process.fail "unsupported_event_type"
  | some write => .writing delivery attempt state write

/-- A failed delivery is repaired whatever the event's own fence says. -/
def repairAuthoritativeState : Bool :=
  process.lease.rawEvent.get "status" = .str "processing" ||
    process.lease.rawEvent.get "last_error_code" ∈ providerRepairRequiredErrorCodes

/-- `_process_leased_event` once the authoritative state is read. -/
def decideInitial (delivery : Delivery) (state : AuthoritativeState) : Stage :=
  let event := delivery.event
  let repair := process.repairAuthoritativeState
  if event.accountGeneration ≠ state.accountGeneration && !repair then
    process.deliver { settledReason := "stale_account_generation" }
  else
    match state.item with
    | none => process.writeNext delivery 0 state false
    | some item =>
      if item.accountGeneration ≠ event.accountGeneration && !repair then
        process.deliver { settledReason := "stale_item_account_generation" }
      else if item.itemRevision ≠ delivery.expectedRevision && !repair then
        process.deliver { settledReason := "stale_item_revision" }
      else if item.contentHash ≠ some delivery.expectedContentHash && !repair then
        process.deliver { settledReason := "stale_content_hash" }
      else
        process.writeNext delivery 0 state
          (item.accountGeneration = event.accountGeneration &&
            item.itemRevision = delivery.expectedRevision &&
            item.contentHash = some delivery.expectedContentHash)

/-- The loop of `_deliver_authoritative_projection_state` after its verifying read. -/
def decideVerified (delivery : Delivery) (attempt : ℕ) (written : AuthoritativeState)
    (write : ProviderWrite) (observed : AuthoritativeState) : Stage :=
  if observed.sameFence written then
    process.deliver { settledReason := "projected", sideEffectAction := some write.action }
  else if attempt + 1 < providerConvergenceAttempts then
    process.writeNext delivery (attempt + 1) observed false
  else process.fail providerStateRaceError

/-- A read that finds no valid document; a verifying one fails as a race. -/
def failRead (reading : Reading) (errorCode : String) : Stage :=
  match reading with
  | .initial => process.fail errorCode
  | .verify .. => process.fail providerStateRaceError

/-- What the last of the three reads completes. -/
def observe (blocked : Bool) (accountGeneration : ℤ) (item : Stored MemoryItem) :
    Except String AuthoritativeState :=
  match item with
  | .malformed => .error "invalid_authoritative_item"
  | .missing => .ok ⟨accountGeneration, none, blocked⟩
  | .found item =>
    if item.uid ≠ process.requestedUid then .error "authoritative_item_uid_mismatch"
    else .ok ⟨accountGeneration, some item, blocked⟩

end OutboxProcess

/-! ### The system -/

/-- What has happened, with the number of the worker it happened to. A verifying read keeps
what the store held when the row was read. -/
inductive OutboxEntry where
  | claimed (worker : ℕ) (epoch : ℤ)
  | wrote (worker : ℕ) (state : AuthoritativeState) (write : ProviderWrite)
  | reread (worker : ℕ) (observed : AuthoritativeState) (current : Stored MemoryItem)
  | settled (worker : ℕ) (epoch : ℤ) (patch : PyDict)

structure OutboxWorld where
  document : Option PyDict := none
  store : ProjectionStore
  processes : List OutboxProcess := []
  log : List OutboxEntry := []

/-- A commit writes the event, or changes what deliveries read; a worker claims the event, or
takes its next step, where a read, a write or an acknowledgement may go wrong. -/
inductive OutboxAction where
  | publish (event : MemoryOutboxEvent)
  | commit (store : ProjectionStore)
  | claim (config : OutboxWorkerConfig) (requestedUid documentId : String) (now : ℤ)
  | advance (worker : ℕ) (ok : Bool)

namespace OutboxWorld

/-- A worker goes to another stage. -/
def moveTo (world : OutboxWorld) (worker : ℕ) (stage : Stage) : OutboxWorld :=
  { world with
    processes := world.processes.modify worker fun process => { process with stage := stage } }

def record (world : OutboxWorld) (entry : OutboxEntry) : OutboxWorld :=
  { world with log := world.log ++ [entry] }

/-- `lease_canonical_memory_outbox_events` on this event. -/
def claim (env : OutboxEnv) (world : OutboxWorld) (config : OutboxWorkerConfig)
    (requestedUid documentId : String) (now : ℤ) : OutboxWorld :=
  match world.document with
  | none => world
  | some raw =>
    match env.claimEvent config now raw with
    | none => world
    | some (claimed, lease) =>
      { world with
        document := some claimed
        processes := world.processes ++ [⟨config, requestedUid, documentId, now, lease, .leased⟩]
        log := world.log ++ [OutboxEntry.claimed world.processes.length lease.leaseEpoch] }

/-- `_ack_leased_event`: the transaction may fail. -/
def settle (world : OutboxWorld) (worker : ℕ) (process : OutboxProcess) (patch : PyDict)
    (ok : Bool) : OutboxWorld :=
  match (world.document.filter fun _ => ok).bind (ackEvent process.lease patch) with
  | none => world.moveTo worker .settled
  | some raw =>
    { world.moveTo worker .settled with
      document := some raw
      log := world.log ++ [OutboxEntry.settled worker process.lease.leaseEpoch patch] }

/-- The read of the control state. -/
def readControl (world : OutboxWorld) (process : OutboxProcess) (reading : Reading)
    (next : MemoryControlState → Stage) : Stage :=
  match world.store.control with
  | .missing => process.failRead reading "missing_control_state"
  | .malformed => process.failRead reading "invalid_control_state"
  | .found control => next control

/-- The read of the row, the last of the three. -/
def readItem (world : OutboxWorld) (worker : ℕ) (process : OutboxProcess) (delivery : Delivery)
    (reading : Reading) (blocked : Bool) (accountGeneration : ℤ) : OutboxWorld :=
  match process.observe blocked accountGeneration world.store.item with
  | .error code => world.moveTo worker (process.failRead reading code)
  | .ok observed =>
    match reading with
    | .initial => world.moveTo worker (process.decideInitial delivery observed)
    | .verify attempt written write =>
      (world.record (.reread worker observed world.store.item)).moveTo worker
        (process.decideVerified delivery attempt written write observed)

/-- The next step of a worker. -/
def advance (env : OutboxEnv) (world : OutboxWorld) (worker : ℕ) (process : OutboxProcess)
    (ok : Bool) : OutboxWorld :=
  match process.stage with
  | .leased => world.moveTo worker (process.startProcessing env)
  | .settling patch => world.settle worker process patch ok
  | .settled => world
  | .writing delivery attempt state write =>
    if ok then
      (world.record (.wrote worker state write)).moveTo worker
        (.readDeletionFence delivery (.verify attempt state write))
    else world.moveTo worker (process.fail write.errorCode)
  | .readControlForBarrier event =>
    if ok then
      world.moveTo worker (world.readControl process .initial fun control =>
        process.deliver (barrierOutcome event control))
    else world.moveTo worker (process.fail "processing_failed")
  | .readDeletionFence delivery reading =>
    if ok then
      world.moveTo worker (.readControl delivery reading world.store.deletionBlocks)
    else world.moveTo worker (process.fail "processing_failed")
  | .readControl delivery reading blocked =>
    if ok then
      world.moveTo worker (world.readControl process reading fun control =>
        .readItem delivery reading blocked control.accountGeneration)
    else world.moveTo worker (process.fail "processing_failed")
  | .readItem delivery reading blocked accountGeneration =>
    if ok then world.readItem worker process delivery reading blocked accountGeneration
    else world.moveTo worker (process.fail "processing_failed")

/-- An event is written once: its id is made from its commit's. -/
def step (env : OutboxEnv) (world : OutboxWorld) : OutboxAction → OutboxWorld
  | .publish event =>
    if world.document.isNone then { world with document := some event.document } else world
  | .commit store => { world with store := store }
  | .claim config requestedUid documentId now =>
    world.claim env config requestedUid documentId now
  | .advance worker ok =>
    match world.processes[worker]? with
    | none => world
    | some process => world.advance env worker process ok

end OutboxWorld
end Omi.Memory
