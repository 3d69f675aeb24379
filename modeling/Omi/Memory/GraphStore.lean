import Omi.Memory.CommitChain

/-! The transactions of `database/memory_apply_store.py` that write memory rows: the apply of a
patch to the rows its operation names, and the privacy tombstone. Both write their result in one
way, each row with the graph assertion beside it. The documents these transactions only write, or
only refuse by (journals, events and receipts, reviews, account deletions, writer modes), are left
out. -/
namespace Omi.Memory
open Omi.Foundation

/-- The control state and the rows of one user, with the graph assertion of each row. -/
structure MemoryStore extends MemoryBook where
  assertions : Table MemoryGraphAssertion := []

/-- The assertion of a commit that is about a row. -/
def matchingAssertion (assertions : List MemoryGraphAssertion) (item : MemoryItem) :
    Option MemoryGraphAssertion :=
  assertions.find? (·.memoryId = item.memoryId)

/-- Write a row of a commit, and with it its assertion: the one the commit has for it, or none
where the row is no longer one of the graph. A tombstone leaves the assertion to the outbox. -/
def MemoryStore.writeItem (assertions : List MemoryGraphAssertion) (store : MemoryStore)
    (item : MemoryItem) : MemoryStore :=
  { store with
    items := store.items.set item.memoryId item
    assertions :=
      match matchingAssertion assertions item with
      | some assertion => store.assertions.set item.memoryId assertion
      | none =>
        if item.status ≠ .tombstoned && (item.status ≠ .active || !item.graphReady) then
          store.assertions.erase item.memoryId
        else store.assertions }

/-- `_write_apply_result`. -/
def MemoryStore.writeApplyResult (store : MemoryStore) (result : ApplyResult) : MemoryStore :=
  if result.status ≠ .committed then store
  else result.memoryItems.foldl (MemoryStore.writeItem result.graphAssertions)
    { store with control := result.controlState }

theorem foldl_writeItem_book (assertions : List MemoryGraphAssertion) (items : List MemoryItem)
    (store : MemoryStore) :
    (items.foldl (MemoryStore.writeItem assertions) store).toMemoryBook =
      { store.toMemoryBook with items := writeItems store.items items } := by
  induction items generalizing store with
  | nil => rfl
  | cons item items ih =>
    rw [List.foldl_cons, ih, writeItems_cons]
    rfl

/-- The control state and the rows are fed on as in a fold of applies. -/
theorem writeApplyResult_book (store : MemoryStore) (result : ApplyResult) :
    (store.writeApplyResult result).toMemoryBook = store.toMemoryBook.fed (.ok result) := by
  simp only [MemoryStore.writeApplyResult, MemoryBook.fed]
  by_cases hstatus : result.status = .committed
  · rw [if_neg (not_not.mpr hstatus), if_pos hstatus, foldl_writeItem_book]
  · rw [if_pos hstatus, if_neg hstatus]

/-! ### Applies -/

/-- A call of the apply: its operation is the one journaled under its id, or else the proposed one,
and its evidence the records that the transaction reads or stages. -/
structure PatchCall extends ApplyCall where
  evidence : List EvidenceObject
  allowLedgerMigration : Bool := false

section
variable (env : MemoryEnv)

/-- Read a row back: its validators run, and may raise. -/
def readItem (items : Table MemoryItem) (memoryId : String) : Except String (Option MemoryItem) :=
  match items.get memoryId with
  | none => .ok none
  | some item => (item.construct env).map some

/-- `_operation_target_ids`. -/
def operationTargetIds (operation : MemoryOperation) : List String :=
  let named := [operation.targetMemoryId, operation.logicalPayload.targetMemoryId].filter present
  sortedIds (named.filterMap id ++ operation.logicalPayload.supersedes)

theorem targetNotActive_ne_committed : ApplyStatus.targetNotActive ≠ .committed := by
  decide

/-- `_target_not_active`. -/
def targetNotActive (operation : MemoryOperation) (reason : String) : Halt :=
  refuse operation .targetNotActive reason targetNotActive_ne_committed

/-- One target of `_validate_authoritative_targets`. -/
def validateTarget (store : MemoryStore) (operation : MemoryOperation) (targetId : String) :
    ApplyM Unit := do
  match ← liftModel (readItem env store.items targetId) with
  | none => throw (targetNotActive operation ("missing target memory item: " ++ targetId))
  | some target =>
    check (target.uid = operation.uid) (targetNotActive operation "target memory uid mismatch")
    check (target.accountGeneration = store.control.accountGeneration)
      (targetNotActive operation "target memory generation mismatch")
    check (target.status = .active) (targetNotActive operation "target memory is not active")

/-- `_validate_authoritative_targets`. -/
def validateAuthoritativeTargets (store : MemoryStore) (operation : MemoryOperation) :
    ApplyM Unit :=
  (operationTargetIds operation).forM (validateTarget env store operation)

/-- `_read_authoritative_target_item`. -/
def readAuthoritativeTargetItem (items : Table MemoryItem) (operation : MemoryOperation) :
    Except String (Option MemoryItem) :=
  let targetId := orText operation.logicalPayload.targetMemoryId operation.targetMemoryId
  if operation.logicalPayload.decision = DurablePatchDecision.update.text && present targetId then
    readItem env items (targetId.getD "")
  else .ok none

/-- `_read_authoritative_superseded_items`. -/
def readAuthoritativeSupersededItems (items : Table MemoryItem) (operation : MemoryOperation) :
    Except String (List MemoryItem) := do
  let rows ← operation.logicalPayload.supersedes.mapM (readItem env items)
  pure (rows.filterMap id)

/-- The payload with the records and rows that the transaction read, in place of any rows the
caller sent: the digest of the operation binds its ids to those of the patch. -/
def PatchPayload.authoritative (payload : PatchPayload) (evidence : List EvidenceObject)
    (existing : Option MemoryItem) (superseded : List MemoryItem) : PatchPayload :=
  { payload with
    evidence := evidence
    existingItem := existing
    supersededItems := if superseded.isEmpty then none else some superseded }

/-- A commit that adds a row under an id that is there already is refused after all. -/
def refuseTakenId (store : MemoryStore) (call : PatchCall) (result : ApplyResult) : ApplyResult :=
  if result.status = .committed &&
      call.operation.logicalPayload.decision = DurablePatchDecision.add.text &&
      call.payload.patch.newMemoryId.any (fun newId =>
        !isBlank newId && (store.items.get newId).isSome) then
    { status := .invalidPatch
      controlState := store.control
      operation := call.operation
      reason := some "add patch new_memory_id already exists" }
  else result

/-- A commit of the ledger migration is counted in its control state. -/
def countMigration (call : PatchCall) (result : ApplyResult) : ApplyResult :=
  let migrates := "user_mutation:knowledge_ledger_migration:".toList.isPrefixOf
    (call.operation.sourcePacketId.getD "").toList
  let control := result.controlState
  if result.status = .committed && call.allowLedgerMigration then
    { result with
      controlState :=
        if migrates then
          { control with ledgerMigrationMigratedCount := control.ledgerMigrationMigratedCount + 1 }
        else
          { control with
            ledgerMigrationAdjudicatedCount := control.ledgerMigrationAdjudicatedCount + 1 } }
  else result

/-- The apply on the authoritative rows. -/
def applyAuthoritative (store : MemoryStore) (call : PatchCall) : Except String ApplyResult := do
  let existing ← readAuthoritativeTargetItem env store.items call.operation
  let superseded ← readAuthoritativeSupersededItems env store.items call.operation
  let result ← applyLongTermPatchTransaction env store.control call.operation
    (call.payload.authoritative call.evidence existing superseded) call.clock
    call.allowTriggerFeedbackArguments
  pure (countMigration call (refuseTakenId store call result))

/-- The same, for an operation whose targets are all there and active. -/
def applyToTargets (store : MemoryStore) (call : PatchCall) : Except String ApplyResult :=
  match validateAuthoritativeTargets env store call.operation with
  | .ok () => applyAuthoritative env store call
  | .error (.raised message) => .error message
  | .error (.refused refusal) => .ok
      { status := refusal.status
        controlState := store.control
        operation := refusal.operation
        reason := refusal.reason }

/-- The answers of an apply without rows that are given back at once. -/
def replayed : List ApplyStatus :=
  [.idempotentSkip, .payloadMismatch, .generationMismatch, .retryableHeadMismatch]

/-- `_apply_long_term_patch_firestore_transaction`. -/
def applyPatchTransaction (store : MemoryStore) (call : PatchCall) :
    Except String (MemoryStore × ApplyResult) := do
  let replay ← applyLongTermPatchTransaction env store.control call.operation call.payload
    call.clock
  if replay.status ∈ replayed then pure (store, replay)
  else
    let result ← applyToTargets env store call
    pure (store.writeApplyResult result, result)

end

/-! ### Privacy tombstones -/

/-- A call of the tombstone transaction, with the evidence documents it finds and the readings of
the clock it takes. -/
structure TombstoneCall where
  uid : String
  reason : String
  observedControl : MemoryControlState
  expectedItems : List MemoryItem
  preservedEvidenceIds : List String := []
  deletionGateToken : String
  evidence : List EvidenceObject
  opened : ℤ
  head : ℤ
  now : ℤ
  marked : ℤ

/-- `_privacy_tombstoned_evidence`, with the identity of the source scrubbed. -/
def privacyTombstonedEvidence (evidence : MemoryEvidence) : MemoryEvidence :=
  { evidence with
    artifactRefs := []
    artifactPreservation := .deletedByUser
    contentHash := none
    sourceId := none
    sourceVersion := none
    conversationId := none
    lineageId := none
    sourceState := .tombstoned
    sourceStateReason := some .deletedByUser
    clientDeviceId := none }

/-- `_privacy_tombstoned_memory_item`. -/
def privacyTombstonedMemoryItem (item : MemoryItem) (embeddedEvidence : List MemoryEvidence)
    (now : ℤ) (point : CommitPoint) (accountGeneration : ℤ) : MemoryItem :=
  { item with
    status := .tombstoned
    sourceState := .tombstoned
    content := none
    evidence := embeddedEvidence
    sensitivityLabels := []
    promotion := none
    captureDeviceIds := []
    primaryCaptureDevice := none
    corroborationCount := 0
    lastCorroboratedAt := none
    confidence := none
    subjectEntityId := none
    predicate := none
    arguments := []
    ledgerSchemaVersion := none
    kind := .fact
    subjectScope := .primaryUser
    slot := none
    body := none
    validFrom := none
    validTo := none
    curationWeight := 0
    triggerCondition := []
    intentBacked := false
    writeReason := none
    updatedAt := max now item.updatedAt
    version := item.version + 1
    itemRevision := item.itemRevision + 1
    ledgerCommitId := some point.commitId
    ledgerSequence := some point.sequence
    sourceCommitId := some point.commitId
    sourceCommitSequence := some point.sequence
    normalizedContentKey := none
    contentHash := none
    accountGeneration := accountGeneration
    kgExtracted := false
    graphReady := false
    graphAssertionId := none
    graphPlanHash := none }

/-- `_control_fence`. -/
def controlFence (control : MemoryControlState) : String × ℤ × ℤ × ℤ :=
  (control.headCommitId, control.accountGeneration, control.sourceGeneration,
    control.commitSequence)

section
variable (env : MemoryEnv)

/-- One event of `_privacy_delete_events`. -/
def privacyDeleteEvent (call : TombstoneCall) (control : MemoryControlState)
    (operationId : String) (item : MemoryItem) (eventType : MemoryOutboxEventType) :
    MemoryOutboxEvent where
  eventId := outboxEventId env eventType control.headCommitId (some item.memoryId) operationId
  uid := call.uid
  eventType := eventType
  commitId := control.headCommitId
  parentCommitId := control.headCommitId
  commitSequence := control.commitSequence
  memoryId := some item.memoryId
  operationId := operationId
  accountGeneration := control.accountGeneration
  sourceGeneration := control.sourceGeneration
  payload :=
    [("memory_id", .str item.memoryId), ("tier", .str item.tier.text), ("action", .str "delete"),
      ("item_revision", .int item.itemRevision), ("content_hash", optionalText item.contentHash),
      ("reason", .str call.reason)]
  availableAt := call.now

/-- The row of an id, if it is the one the caller expects. -/
def expectedRow (store : MemoryStore) (call : TombstoneCall) (memoryId : String) :
    Except String MemoryItem := do
  match ← readItem env store.items memoryId with
  | none => throw ("privacy tombstone item disappeared: " ++ memoryId)
  | some item =>
    check (item.uid = call.uid && item.status ≠ .tombstoned &&
        (call.expectedItems.find? (·.memoryId = memoryId)).any fun expected =>
          item.itemRevision = expected.itemRevision && item.contentHash = expected.contentHash &&
          item.canonicalMemoryId = expected.canonicalMemoryId)
      ("privacy tombstone item changed: " ++ memoryId)
    pure item

/-- The scrubbed records of a row, from their documents. -/
def embeddedEvidence (call : TombstoneCall) (item : MemoryItem) :
    Except String (List MemoryEvidence) :=
  item.evidence.mapM fun embedded =>
    match call.evidence.find? (·.record.evidenceId = embedded.evidenceId) with
    | none => .error ("privacy tombstone evidence disappeared: " ++ embedded.evidenceId)
    | some document => .ok (privacyTombstonedEvidence document.record)

/-- The commit of a tombstone: no content of the rows goes into its id. -/
def privacyCommitPoint (store : MemoryStore) (call : TombstoneCall) : CommitPoint where
  commitId := "commit_" ++ firstChars 32 (env.contractId "memory-privacy-epoch"
    [("uid", .str call.uid), ("deletion_gate_token", .str call.deletionGateToken),
      ("commit_sequence", .int (store.control.commitSequence + 1))])
  sequence := store.control.commitSequence + 1

/-- The operation a tombstone is journaled under. -/
def deletionOperation (store : MemoryStore) (call : TombstoneCall) (rows : List MemoryItem) :
    MemoryOperation :=
  let logicalPayload : OperationLogicalPayload :=
    { decision := "delete"
      metadata :=
        [("reason", .str call.reason),
          ("items", .list (rows.map fun item => .dict
            [("memory_id", .str item.memoryId), ("item_revision", .int item.itemRevision)]))] }
  .new env.toContractHash
    { operationId := ""
      uid := call.uid
      operationType := .deletion
      sourcePacketId := some ("privacy_delete:" ++ call.reason)
      logicalPayload := logicalPayload
      logicalPayloadDigest := ""
      accountGeneration := store.control.accountGeneration
      sourceGeneration := store.control.sourceGeneration
      createdAt := call.opened
      updatedAt := call.opened } call.opened

/-- One tombstone. -/
def tombstoneRow (store : MemoryStore) (call : TombstoneCall) (item : MemoryItem) :
    Except String MemoryItem := do
  let evidence ← embeddedEvidence call item
  pure (privacyTombstonedMemoryItem item evidence call.now (privacyCommitPoint env store call)
    store.control.accountGeneration)

/-- The writes of a tombstone, as it counts them against the limit of a transaction. -/
def tombstoneMutations (call : TombstoneCall) (rows : List MemoryItem) : ℕ :=
  let evidenceIds := (rows.flatMap fun item => evidenceIdsOf item.evidence).dedup
  (evidenceIds.filter (· ∉ call.preservedEvidenceIds)).length + 4 + 4 * rows.length

/-- The result of `_tombstone_memory_items_firestore_transaction`, before it is written. -/
def tombstoneResult (store : MemoryStore) (call : TombstoneCall) : Except String ApplyResult := do
  let memoryIds := call.expectedItems.map (·.memoryId)
  check (!isBlank call.reason) "canonical privacy tombstone reason is required"
  check (!memoryIds.isEmpty && memoryIds.Nodup) "privacy tombstone requires unique items"
  check (controlFence store.control = controlFence call.observedControl)
    "memory control changed during privacy tombstone"
  let rows ← (sortedIds memoryIds).mapM (expectedRow env store call)
  let operation ← (deletionOperation env store call rows).construct env.toContractHash
  let point := privacyCommitPoint env store call
  let control :=
    { store.control.advanceHead point.commitId call.head with
      projectionWatermarkCommitId := none
      vectorWatermarkCommitId := none }
  let tombstones ← rows.mapM (tombstoneRow env store call)
  check (tombstoneMutations call rows ≤ 500)
    "canonical memory batch exceeds Firestore's 500-mutation transaction limit"
  let events := tombstones.flatMap fun item =>
    [MemoryOutboxEventType.projectionSync, .vectorSync].map
      (privacyDeleteEvent env call control operation.operationId item)
  let committed ← operation.markCommitted env.toContractHash point.commitId point.sequence
    (tombstones.map (·.memoryId)) (events.map (·.eventId)) call.marked
  pure
    { status := .committed
      controlState := control
      operation := committed
      memoryItems := tombstones
      outboxEvents := events }

/-- `_tombstone_memory_items_firestore_transaction`. -/
def tombstoneTransaction (store : MemoryStore) (call : TombstoneCall) :
    Except String (MemoryStore × ApplyResult) := do
  let result ← tombstoneResult env store call
  pure (store.writeApplyResult result, result)

end

/-! ### Runs -/

inductive MemoryCall where
  | apply (call : PatchCall)
  | tombstone (call : TombstoneCall)

section
variable (env : MemoryEnv)

def runTransaction (store : MemoryStore) : MemoryCall → Except String (MemoryStore × ApplyResult)
  | .apply call => applyPatchTransaction env store call
  | .tombstone call => tombstoneTransaction env store call

/-- A transaction that raises writes nothing. -/
def memoryStep (store : MemoryStore) (call : MemoryCall) :
    MemoryStore × Except String ApplyResult :=
  match runTransaction env store call with
  | .ok (next, result) => (next, .ok result)
  | .error message => (store, .error message)

def memoryTransactions : Machine MemoryStore MemoryCall (Except String ApplyResult) :=
  ⟨memoryStep env⟩

end

end Omi.Memory
