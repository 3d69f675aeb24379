import Omi.Memory.GraphStore

/-! The transaction of `database/memory_apply_store.py` that replaces the rows of one conversation:
it tombstones the rows the conversation was the source of, brings back the rows they had superseded,
and applies the rows that take their place. A planner reads the rows beforehand; the transaction
finds every one of them as planned, or changes nothing. -/
namespace Omi.Memory
open Omi.Foundation

/-- One server-built apply of a replacement. The evidence of its payload is the write's own. -/
structure CanonicalApplyWrite where
  operation : MemoryOperation
  payload : PatchPayload
  clock : ApplyClock

/-- The receipt of a replacement that was committed before. -/
structure ConversationSourceReplacementReceipt where
  uid : String
  conversationId : String
  replacementDigest : String
  controlState : MemoryControlState
  retractedMemoryIds : List String := []
  committedMemoryIds : List String := []
  reactivatedMemoryIds : List String := []
  tombstonedEvidenceIds : List String := []

structure ConversationSourceReplacementResult where
  controlState : MemoryControlState
  retractedMemoryIds : List String
  committedMemoryIds : List String
  reactivatedMemoryIds : List String
  tombstonedEvidenceIds : List String

/-- A call of the replacement, with the documents it finds beside the rows (the receipt, the
evidence, the ids of journaled operations, and the rows with a privacy receipt) and the readings of
the clock it takes. -/
structure ReplacementCall where
  uid : String
  conversationId : String
  replacementId : String
  replacementDigest : String
  replacementOperation : MemoryOperation
  observedControl : MemoryControlState
  expectedSourceItems : List MemoryItem
  expectedReactivationItems : List MemoryItem
  writes : List CanonicalApplyWrite
  deletionGateToken : Option String := none
  receipt : Option ConversationSourceReplacementReceipt := none
  evidence : List EvidenceObject
  journaledOperations : List String := []
  deletedMemoryIds : List String := []
  opened : ℤ
  head : ℤ
  now : ℤ
  marked : ℤ

/-- `_item_has_conversation_source`. -/
def itemHasConversationSource (item : MemoryItem) (conversationId : String) : Bool :=
  item.evidence.any fun evidence =>
    evidence.sourceId = some conversationId || evidence.conversationId = some conversationId

/-- `source_generation:` and the generation. -/
def sourceVersionText (generation : ℤ) : String := "source_generation:" ++ toString generation

/-- The row that superseded a row, or the empty text. -/
def MemoryItem.canonicalTarget (item : MemoryItem) : String :=
  strip ((orText item.canonicalMemoryId item.supersededBy).getD "")

section
variable (env : MemoryEnv)

/-! ### Replays -/

/-- All the rows of some ids are there and meet a condition; the reading stops at the first one that
does not. -/
def allRowsMeet (items : Table MemoryItem) (condition : MemoryItem → Bool) :
    List String → Except String Bool
  | [] => pure true
  | memoryId :: memoryIds => do
    match ← readItem env items memoryId with
    | none => pure false
    | some item =>
      if condition item then allRowsMeet items condition memoryIds else pure false

/-- The receipt is of the current generations, and its rows are still there as it left them. -/
def receiptIsCurrent (store : MemoryStore) (call : ReplacementCall)
    (receipt : ConversationSourceReplacementReceipt) : Except String Bool := do
  let version := sourceVersionText receipt.controlState.sourceGeneration
  let committed ← allRowsMeet env store.items (fun item =>
    item.uid = call.uid && item.status = .active && item.sourceState = .active &&
      item.evidence.any fun evidence =>
        evidence.sourceState = .active && evidence.sourceVersion = some version &&
          (evidence.sourceId = some call.conversationId ||
            evidence.conversationId = some call.conversationId)) receipt.committedMemoryIds
  let reactivated ← allRowsMeet env store.items (fun item =>
    item.uid = call.uid && item.status = .active && item.sourceState = .active &&
      item.canonicalMemoryId = none && item.supersededBy = none) receipt.reactivatedMemoryIds
  pure (receipt.controlState.accountGeneration = store.control.accountGeneration &&
    receipt.controlState.sourceGeneration = store.control.sourceGeneration &&
    committed && reactivated)

/-- The receipt's own answer, where there is a current receipt of this replacement. -/
def replayedReplacement (store : MemoryStore) (call : ReplacementCall) :
    Except String (Option ConversationSourceReplacementResult) :=
  match call.receipt with
  | none => pure none
  | some receipt => do
    check (receipt.uid = call.uid && receipt.conversationId = call.conversationId &&
        receipt.replacementDigest = call.replacementDigest)
      "replacement receipt identity mismatch"
    if ← receiptIsCurrent env store call receipt then
      pure (some
        { controlState := store.control
          retractedMemoryIds := receipt.retractedMemoryIds
          committedMemoryIds := receipt.committedMemoryIds
          reactivatedMemoryIds := receipt.reactivatedMemoryIds
          tombstonedEvidenceIds := receipt.tombstonedEvidenceIds })
    else pure none

/-! ### The plan against the rows -/

/-- The writer a replacement needs to be: that of its writes, or else of the rows it retracts. -/
def ReplacementCall.writerClasses (call : ReplacementCall) : List MemoryWriterClass :=
  let writerClass (ledger : Bool) : MemoryWriterClass := if ledger then .ledger else .compatibility
  if call.writes.isEmpty then
    (call.expectedSourceItems.map fun item =>
      writerClass (item.ledgerSchemaVersion = knowledgeLedger)).dedup
  else (call.writes.map fun write => writerClass write.payload.patch.isLedger).dedup

/-- The replacement may write, and its operation is one of this control state and new. -/
def checkReplacement (control : MemoryControlState) (call : ReplacementCall) :
    Except String Unit := do
  let operation := call.replacementOperation
  check (controlFence control = controlFence call.observedControl)
    "memory control changed during conversation replacement"
  check (call.writerClasses.length ≤ 1) "conversation replacement mixes writer authorities"
  requireWriterAdmitted control (call.writerClasses.head?.getD .compatibility)
  check (operation.uid = call.uid && operation.operationType = .sourceReplacement &&
      operation.sourcePacketId = some call.conversationId &&
      operation.accountGeneration = control.accountGeneration &&
      operation.sourceGeneration = control.sourceGeneration + 1 &&
      operation.observedHeadCommitId = some control.headCommitId &&
      operation.logicalPayload.metadata.get "replacement_id" = .str call.replacementId &&
      operation.logicalPayload.metadata.get "replacement_digest" = .str call.replacementDigest)
    "source replacement operation mismatch"
  check (operation.operationId ∉ call.journaledOperations)
    "source replacement operation already exists"

/-- The stored evidence of a retracted row is from the conversation. -/
def sourceEvidence (call : ReplacementCall) (embedded : MemoryEvidence) :
    Except String MemoryEvidence :=
  match call.evidence.find? (·.record.evidenceId = embedded.evidenceId) with
  | none => throw ("source evidence disappeared: " ++ embedded.evidenceId)
  | some document => do
    check (document.record.sourceId = some call.conversationId ||
        document.record.conversationId = some call.conversationId)
      ("source evidence changed: " ++ embedded.evidenceId)
    pure document.record

/-- A row to retract, as planned, with its stored evidence. -/
def sourceRow (store : MemoryStore) (call : ReplacementCall) (memoryId : String) :
    Except String (MemoryItem × List MemoryEvidence) := do
  match ← readItem env store.items memoryId with
  | none => throw ("source memory disappeared: " ++ memoryId)
  | some item =>
    check (item.uid = call.uid && item.status ≠ .tombstoned && item.sourceState = .active &&
        (call.expectedSourceItems.find? (·.memoryId = memoryId)).any (fun expected =>
          item.status = expected.status && item.sourceState = expected.sourceState &&
          item.itemRevision = expected.itemRevision && item.contentHash = expected.contentHash) &&
        itemHasConversationSource item call.conversationId)
      ("source memory changed: " ++ memoryId)
    let evidence ← item.evidence.mapM (sourceEvidence call)
    pure (item, evidence)

/-- The rows whose predecessors come back. -/
def terminalSourceIds (rows : List MemoryItem) : List String :=
  (rows.filter fun item => item.status = .active && item.canonicalTarget = "").map (·.memoryId)

/-- The stored evidence of a superseded row is the embedded one, and active. -/
def lineageEvidence (call : ReplacementCall) (embedded : MemoryEvidence) : Except String Unit :=
  match call.evidence.find? (·.record.evidenceId = embedded.evidenceId) with
  | none => throw ("superseded lineage evidence disappeared: " ++ embedded.evidenceId)
  | some document =>
    check (document.record = embedded && document.record.sourceState = .active)
      ("superseded lineage evidence changed: " ++ embedded.evidenceId)

/-- A superseded row that may come back, as planned. -/
def lineageRow (store : MemoryStore) (call : ReplacementCall) (terminalIds : List String)
    (memoryId : String) : Except String MemoryItem := do
  match ← readItem env store.items memoryId with
  | none => throw ("superseded lineage item disappeared: " ++ memoryId)
  | some item =>
    check (item.uid = call.uid && item.status = .superseded && item.sourceState = .active &&
        (call.expectedReactivationItems.find? (·.memoryId = memoryId)).any (fun expected =>
          item.status = expected.status && item.sourceState = expected.sourceState &&
          item.itemRevision = expected.itemRevision && item.contentHash = expected.contentHash &&
          item.canonicalMemoryId = expected.canonicalMemoryId &&
          item.supersededBy = expected.supersededBy) &&
        item.canonicalTarget ∈ terminalIds &&
        !itemHasConversationSource item call.conversationId && !item.evidence.isEmpty)
      ("superseded lineage item changed: " ++ memoryId)
    item.evidence.forM (lineageEvidence call)
    pure item

/-! ### The writes against the rows -/

/-- The ids of the writes so far, the rows that they find under their ids beside the retracted ones,
and the ids of their evidence. -/
structure StagedWrites where
  memoryIds : List String := []
  priorItems : Table MemoryItem := []
  evidenceIds : List String := []

/-- New evidence is of the conversation's next generation, and has an id of its own. -/
def stageEvidence (call : ReplacementCall) (oldEvidenceIds : List String) (generation : ℤ)
    (staged : StagedWrites) (evidence : EvidenceObject) : Except String StagedWrites := do
  let record := evidence.record
  check (record.evidenceId ∉ staged.evidenceIds && record.evidenceId ∉ oldEvidenceIds &&
      record.sourceId = some call.conversationId &&
      record.conversationId = some call.conversationId &&
      record.sourceVersion = some (sourceVersionText generation) && record.sourceState = .active)
    "invalid conversation replacement evidence"
  check ((call.evidence.find? (·.record.evidenceId = record.evidenceId)).isNone)
    "replacement evidence already exists"
  pure { staged with evidenceIds := staged.evidenceIds ++ [record.evidenceId] }

/-- A row there already may be written anew if it is no longer active and was the conversation's. -/
def takePrior (store : MemoryStore) (call : ReplacementCall) (staged : StagedWrites)
    (memoryId : String) : Except String StagedWrites := do
  match ← readItem env store.items memoryId with
  | none => pure staged
  | some prior =>
    check (prior.uid = call.uid && itemHasConversationSource prior call.conversationId &&
        prior.status ≠ .active)
      ("replacement target belongs to unrelated state: " ++ memoryId)
    pure { staged with priorItems := staged.priorItems.set memoryId prior }

/-- Take in an id that is none of the retracted rows'. -/
def stagePrior (store : MemoryStore) (call : ReplacementCall) (staged : StagedWrites)
    (memoryId : String) : Except String StagedWrites := do
  let next ← takePrior env store call staged memoryId
  check (memoryId ∉ call.deletedMemoryIds) "replacement target is privacy-deleted"
  pure next

def stageMemoryId (store : MemoryStore) (call : ReplacementCall) (sourceIds : List String)
    (staged : StagedWrites) (memoryId : String) : Except String StagedWrites :=
  let added := { staged with memoryIds := staged.memoryIds ++ [memoryId] }
  if memoryId ∈ sourceIds then pure added else stagePrior env store call added memoryId

/-- Check one write against the rows, and take it in. -/
def stageWrite (store : MemoryStore) (call : ReplacementCall)
    (sourceIds oldEvidenceIds : List String) (staged : StagedWrites)
    (write : CanonicalApplyWrite) : Except String StagedWrites := do
  let generation := store.control.sourceGeneration + 1
  let operation := write.operation
  check (operation.uid = call.uid &&
      operation.accountGeneration = store.control.accountGeneration &&
      operation.sourceGeneration = generation &&
      operation.sourcePacketId = some call.conversationId)
    "replacement operation generation/source mismatch"
  check (operation.operationId ∉ call.journaledOperations) "replacement operation already exists"
  let rawMemoryId := write.payload.patch.newMemoryId.getD ""
  check (!isBlank rawMemoryId) "conversation replacement writes require new_memory_id"
  let memoryId := strip rawMemoryId
  check (memoryId ∉ staged.memoryIds) "conversation replacement contains duplicate memory ids"
  let staged ← stageMemoryId env store call sourceIds staged memoryId
  check (!write.payload.evidence.isEmpty) "conversation replacement writes require evidence"
  write.payload.evidence.foldlM (stageEvidence call oldEvidenceIds generation) staged

/-- The ids that the operation announces, if they are a list of texts. -/
def announcedMemoryIds (operation : MemoryOperation) : Option (List String) :=
  let announced := operation.logicalPayload.metadata.get "new_memory_ids"
  if announced.truthy then announced.strs? else some []

/-- What a replacement found: the rows it retracts with their stored evidence, the superseded rows
of their lineages, and the writes. -/
structure ReplacementPlan where
  sources : List (MemoryItem × List MemoryEvidence)
  lineage : List MemoryItem
  staged : StagedWrites

def ReplacementPlan.sourceIds (plan : ReplacementPlan) : List String :=
  plan.sources.map (·.1.memoryId)

def ReplacementPlan.oldEvidenceIds (plan : ReplacementPlan) : List String :=
  plan.sources.flatMap fun source => evidenceIdsOf source.2

/-- Read all that the replacement rests on. -/
def planReplacement (store : MemoryStore) (call : ReplacementCall) :
    Except String ReplacementPlan := do
  let sourceIds := call.expectedSourceItems.map (·.memoryId)
  let lineageIds := call.expectedReactivationItems.map (·.memoryId)
  check sourceIds.Nodup "duplicate expected source memory id"
  let sources ← (sortedIds sourceIds).mapM (sourceRow env store call)
  check lineageIds.Nodup "duplicate expected lineage reactivation id"
  check (lineageIds.all (· ∉ sourceIds)) "source item cannot also be a lineage reactivation"
  let terminalIds := terminalSourceIds (sources.map Prod.fst)
  let lineage ← (sortedIds lineageIds).mapM (lineageRow env store call terminalIds)
  let oldEvidenceIds := sources.flatMap fun source => evidenceIdsOf source.2
  let staged ← call.writes.foldlM (stageWrite env store call sourceIds oldEvidenceIds) {}
  check ((announcedMemoryIds call.replacementOperation).any fun announced =>
      announced.insertionSort (· ≤ ·) = staged.memoryIds.insertionSort (· ≤ ·))
    "source replacement manifest does not match writes"
  pure { sources := sources, lineage := lineage, staged := staged }

/-! ### The commits -/

/-- The control state under the next source generation. -/
def bumpedControl (control : MemoryControlState) (now : ℤ) : MemoryControlState :=
  { control with
    sourceGeneration := control.sourceGeneration + 1
    updatedAt := now }

/-- The commit of the replacement; with no writes no content of the rows goes into its id. -/
def replacementPoint (control : MemoryControlState) (call : ReplacementCall) : CommitPoint where
  commitId :=
    if call.writes.isEmpty then
      "commit_" ++ firstChars 32 (env.contractId "memory-privacy-epoch"
        [("uid", .str call.uid), ("deletion_gate_token", optionalText call.deletionGateToken),
          ("commit_sequence", .int (control.commitSequence + 1))])
    else (bumpedControl control call.opened).nextCommitId env.toContractHash
      call.replacementOperation.operationId
  sequence := control.commitSequence + 1

def replacementControl (control : MemoryControlState) (call : ReplacementCall) :
    MemoryControlState :=
  let advanced := (bumpedControl control call.opened).advanceHead
    (replacementPoint env control call).commitId call.head
  if call.writes.isEmpty then
    { advanced with
      projectionWatermarkCommitId := none
      vectorWatermarkCommitId := none }
  else advanced

/-- `_refresh_replacement_result`: a row that takes the place of another goes on from its
revision, with a tombstone between them where that one is retracted. -/
def refreshReplacementResult (result : ApplyResult) (prior : Option MemoryItem)
    (priorWasActiveSource : Bool) : ApplyResult :=
  match prior, result.memoryItems with
  | some prior, [created] =>
    let increment : ℤ := if priorWasActiveSource then 2 else 1
    let refreshed :=
      { created with
        version := prior.version + increment
        itemRevision := prior.itemRevision + increment
        updatedAt := max created.updatedAt prior.updatedAt }
    { result with
      memoryItems := [refreshed]
      outboxEvents := result.outboxEvents.map fun event =>
        { event with
          payload := (event.payload.set "item_revision" (.int refreshed.itemRevision)).set
            "content_hash" (optionalText refreshed.contentHash) } }
  | _, _ => result

/-- The row that a write takes the place of, and whether it is a retracted one. -/
def ReplacementPlan.prior (plan : ReplacementPlan) (memoryId : String) :
    Option MemoryItem × Bool :=
  match plan.sources.find? (·.1.memoryId = memoryId) with
  | some source => (some source.1, true)
  | none => (plan.staged.priorItems.get memoryId, false)

/-- The text of a failed apply. -/
def ApplyStatus.text : ApplyStatus → String
  | .committed => "committed"
  | .idempotentSkip => "idempotent_skip"
  | .retryableHeadMismatch => "retryable_head_mismatch"
  | .payloadMismatch => "payload_mismatch"
  | .generationMismatch => "generation_mismatch"
  | .sourceNotActive => "source_not_active"
  | .targetNotActive => "target_not_active"
  | .invalidPatch => "invalid_patch"

/-- Apply the writes one after another, each from the control state that the one before left. -/
def applyWrites (plan : ReplacementPlan) (control : MemoryControlState) :
    List (CanonicalApplyWrite × String) → Except String (List ApplyResult)
  | [] => pure []
  | (write, memoryId) :: writes => do
    let result ← applyLongTermPatchTransaction env control write.operation write.payload
      write.clock
    check (result.status = .committed)
      ("replacement apply failed: " ++ result.status.text ++ " (" ++ result.reason.getD "None" ++
        ")")
    let prior := plan.prior memoryId
    let rest ← applyWrites plan result.controlState writes
    pure (refreshReplacementResult result prior.1 prior.2 :: rest)

/-- The scrubbed evidence of a retracted row: it keeps the identity of its source unless nothing
takes the row's place. -/
def retractedEvidence (scrubSourceIdentity : Bool) (evidence : MemoryEvidence) : MemoryEvidence :=
  let scrubbed := privacyTombstonedEvidence evidence
  if scrubSourceIdentity then scrubbed
  else
    { scrubbed with
      sourceId := evidence.sourceId
      sourceVersion := evidence.sourceVersion
      conversationId := evidence.conversationId
      lineageId := evidence.lineageId }

def retractedItem (call : ReplacementCall) (point : CommitPoint) (accountGeneration : ℤ)
    (source : MemoryItem × List MemoryEvidence) : MemoryItem :=
  privacyTombstonedMemoryItem source.1
    (source.2.map (retractedEvidence call.writes.isEmpty)) call.now point accountGeneration

/-- `_reactivate_replacement_lineage_item`. -/
def reactivateLineageItem (point : CommitPoint) (accountGeneration now : ℤ) (item : MemoryItem) :
    Except String (MemoryItem × MemoryGraphAssertion) :=
  match (item.promotionRecord.get "graph_plan").dict? with
  | none => throw ("superseded lineage item has no restorable graph plan: " ++ item.memoryId)
  | some raw =>
    match PromotionGraphPlan.parse env raw with
    | none => throw ("superseded lineage item has an invalid graph plan: " ++ item.memoryId)
    | some plan => do
      check (present item.contentHash)
        ("superseded lineage item has no restorable content hash: " ++ item.memoryId)
      match buildMemoryGraphAssertion env item.uid item.memoryId (item.itemRevision + 1)
          (item.contentHash.getD "") (evidenceIdsOf item.evidence) plan point.commitId
          point.sequence now with
      | none => throw "ValidationError"
      | some assertion =>
        let reactivated ← MemoryItem.construct env
          { item with
            canonicalMemoryId := none
            status := .active
            supersededBy := none
            updatedAt := max now item.updatedAt
            ledgerCommitId := some point.commitId
            ledgerSequence := some point.sequence
            version := item.version + 1
            itemRevision := item.itemRevision + 1
            accountGeneration := accountGeneration
            subjectEntityId := some plan.subjectEntityId
            predicate := some plan.predicate
            arguments := plan.arguments
            graphReady := true
            graphAssertionId := some assertion.assertionId
            graphPlanHash := some plan.planHash
            kgExtracted := true }
        pure (reactivated, assertion)

/-- The action of a reactivated row's events; its layer does not count here. -/
def reactivationAction (item : MemoryItem) : String :=
  if item.status = .active && item.processingState = .processed &&
      item.promotionRecord.get "user_review" ≠ .bool false && !item.restricted then "upsert"
  else "delete"

/-- One event of the replacement: the barrier, or with a row that row's. -/
def replacementEvent (parent control : MemoryControlState) (call : ReplacementCall)
    (eventType : MemoryOutboxEventType) (item : Option (MemoryItem × String × String)) :
    MemoryOutboxEvent where
  eventId := outboxEventId env eventType control.headCommitId (item.map (·.1.memoryId))
    call.replacementOperation.operationId
  uid := call.uid
  eventType := eventType
  commitId := control.headCommitId
  parentCommitId := parent.headCommitId
  commitSequence := control.commitSequence
  memoryId := item.map (·.1.memoryId)
  operationId := call.replacementOperation.operationId
  accountGeneration := control.accountGeneration
  sourceGeneration := control.sourceGeneration
  payload := match item with
    | none => [("action", .str "barrier")]
    | some (item, action, reason) =>
      [("memory_id", .str item.memoryId), ("tier", .str item.tier.text), ("action", .str action),
        ("item_revision", .int item.itemRevision),
        ("content_hash", optionalText item.contentHash), ("reason", .str reason)]
  availableAt := call.now

/-- The events of the replacement: the barriers, then those of the rows it retracts and of the rows
it brings back. -/
def replacementEvents (parent control : MemoryControlState) (call : ReplacementCall)
    (retracted reactivated : List MemoryItem) : List MemoryOutboxEvent :=
  let changes := none ::
    (retracted.map fun item => some (item, "delete", "conversation_reprocess_retract")) ++
    (reactivated.map fun item =>
      some (item, reactivationAction item, "independent_lineage_source_survived"))
  changes.flatMap fun item =>
    [MemoryOutboxEventType.projectionSync, .vectorSync].map fun eventType =>
      replacementEvent env parent control call eventType item

/-- The writes that one result counts for. -/
def resultMutations (result : ApplyResult) : ℕ :=
  4 + 2 * result.memoryItems.length + result.outboxEvents.length +
    result.memoryItems.countP fun item =>
      item.status = .active && item.promotionRecord.get "route" = .str "review"

/-- `_replacement_mutation_count`, with the receipt of the replacement and the privacy receipts. -/
def replacementMutations (call : ReplacementCall) (plan : ReplacementPlan)
    (results : List ApplyResult) : ℕ :=
  let tombstoned := plan.sourceIds.length
  let overlapping := (plan.sourceIds.filter (· ∈ plan.staged.memoryIds)).length
  let newEvidence := (call.writes.map (·.payload.evidence.length)).sum
  plan.oldEvidenceIds.dedup.length + 2 * (tombstoned - overlapping) + newEvidence +
    (results.map resultMutations).sum + 1 + (if call.writes.isEmpty then tombstoned else 0)

/-- All that a replacement writes: the rows it retracts, and its commits in their order. -/
structure ReplacementCommits where
  retracted : List MemoryItem
  results : List ApplyResult

def replacementCommits (store : MemoryStore) (call : ReplacementCall) (plan : ReplacementPlan) :
    Except String ReplacementCommits := do
  let point := replacementPoint env store.control call
  let control := replacementControl env store.control call
  let results ← applyWrites env plan control (call.writes.zip plan.staged.memoryIds)
  let retracted := plan.sources.map (retractedItem call point control.accountGeneration)
  let reactivated ← (plan.lineage.filter (·.canonicalTarget ∉ plan.staged.memoryIds)).mapM
    (reactivateLineageItem env point control.accountGeneration call.now)
  let events := replacementEvents env store.control control call retracted
    (reactivated.map Prod.fst)
  let committed ← call.replacementOperation.markCommitted env.toContractHash point.commitId
    point.sequence (sortedIds (retracted.map (·.memoryId) ++ plan.staged.memoryIds ++
      reactivated.map (·.1.memoryId))) (events.map (·.eventId)) call.marked
  let replacement : ApplyResult :=
    { status := .committed
      controlState := control
      operation := committed
      memoryItems := reactivated.map Prod.fst
      graphAssertions := reactivated.map Prod.snd
      outboxEvents := events }
  check (replacementMutations call plan (replacement :: results) ≤ 500)
    "conversation source replacement exceeds Firestore's 500-mutation transaction limit"
  pure { retracted := retracted, results := replacement :: results }

/-- Write a retracted row over the one it was, and delete its assertion. -/
def MemoryStore.retract (store : MemoryStore) (item : MemoryItem) : MemoryStore :=
  { store with
    items := store.items.set item.memoryId item
    assertions := store.assertions.erase item.memoryId }

/-- The writes of a replacement; a retracted row that a write takes the place of is not written. -/
def MemoryStore.writeReplacement (store : MemoryStore) (newIds : List String)
    (commits : ReplacementCommits) : MemoryStore :=
  commits.results.foldl MemoryStore.writeApplyResult
    ((commits.retracted.filter (·.memoryId ∉ newIds)).foldl MemoryStore.retract store)

/-- `_replace_conversation_source_firestore_transaction`, with the commits it makes. -/
def replaceConversationSource (store : MemoryStore) (call : ReplacementCall) :
    Except String (MemoryStore × ConversationSourceReplacementResult × List ApplyResult) := do
  check (!call.writes.isEmpty || call.deletionGateToken.isSome)
    "empty replacement requires privacy gate authority"
  match ← replayedReplacement env store call with
  | some replay => pure (store, replay, [])
  | none =>
    checkReplacement store.control call
    let plan ← planReplacement env store call
    let commits ← replacementCommits env store call plan
    let next := store.writeReplacement plan.staged.memoryIds commits
    let reactivated := (commits.results.head?.map (·.memoryItems)).getD []
    pure (next,
      { controlState := next.control
        retractedMemoryIds := sortedIds plan.sourceIds
        committedMemoryIds := plan.staged.memoryIds
        reactivatedMemoryIds := sortedIds (reactivated.map (·.memoryId))
        tombstonedEvidenceIds := sortedIds plan.oldEvidenceIds }, commits.results)

/-- `_atomic_bump_source_generation_transaction`. -/
def bumpSourceGeneration (store : MemoryStore) (now : ℤ) : Except String MemoryStore := do
  requireWriterAdmitted store.control .compatibility
  pure { store with control := bumpedControl store.control now }

end

end Omi.Memory
