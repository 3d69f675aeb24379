import Omi.Foundation.Checks
import Omi.Memory.Operation
import Omi.Memory.Patch
import Omi.Memory.Promotion

/-! `apply_long_term_patch_transaction` of `models/memory_apply.py`: one patch applied to the
control state and the rows it names, or refused. A refusal leaves the control state as it was;
an exception leaves no result at all. -/
namespace Omi.Memory
open Omi.Foundation

inductive ApplyStatus where
  | committed
  | idempotentSkip
  | retryableHeadMismatch
  | generationMismatch
  | sourceNotActive
  | targetNotActive
  | payloadMismatch
  | invalidPatch
  deriving DecidableEq, Repr

inductive MemoryOutboxEventType where
  | projectionSync
  | vectorSync
  | exportSync
  | deleteSync
  deriving DecidableEq, Repr

def MemoryOutboxEventType.text : MemoryOutboxEventType → String
  | .projectionSync => "projection_sync"
  | .vectorSync => "vector_sync"
  | .exportSync => "export_sync"
  | .deleteSync => "delete_sync"

inductive MemoryOutboxStatus where
  | pending
  | processing
  | delivered
  | retryableFailure
  | deadLetter
  deriving DecidableEq, Repr

structure MemoryOutboxEvent where
  eventId : String
  uid : String
  eventType : MemoryOutboxEventType
  status : MemoryOutboxStatus := .pending
  commitId : String
  parentCommitId : String
  commitSequence : ℤ
  memoryId : Option String
  operationId : String
  accountGeneration : ℤ
  sourceGeneration : ℤ
  payload : PyDict
  availableAt : ℤ
  attemptCount : ℤ := 0
  deriving DecidableEq, Repr

structure ApplyResult where
  status : ApplyStatus
  controlState : MemoryControlState
  operation : MemoryOperation
  memoryItems : List MemoryItem := []
  graphAssertions : List MemoryGraphAssertion := []
  outboxEvents : List MemoryOutboxEvent := []
  reason : Option String := none
  deriving DecidableEq, Repr

/-- The readings of `datetime.now` an apply takes, by the place it takes them for. -/
structure ApplyClock where
  head : ℤ
  item : ℤ
  superseded : String → ℤ
  event : String → ℤ
  operation : ℤ

/-- A result other than a commit. -/
structure Refusal where
  status : ApplyStatus
  operation : MemoryOperation
  reason : Option String
  not_committed : status ≠ .committed

/-- Why an apply stops before its commit. -/
inductive Halt where
  | raised (message : String)
  | refused (refusal : Refusal)

abbrev ApplyM := Except Halt

def refuse (operation : MemoryOperation) (status : ApplyStatus) (reason : String)
    (not_committed : status ≠ .committed := by decide) : Halt :=
  .refused ⟨status, operation, some reason, not_committed⟩

/-- A result of the models' own constructors, whose exceptions the apply lets through. -/
def liftModel {α : Type} : Except String α → ApplyM α
  | .ok a => .ok a
  | .error message => .error (.raised message)

/-- `a or b` on optional texts. -/
def orText (a b : Option String) : Option String := if present a then a else b

/-- `a or b` on dictionaries. -/
def orFields (a b : PyDict) : PyDict := if a.isEmpty then b else a

def evidenceIdsOf (evidence : List MemoryEvidence) : List String := evidence.map (·.evidenceId)

/-- `evidence or existing.evidence`. -/
def evidenceOr (evidence : List MemoryEvidence) (existing : MemoryItem) : List MemoryEvidence :=
  if evidence.isEmpty then existing.evidence else evidence

/-- The commit one apply writes under. -/
structure CommitPoint where
  commitId : String
  sequence : ℤ

/-- `_GRAPH_PREDICATE_RE.fullmatch`: words of lowercase letters and digits joined by
underscores, the first of them starting with a letter. -/
def graphPredicate (predicate : String) : Bool :=
  let lowercase (c : Char) : Bool := 'a' ≤ c && c ≤ 'z'
  let word (text : List Char) : Bool :=
    !text.isEmpty && text.all fun c => lowercase c || ('0' ≤ c && c ≤ '9')
  (predicate.toList.splitOn '_').all word && predicate.toList.head?.any lowercase

/-- `_processing_state_for_promotion`. -/
def processingStateForPromotion (promotion : Option PyDict) (fallback : ProcessingState) :
    ProcessingState :=
  match (promotion.getD []).get "processing_status" with
  | .str "pending_processing" | .str "processing_failed_retryable" | .str "pending_admission" =>
    .pending
  | .str "processing_blocked" => .blocked
  | .str "processed" => .processed
  | _ => fallback

/-- `assert_legal_state`. -/
def assertLegalState (tier : MemoryLayer) (status : MemoryItemStatus)
    (processingState : ProcessingState) : ApplyM Unit :=
  check (isLegalStateCombination tier status processingState)
    (.raised ("illegal memory state combination: layer=" ++ tier.text ++ ", status=" ++
      (if status = .hidden then MemoryItemStatus.tombstoned.text else status.text) ++
      ", processing_state=" ++ processingState.text))

/-- `_resolved_update_content`. -/
def resolvedUpdateContent (existing : MemoryItem) (patch : DurableMemoryPatch) : Option String :=
  if saysNothing patch.memoryText then existing.content else patch.memoryText

section Apply
variable (env : MemoryEnv)

/-- `memory_content_hash`. -/
def memoryContentHash (content : Option String) (evidenceIds : List String) : String :=
  env.contractId "memory-content"
    [("content", optionalText content), ("evidence_ids", strings evidenceIds)]

/-- `_event_id`. -/
def outboxEventId (eventType : MemoryOutboxEventType) (commitId : String)
    (memoryId : Option String) (operationId : String) : String :=
  "evt_" ++ firstChars 32 (env.contractId "memory-outbox"
    [("event_type", .str eventType.text), ("commit_id", .str commitId),
      ("memory_id", optionalText memoryId), ("operation_id", .str operationId)])

/-- `_deterministic_materialized_memory_id`. -/
def materializedMemoryId (uid : String) (patch : DurableMemoryPatch) (commitId : String) :
    String :=
  if present patch.targetMemoryId then patch.targetMemoryId.getD ""
  else if present patch.newMemoryId then patch.newMemoryId.getD ""
  else "mem_" ++ firstChars 32 (env.contractId "memory-materialized-item"
    [("uid", .str uid), ("commit_id", .str commitId), ("patch_id", .str patch.patchId),
      ("idempotency_key", .str patch.idempotencyKey)])

/-- The evidence of the payload, or records made up from the patch's evidence ids. -/
def proposedEvidence (payload : PatchPayload) : ApplyM (List MemoryEvidence) :=
  if payload.evidence.isEmpty then
    payload.patch.evidenceIds.mapM fun evidenceId =>
      let record : MemoryEvidence :=
        { evidenceId := evidenceId
          sourceType := "unknown"
          sourceId := some ("source_for_" ++ evidenceId)
          sourceVersion := some "unknown"
          artifactPreservation := .preserved }
      if record.valid then .ok record else .error (.raised "ValidationError")
  else .ok (payload.evidence.map (·.record))

/-- The logical payload `_operation_digest_for_patch` digests: a field the operation leaves out
stays out. -/
def patchLogicalPayload (operation : MemoryOperation) (payload : PatchPayload) :
    OperationLogicalPayload :=
  let named {α β : Type} (claimed : Option α) (value : Option β) : Option β :=
    claimed.bind fun _ => value
  { decision := payload.patch.decision.text
    memoryText := payload.patch.memoryText
    targetMemoryId := payload.patch.targetMemoryId
    resultStatus := some payload.patch.resultStatus.text
    supersedes := payload.patch.supersedes
    subjectEntityId := named operation.logicalPayload.subjectEntityId payload.patch.subjectEntityId
    predicate := named operation.logicalPayload.predicate payload.patch.predicate
    arguments := payload.patch.arguments
    targetTier := named operation.logicalPayload.targetTier
      (payload.patch.targetTier.map MemoryLayer.text)
    targetVisibility := named operation.logicalPayload.targetVisibility
      payload.patch.targetVisibility
    targetUserAsserted := named operation.logicalPayload.targetUserAsserted
      payload.patch.targetUserAsserted
    clearGraphAssertion := named operation.logicalPayload.clearGraphAssertion
      (some payload.patch.clearGraphAssertion)
    mutationMetadata := named operation.logicalPayload.mutationMetadata
      (some (buildPatchMutationIdentity env payload)) }

/-- The patch is valid and is the one the operation was made for. -/
def checkPatch (operation : MemoryOperation) (payload : PatchPayload) : ApplyM Unit := do
  check (payload.patch.valid env) (refuse operation .invalidPatch "ValidationError")
  check (payload.patch.evidenceIds = operation.evidenceIds)
    (refuse operation .payloadMismatch "patch evidence_ids do not match operation evidence_ids")
  check (!payload.patch.isLedger || operation.operationType = .ledgerMutation)
    (refuse operation .invalidPatch "knowledge ledger writes require ledger_mutation authority")
  check (digestLogicalPayload env.toContractHash (patchLogicalPayload env operation payload) =
      operation.logicalPayloadDigest)
    (refuse operation .payloadMismatch
      "patch digest does not match operation logical payload digest")

/-- The operation is of the control state's generations; a stale one is marked so. -/
def checkGenerations (control : MemoryControlState) (operation : MemoryOperation)
    (clock : ApplyClock) : ApplyM Unit :=
  if operation.accountGeneration ≠ control.accountGeneration ∨
      operation.sourceGeneration ≠ control.sourceGeneration then do
    let stale ← liftModel (operation.stale env.toContractHash clock.operation)
    throw (refuse stale .generationMismatch "operation generation does not match control state")
  else .ok ()

/-- The operation is open, of the current generations and head, and rests on active sources. -/
def checkOperation (control : MemoryControlState) (operation : MemoryOperation)
    (payload : PatchPayload) (evidence : List MemoryEvidence) (clock : ApplyClock) :
    ApplyM Unit := do
  check (operation.status ≠ .committed)
    (.refused ⟨.idempotentSkip, operation, none, by decide⟩)
  checkGenerations env control operation clock
  check (!present operation.observedHeadCommitId ||
      operation.observedHeadCommitId = some control.headCommitId)
    (refuse
      { operation with
        observedHeadCommitId := some control.headCommitId
        attemptCount := operation.attemptCount + 1
        updatedAt := clock.operation }
      .retryableHeadMismatch "observed head does not match current head")
  check (operation.operationType ≠ .graphEnrichment || payload.patch.decision = .update)
    (refuse operation .invalidPatch "graph enrichment requires an update decision")
  check (evidence.all (·.sourceState = .active))
    (refuse operation .sourceNotActive
      "cannot apply memory patch from deleted/purged source evidence")

/-- The fields `_materialize_memory_item` builds a row from. -/
def materializedRow (control : MemoryControlState) (operation : MemoryOperation)
    (payload : PatchPayload) (evidence : List MemoryEvidence) (point : CommitPoint) (now : ℤ) :
    MemoryItem :=
  let patch := payload.patch
  { memoryId := materializedMemoryId env operation.uid patch point.commitId
    uid := operation.uid
    version := 1
    tier := patch.initialTier
    status := .active
    processingState := processingStateForPromotion payload.promotion .processed
    content := patch.memoryText
    evidence := evidence
    sourceState := .active
    sensitivityLabels := []
    visibility := if patch.visibility = "" then "private" else patch.visibility
    userAsserted := patch.userAsserted
    capturedAt := now
    updatedAt := now
    expiresAt :=
      if patch.initialTier = .shortTerm then some (defaultShortTermExpiry now) else none
    ledgerCommitId := some point.commitId
    ledgerSequence := some point.sequence
    itemRevision := 1
    sourceCommitId := some point.commitId
    sourceCommitSequence := some point.sequence
    contentHash := some (memoryContentHash env patch.memoryText patch.evidenceIds)
    accountGeneration := control.accountGeneration
    promotion := payload.promotion
    subjectEntityId := patch.subjectEntityId
    predicate := patch.predicate
    arguments := patch.arguments
    ledgerSchemaVersion := patch.ledger.ledgerSchemaVersion
    kind := patch.ledger.kind
    subjectScope := patch.ledger.subjectScope
    slot := patch.ledger.slot
    body := patch.ledger.body
    validFrom := some (patch.ledger.validFrom.getD now)
    validTo := patch.ledger.validTo
    curationWeight := patch.ledger.curationWeight
    triggerCondition := patch.ledger.triggerCondition
    intentBacked := patch.ledger.intentBacked
    writeReason := patch.ledger.writeReason }

/-- `_materialize_memory_item`, with the extras of the payload over it. -/
def materializeMemoryItem (control : MemoryControlState) (operation : MemoryOperation)
    (payload : PatchPayload) (evidence : List MemoryEvidence) (point : CommitPoint) (now : ℤ) :
    ApplyM MemoryItem := do
  let extras := payload.extras.coerced env
  let row := materializedRow env control operation payload evidence point now
  assertLegalState row.tier row.status row.processingState
  let item ← liftModel (row.construct env)
  if extras = {} then pure item else liftModel ((item.copyWith extras).construct env)

/-- The graph plan an enrichment brings. -/
def enrichmentPlan (payload : PatchPayload) : Option PromotionGraphPlan :=
  ((payload.promotionAudit.getD []).get "graph_plan").dict?.bind (PromotionGraphPlan.parse env)

/-- `_valid_graph_enrichment_receipt`. -/
def validGraphEnrichmentReceipt (control : MemoryControlState) (operation : MemoryOperation)
    (existing : MemoryItem) (plan : PromotionGraphPlan) (receipt : PyDict) : Bool :=
  let parsed := do
    let evidenceIds ← (receipt.get "evidence_ids").strs?
    let receiptId ← (receipt.get "receipt_id").str?
    let uid ← (receipt.get "uid").str?
    let memoryId ← (receipt.get "memory_id").str?
    let contentHash ← (receipt.get "content_hash").str?
    let planHash ← (receipt.get "plan_hash").str?
    let itemRevision ← (receipt.get "item_revision").int?
    let accountGeneration ← (receipt.get "account_generation").int?
    let sourceGeneration ← (receipt.get "source_generation").int?
    let ids := (evidenceIds.map strip).insertionSort (· ≤ ·)
    guard (receipt.get "schema_version" =
      PyVal.str "canonical_memory_graph_enrichment_receipt.v1")
    guard (!evidenceIds.isEmpty && evidenceIds.all (!isBlank ·) && ids.Nodup)
    guard ([receiptId, uid, memoryId, contentHash, planHash].all (!isBlank ·))
    guard ([itemRevision, accountGeneration, sourceGeneration].all (0 ≤ ·))
    guard (receiptId = "ger_" ++
      firstChars 32 (env.contractId "canonical-memory-graph-enrichment-receipt"
        [("schema_version", .str "canonical_memory_graph_enrichment_receipt.v1"),
          ("uid", .str uid), ("memory_id", .str memoryId),
          ("item_revision", .int itemRevision), ("content_hash", .str contentHash),
          ("evidence_ids", strings ids), ("account_generation", .int accountGeneration),
          ("source_generation", .int sourceGeneration), ("plan_hash", .str planHash)]))
    guard (uid = operation.uid && memoryId = existing.memoryId &&
      itemRevision = existing.itemRevision && some contentHash = existing.contentHash &&
      ids = (evidenceIdsOf existing.evidence).insertionSort (· ≤ ·) &&
      accountGeneration = control.accountGeneration &&
      sourceGeneration = control.sourceGeneration && planHash = plan.planHash)
  parsed.isSome

/-- An enrichment may attach one validated plan to an active long-term row, and change nothing
else of it. -/
def graphEnrichmentAllowed (control : MemoryControlState) (operation : MemoryOperation)
    (payload : PatchPayload) (existing : MemoryItem) (evidence : List MemoryEvidence) : Bool :=
  let patch := payload.patch
  let replan := existing.graphReady &&
    (existing.promotionRecord.get "graph_enrichment").truthy
  existing.status = .active && existing.tier = .longTerm &&
  existing.processingState = .processed && (!existing.graphReady || replan) &&
  (enrichmentPlan env payload).any fun plan =>
    ((payload.promotionAudit.getD []).get "graph_enrichment_receipt").dict?.any
      (validGraphEnrichmentReceipt env control operation existing plan) &&
    (!(existing.promotionRecord.get "required").truthy ||
      validRequiredProcessingReceipt env (existing.content.getD "") existing.itemRevision
        existing.promotionRecord) &&
    !existing.restricted &&
    existing.promotionRecord.get "user_review" ≠ .bool false &&
    patch.targetTier = none && patch.memoryText = none && patch.targetVisibility = none &&
    patch.targetUserAsserted = none && !patch.clearGraphAssertion &&
    payload.extras.coerced env = {} && payload.promotion = none &&
    patch.resultStatus = .active && patch.supersedes.isEmpty &&
    patch.subjectEntityId = some plan.subjectEntityId &&
    (replan || !present existing.subjectEntityId ||
      existing.subjectEntityId = some plan.subjectEntityId) &&
    patch.predicate = some plan.predicate &&
    (replan || !present existing.predicate || existing.predicate = some plan.predicate) &&
    graphPredicate plan.predicate &&
    (PyVal.dict patch.arguments).deepEq (.dict plan.arguments) &&
    (replan || existing.arguments.isEmpty ||
      (PyVal.dict plan.arguments).deepEq (.dict existing.arguments)) &&
    (evidenceIdsOf evidence).insertionSort (· ≤ ·) =
      (evidenceIdsOf existing.evidence).insertionSort (· ≤ ·)

/-- The patch would change what a row says. -/
def semanticChange (existing : MemoryItem) (patch : DurableMemoryPatch)
    (evidence : List MemoryEvidence) : Bool :=
  resolvedUpdateContent existing patch ≠ existing.content ||
  evidenceIdsOf (evidenceOr evidence existing) ≠ evidenceIdsOf existing.evidence ||
  orText patch.subjectEntityId existing.subjectEntityId ≠ existing.subjectEntityId ||
  orText patch.predicate existing.predicate ≠ existing.predicate ||
  !(PyVal.dict (orFields patch.arguments existing.arguments)).deepEq (.dict existing.arguments)

/-- A transition of a row to the long-term layer. -/
def transitionsToLongTerm (existing : MemoryItem) (patch : DurableMemoryPatch) : Bool :=
  existing.tier ≠ .longTerm && patch.targetTier = some .longTerm

/-- The proof a transition to the long-term layer has to bring. -/
def checkPromotion (operation : MemoryOperation) (payload : PatchPayload)
    (existing : MemoryItem) (evidence : List MemoryEvidence) : ApplyM Unit := do
  let patch := payload.patch
  let admission := payload.promotionAudit.getD []
  let content := (resolvedUpdateContent existing patch).getD ""
  let evidenceIds := evidenceIdsOf (evidenceOr evidence existing)
  check (!(admission.get "required").truthy ||
      validRequiredProcessingReceipt env content existing.itemRevision admission)
    (refuse operation .invalidPatch "required durable memory is missing processing receipt")
  check (validPromotionAdmission env
      { memoryId := existing.memoryId
        sourceItemRevision := existing.itemRevision
        outputContentHash := memoryContentHash env (some content) evidenceIds
        evidenceIds := evidenceIds
        subjectEntityId := orText patch.subjectEntityId existing.subjectEntityId
        predicate := orText patch.predicate existing.predicate
        arguments := orFields patch.arguments existing.arguments
        supersedes := patch.supersedes } admission &&
      operation.operationType = .synthesis)
    (refuse operation .invalidPatch
      "Short-term to Long-term transition requires a current promotion admission and graph plan")

/-- The same, for rows that change to the long-term layer. -/
def checkTransition (operation : MemoryOperation) (payload : PatchPayload)
    (existing : MemoryItem) (evidence : List MemoryEvidence) : ApplyM Unit :=
  if transitionsToLongTerm existing payload.patch then
    checkPromotion env operation payload existing evidence
  else .ok ()

/-- The row an update patch names, after every check on the pair. -/
def checkUpdate (control : MemoryControlState) (operation : MemoryOperation)
    (payload : PatchPayload) (evidence : List MemoryEvidence)
    (allowTriggerFeedbackArguments : Bool) : ApplyM MemoryItem := do
  let patch := payload.patch
  match payload.existingItem with
  | none =>
    throw (refuse operation .invalidPatch "update patch requires authoritative existing_item")
  | some existing =>
    check (present patch.targetMemoryId && patch.targetMemoryId = some existing.memoryId)
      (refuse operation .invalidPatch "update patch target_memory_id mismatch")
    check (payload.expectedItemRevision.all (· = existing.itemRevision))
      (refuse operation .invalidPatch "update patch expected_item_revision mismatch")
    check (payload.expectedContentHash.all fun expected => existing.contentHash = some expected)
      (refuse operation .invalidPatch "update patch expected_content_hash mismatch")
    check (operation.operationType ≠ .graphEnrichment ||
        graphEnrichmentAllowed env control operation payload existing evidence)
      (refuse operation .invalidPatch
        "graph enrichment must attach one validated plan without changing Long-term semantics")
    check (existing.tier ≠ .longTerm || existing.status ≠ .active ||
        !semanticChange existing patch evidence ||
        (patch.targetTier = some .shortTerm && patch.clearGraphAssertion) ||
        operation.operationType = .graphEnrichment || allowTriggerFeedbackArguments)
      (refuse operation .invalidPatch
        "Long-term semantics are immutable; promote a new Short-term item and supersede this one")
    checkTransition env operation payload existing evidence
    pure existing

/-- The layer, status and processing state an update leaves. -/
def updatedTier (existing : MemoryItem) (patch : DurableMemoryPatch) : MemoryLayer :=
  patch.targetTier.getD existing.tier

def updatedStatus (existing : MemoryItem) (patch : DurableMemoryPatch) : MemoryItemStatus :=
  match patch.resultStatus with
  | .hidden | .rejected => .hidden
  | .superseded => .superseded
  | .active => .active
  | .working | .contextOnly | .review => existing.status

def updatedProcessingState (existing : MemoryItem) (payload : PatchPayload) : ProcessingState :=
  if updatedTier existing payload.patch = .longTerm then .processed
  else processingStateForPromotion payload.promotionAudit existing.processingState

/-- The fields of its patch over a row, as `_apply_update_memory_item` collects them. -/
def updatedRow (existing : MemoryItem) (payload : PatchPayload)
    (evidence : List MemoryEvidence) (point : CommitPoint) (now : ℤ) : MemoryItem :=
  let patch := payload.patch
  let content := resolvedUpdateContent existing patch
  let ledger := patch.ledgerPatch.over existing.ledgerFields
  { existing with
    tier := updatedTier existing patch
    status := updatedStatus existing patch
    processingState := updatedProcessingState existing payload
    content := content
    normalizedContentKey := normalizedMemoryContentKey env content
    evidence := evidenceOr evidence existing
    updatedAt := max now (max existing.capturedAt existing.updatedAt)
    expiresAt :=
      if updatedTier existing patch = .shortTerm then
        some (existing.expiresAt.getD (defaultShortTermExpiry existing.capturedAt))
      else none
    ledgerCommitId := some point.commitId
    ledgerSequence := some point.sequence
    version := existing.version + 1
    itemRevision := existing.itemRevision + 1
    contentHash :=
      if saysNothing patch.memoryText then existing.contentHash
      else some (memoryContentHash env patch.memoryText
        (evidenceIdsOf (evidenceOr evidence existing)))
    promotion := payload.promotionAudit.orElse fun _ => existing.promotion
    oddPromotion := payload.oddAudit
    subjectEntityId := patch.subjectEntityId.orElse fun _ => existing.subjectEntityId
    predicate := patch.predicate.orElse fun _ => existing.predicate
    arguments := orFields patch.arguments existing.arguments
    visibility := patch.targetVisibility.getD existing.visibility
    userAsserted := patch.targetUserAsserted.getD existing.userAsserted
    ledgerSchemaVersion := ledger.ledgerSchemaVersion
    kind := ledger.kind
    subjectScope := ledger.subjectScope
    slot := ledger.slot
    body := ledger.body
    validFrom := ledger.validFrom
    validTo := ledger.validTo
    curationWeight := ledger.curationWeight
    triggerCondition := ledger.triggerCondition
    intentBacked := ledger.intentBacked
    writeReason := ledger.writeReason }

/-- What `clear_graph_assertion` leaves of a row. -/
def MemoryItem.withoutGraph (item : MemoryItem) : MemoryItem :=
  { item with
    subjectEntityId := none
    predicate := none
    arguments := []
    graphReady := false
    graphAssertionId := none
    graphPlanHash := none
    kgExtracted := false
    misfits := { item.misfits with kgExtracted := none } }

/-- The row `_apply_update_memory_item` copies the existing one into: the extras override the
patch, and clearing the graph fields comes last. -/
def updatedMemoryItem (existing : MemoryItem) (payload : PatchPayload)
    (evidence : List MemoryEvidence) (point : CommitPoint) (now : ℤ) : MemoryItem :=
  let copy := (updatedRow env existing payload evidence point now).copyWith
    (payload.extras.coerced env)
  if payload.patch.clearGraphAssertion then copy.withoutGraph else copy

/-- `_apply_update_memory_item`: no validator runs on the copy, only `assert_legal_state`. -/
def applyUpdateMemoryItem (existing : MemoryItem) (payload : PatchPayload)
    (evidence : List MemoryEvidence) (point : CommitPoint) (now : ℤ) : ApplyM MemoryItem := do
  -- the processing state is taken from the audit with `.get`
  check (payload.oddAudit.all (!·.truthy)) (.raised "AttributeError")
  assertLegalState (updatedTier existing payload.patch) (updatedStatus existing payload.patch)
    (updatedProcessingState existing payload)
  pure (updatedMemoryItem env existing payload evidence point now)

/-- The commit writes a new graph assertion for the row. -/
def refreshesGraphAssertion (patch : DurableMemoryPatch) (item : MemoryItem) : Bool :=
  item.tier = .longTerm && item.status = .active && item.graphReady &&
    !patch.clearGraphAssertion

/-- The row a patch adds or updates, and whether its graph assertion is written with it. -/
def changedItem (control : MemoryControlState) (operation : MemoryOperation)
    (payload : PatchPayload) (evidence : List MemoryEvidence) (point : CommitPoint) (now : ℤ)
    (allowTriggerFeedbackArguments : Bool) : ApplyM (MemoryItem × Bool) :=
  if payload.patch.decision = .update then do
    let existing ← checkUpdate env control operation payload evidence
      allowTriggerFeedbackArguments
    let item ← applyUpdateMemoryItem env existing payload evidence point now
    pure (item, transitionsToLongTerm existing payload.patch ||
      operation.operationType = .graphEnrichment || refreshesGraphAssertion payload.patch item)
  else do
    let item ← materializeMemoryItem env control operation payload evidence point now
    pure (item, refreshesGraphAssertion payload.patch item)

/-- The update date of a row, as the model of a graph assertion reads it. -/
def MemoryItem.assertedAt (item : MemoryItem) : Option ℤ :=
  match item.misfits.updatedAt with
  | none => some item.updatedAt
  | some raw => raw.read env.reading.moment

/-- The row with its graph assertion, built from the plan the row's promotion record keeps. -/
def attachGraphAssertion (operation : MemoryOperation) (point : CommitPoint)
    (item : MemoryItem) : ApplyM (MemoryItem × List MemoryGraphAssertion) :=
  match (item.promotionRecord.get "graph_plan").dict? with
  | none => .error (refuse operation .invalidPatch
      "active graph-backed Long-term update requires its stored graph plan")
  | some raw =>
    match PromotionGraphPlan.parse env raw with
    | none => .error (refuse operation .invalidPatch
        "active graph-backed Long-term update has an invalid stored graph plan")
    | some plan =>
      match (item.assertedAt env).bind (buildMemoryGraphAssertion env operation.uid item.memoryId
          item.itemRevision (item.contentHash.getD "") (evidenceIdsOf item.evidence) plan
          point.commitId point.sequence) with
      | none => .error (.raised "ValidationError")
      | some assertion => .ok
          ({ item with
              graphReady := true
              graphAssertionId := some assertion.assertionId
              graphPlanHash := some plan.planHash
              kgExtracted := true
              misfits := { item.misfits with kgExtracted := none } }, [assertion])

/-- The row with its graph assertion where one is due. -/
def refreshGraphAssertion (operation : MemoryOperation) (point : CommitPoint)
    (item : MemoryItem) (refresh : Bool) : ApplyM (MemoryItem × List MemoryGraphAssertion) :=
  if refresh then attachGraphAssertion env operation point item else .ok (item, [])

/-- The copy of a row that another one supersedes. -/
def supersededMemoryItem (payload : PatchPayload) (item existing : MemoryItem)
    (point : CommitPoint) (now : ℤ) : MemoryItem :=
  let supersededAt := max now existing.updatedAt
  let supersededAt :=
    if payload.patch.isLedger then
      max supersededAt (max (item.validFrom.getD item.capturedAt)
        (existing.validFrom.getD existing.capturedAt))
    else supersededAt
  { existing with
    canonicalMemoryId := some item.memoryId
    status := .superseded
    supersededBy := some item.memoryId
    updatedAt := supersededAt
    validTo := if payload.patch.isLedger then some supersededAt else existing.validTo
    ledgerCommitId := some point.commitId
    ledgerSequence := some point.sequence
    version := existing.version + 1
    itemRevision := existing.itemRevision + 1
    graphReady := false
    graphAssertionId := none
    graphPlanHash := none
    kgExtracted := false
    misfits :=
      { existing.misfits with supersededBy := none, updatedAt := none, kgExtracted := none } }

/-- Supersede the row with one id. -/
def supersedeItem (operation : MemoryOperation) (payload : PatchPayload) (item : MemoryItem)
    (rows : List MemoryItem) (point : CommitPoint) (clock : ApplyClock) (supersededId : String) :
    ApplyM MemoryItem :=
  -- a dictionary by id: the last row of an id counts
  match rows.reverse.find? (·.memoryId = supersededId) with
  | none => .error (.raised "KeyError")
  | some existing => do
    check (existing.status = .active)
      (refuse operation .targetNotActive ("superseded target is not active: " ++ supersededId))
    check (!payload.patch.isLedger || existing.ledgerSchemaVersion = knowledgeLedger)
      (refuse operation .invalidPatch
        "knowledge ledger amendment may supersede only ledger rows")
    check (!payload.patch.isLedger || (existing.kind = payload.patch.ledger.kind &&
        existing.subjectScope = payload.patch.ledger.subjectScope &&
        existing.subjectEntityId = payload.patch.subjectEntityId))
      (refuse operation .invalidPatch
        "knowledge ledger amendment must preserve kind and subject identity")
    -- the moments are compared
    check (!payload.patch.isLedger || item.validFrom.isSome || item.misfits.capturedAt = none)
      (.raised "TypeError")
    pure (supersededMemoryItem payload item existing point (clock.superseded supersededId))

/-- The rows a patch supersedes, in the order it names them. -/
def supersedeItems (operation : MemoryOperation) (payload : PatchPayload) (item : MemoryItem)
    (point : CommitPoint) (clock : ApplyClock) : ApplyM (List MemoryItem) :=
  if payload.patch.supersedes.isEmpty then .ok []
  else match payload.supersededItems with
    | none => .error (refuse operation .invalidPatch
        "superseding promotion requires authoritative superseded_items")
    | some rows => do
      check (rows.all (·.memoryId ∈ payload.patch.supersedes) &&
          payload.patch.supersedes.all (· ∈ rows.map (·.memoryId)))
        (refuse operation .invalidPatch "superseded_items do not match patch supersedes")
      payload.patch.supersedes.mapM (supersedeItem operation payload item rows point clock)

/-- A changed row is shown by the read projection and the vector index. -/
def projectionEligible (item : MemoryItem) : Bool :=
  item.status = .active && item.processingState = .processed &&
  (item.tier = .shortTerm || item.tier = .longTerm) &&
  item.promotionRecord.get "user_review" ≠ .bool false && !item.restricted

/-- The outbox event of one changed row, or with no row the barrier of a commit. -/
def outboxEvent (control : MemoryControlState) (operation : MemoryOperation)
    (point : CommitPoint) (clock : ApplyClock) (item : Option MemoryItem)
    (eventType : MemoryOutboxEventType) : MemoryOutboxEvent :=
  let memoryId := item.map (·.memoryId)
  let eventId := outboxEventId env eventType point.commitId memoryId operation.operationId
  { eventId := eventId
    uid := operation.uid
    eventType := eventType
    commitId := point.commitId
    parentCommitId := control.headCommitId
    commitSequence := point.sequence
    memoryId := memoryId
    operationId := operation.operationId
    accountGeneration := control.accountGeneration
    sourceGeneration := control.sourceGeneration
    payload := match item with
      | none => [("action", .str "barrier")]
      | some item =>
        [("memory_id", .str item.memoryId), ("tier", .str item.tier.text),
          ("action", .str (if projectionEligible item then "upsert" else "delete")),
          ("item_revision", .int item.itemRevision),
          ("content_hash", optionalText item.contentHash)]
    availableAt := clock.event eventId }

/-- The projection and the vector event of each change; no row at all is a barrier. -/
def outboxEvents (control : MemoryControlState) (operation : MemoryOperation)
    (point : CommitPoint) (clock : ApplyClock) (changes : List (Option MemoryItem)) :
    List MemoryOutboxEvent :=
  changes.flatMap fun item =>
    [MemoryOutboxEventType.projectionSync, .vectorSync].map
      (outboxEvent env control operation point clock item)

/-- The commit an apply makes when it gets that far. -/
def commitPoint (control : MemoryControlState) (operation : MemoryOperation) : CommitPoint where
  commitId := control.nextCommitId env.toContractHash operation.operationId
  sequence := control.commitSequence + 1

/-- The rows an apply changes and the graph assertions it writes with them. -/
def appliedItems (control : MemoryControlState) (operation : MemoryOperation)
    (payload : PatchPayload) (evidence : List MemoryEvidence) (clock : ApplyClock)
    (allowTriggerFeedbackArguments : Bool) :
    ApplyM (List MemoryItem × List MemoryGraphAssertion) := do
  let point := commitPoint env control operation
  let changed ← changedItem env control operation payload evidence point clock.item
    allowTriggerFeedbackArguments
  let attached ← refreshGraphAssertion env operation point changed.1 changed.2
  let superseded ← supersedeItems operation payload attached.1 point clock
  pure (attached.1 :: superseded, attached.2)

/-- The committed result of some changed rows, each of them announced by its events. -/
def commitResult (control : MemoryControlState) (operation : MemoryOperation)
    (clock : ApplyClock) (items : List MemoryItem) (assertions : List MemoryGraphAssertion)
    (changes : List (Option MemoryItem)) : ApplyM ApplyResult := do
  let point := commitPoint env control operation
  let events := outboxEvents env control operation point clock changes
  check (items.all (·.labelSet.isSome)) (.raised "TypeError")
  check (!isBlank operation.uid && !isBlank operation.operationId) (.raised "ValidationError")
  let committed ← liftModel (operation.markCommitted env.toContractHash point.commitId
    point.sequence (items.map (·.memoryId)) (events.map (·.eventId)) clock.operation)
  pure
    { status := .committed
      controlState := control.advanceHead point.commitId clock.head
      operation := committed
      memoryItems := items
      graphAssertions := assertions
      outboxEvents := events }

/-- The body of `apply_long_term_patch_transaction`. -/
def runApply (control : MemoryControlState) (operation : MemoryOperation)
    (payload : PatchPayload) (clock : ApplyClock) (allowTriggerFeedbackArguments : Bool) :
    ApplyM ApplyResult := do
  let evidence ← proposedEvidence payload
  checkPatch env operation payload
  checkOperation env control operation payload evidence clock
  if payload.patch.decision = .skipDuplicate then
    commitResult env control operation clock [] [] [none]
  else
    let (items, assertions) ← appliedItems env control operation payload evidence clock
      allowTriggerFeedbackArguments
    commitResult env control operation clock items assertions (items.map some)

/-- `apply_long_term_patch_transaction`: a result, or the exception it raises. -/
def applyLongTermPatchTransaction (control : MemoryControlState) (operation : MemoryOperation)
    (payload : PatchPayload) (clock : ApplyClock)
    (allowTriggerFeedbackArguments : Bool := false) : Except String ApplyResult :=
  match runApply env control operation payload clock allowTriggerFeedbackArguments with
  | .ok result => .ok result
  | .error (.raised message) => .error message
  | .error (.refused refusal) => .ok
      { status := refusal.status
        controlState := control
        operation := refusal.operation
        reason := refusal.reason }

end Apply

end Omi.Memory
