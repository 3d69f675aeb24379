import Mathlib
import Omi.Foundation.PyText

/-! Candidates, the tasks they propose, and the annotations that coalescing writes into both.
Instants are seconds. -/
namespace Omi.Candidates
open Omi.Foundation

inductive TaskStatus where
  | active | completed | cancelled | superseded
deriving DecidableEq, Repr

inductive TaskOwner where
  | user | other | unknown
deriving DecidableEq, Repr

inductive TaskPriority where
  | high | medium | low
deriving DecidableEq, Repr

inductive EvidenceKind where
  | conversation | memoryItem | workstreamEvent | artifact | chatMessage | localScreen | external
deriving DecidableEq, Repr

inductive EvidenceScope where
  | canonical | deviceLocal
deriving DecidableEq, Repr

structure EvidenceRef where
  kind : EvidenceKind
  id : String
  version : Option String := none
  scope : EvidenceScope
  deviceId : Option String := none
  excerptHash : Option String := none
  transcriptSegmentIds : Option (List String) := none
  startSeconds : Option ℚ := none
  endSeconds : Option ℚ := none
deriving DecidableEq, Repr

structure TaskCreatePayload where
  description : String
  owner : TaskOwner := .unknown
  dueAt : Option ℚ := none
  dueConfidence : Option ℚ := none
  priority : Option TaskPriority := none
  recurrenceRule : Option String := none
  recurrenceParentId : Option String := none
deriving DecidableEq, Repr

/-- A field is `none` where it is unset or null: the store drops both. -/
structure TaskChangePayload where
  description : Option String := none
  status : Option TaskStatus := none
  owner : Option TaskOwner := none
  dueAt : Option ℚ := none
  dueConfidence : Option ℚ := none
  priority : Option TaskPriority := none
  recurrenceRule : Option String := none
  recurrenceParentId : Option String := none
  supersededBy : Option String := none
deriving DecidableEq, Repr

structure WorkstreamProposal where
  title : String
  objective : String
  anchorTask : TaskCreatePayload
deriving DecidableEq, Repr

structure CandidateCompatibilityMetadata where
  metadata : Option String := none
  category : Option String := none
  relevanceScore : Option ℤ := none
deriving DecidableEq, Repr

/-- The actions that change a task that is there. -/
inductive MutationAction where
  | update | complete | cancel | supersede
deriving DecidableEq, Repr

/-- The arms of the request union: what is proposed, and the payload that goes with it. -/
inductive ProposedChange where
  | createTask (taskChange : TaskCreatePayload)
  | changeTask (action : MutationAction) (taskId : String) (taskChange : TaskChangePayload)
  | createWorkstream (workstreamProposal : WorkstreamProposal)
deriving DecidableEq, Repr

structure CandidateCreate where
  change : ProposedChange
  captureConfidence : ℚ
  ownershipConfidence : ℚ
  goalId : Option String := none
  workstreamId : Option String := none
  evidenceRefs : List EvidenceRef
  sourceSurface : String
  compatibility : Option CandidateCompatibilityMetadata := none
deriving DecidableEq, Repr

inductive CandidateStatus where
  | pending | accepted | rejected | expired
deriving DecidableEq, Repr

def CandidateStatus.value : CandidateStatus → String
  | .pending => "pending"
  | .accepted => "accepted"
  | .rejected => "rejected"
  | .expired => "expired"

structure CandidateRecord where
  proposal : CandidateCreate
  candidateId : String
  status : CandidateStatus := .pending
  accountGeneration : ℤ
  idempotencyKey : String
  resolutionReason : Option String := none
  resultTaskId : Option String := none
  resultWorkstreamId : Option String := none
  createdAt : ℚ
  resolvedAt : Option ℚ := none
  expiresAt : Option ℚ := none
deriving DecidableEq, Repr

/-- A stored task, with the fields that candidates read or write. -/
structure TaskDoc where
  description : Option String := none
  owner : Option TaskOwner := none
  dueAt : Option ℚ := none
  dueConfidence : Option ℚ := none
  priority : Option TaskPriority := none
  recurrenceRule : Option String := none
  recurrenceParentId : Option String := none
  supersededBy : Option String := none
  status : Option TaskStatus := none
  completed : Option Bool := none
  completedAt : Option ℚ := none
  deleted : Option Bool := none
  goalId : Option String := none
  workstreamId : Option String := none
  source : Option String := none
  provenance : List EvidenceRef := []
  captureConfidence : Option ℚ := none
  ownershipConfidence : Option ℚ := none
  candidateId : Option String := none
  accountGeneration : Option ℤ := none
  idempotencyKey : Option String := none
  sortOrder : Option ℤ := none
  indentLevel : Option ℤ := none
  createdAt : Option ℚ := none
  updatedAt : Option ℚ := none
deriving DecidableEq, Repr

/-! ### What a stored record must be -/

/-- The pattern of `StableId`. -/
def isStableId (text : String) : Bool :=
  match text.toList with
  | [] => false
  | first :: rest =>
    first.isAlphanum && rest.all (fun c => c.isAlphanum || c ∈ ['.', '_', ':', '-']) &&
      decide (rest.length < 128)

/-- `require_change`: some field is set. -/
def TaskChangePayload.nonempty (change : TaskChangePayload) : Bool :=
  change.description.isSome || change.status.isSome || change.owner.isSome ||
    change.dueAt.isSome || change.dueConfidence.isSome || change.priority.isSome ||
    change.recurrenceRule.isSome || change.recurrenceParentId.isSome || change.supersededBy.isSome

/-- `validate_resolution` for a task. -/
def CandidateRecord.resolutionValid (record : CandidateRecord) : Bool :=
  match record.status with
  | .pending => record.resolvedAt.isNone && record.resolutionReason.isNone
  | .accepted =>
    record.resolvedAt.isSome && match record.proposal.change with
      | .createWorkstream _ => record.resultWorkstreamId.isSome
      | _ => record.resultTaskId.isSome
  | _ => record.resolvedAt.isSome

/-- What the transactions write of a record passes validation again. -/
def CandidateRecord.valid (record : CandidateRecord) : Bool :=
  (match record.proposal.change with
    | .changeTask _ _ taskChange => taskChange.nonempty
    | _ => true) &&
  record.resolutionReason.all (fun reason => decide (reason.length ≤ 64)) &&
  record.resultTaskId.all isStableId && record.resolutionValid

/-! ### Identities -/

/-- The fields that tell one proposed task from another. -/
structure SemanticPayload where
  description : String
  owner : TaskOwner
  dueAt : Option ℚ
  recurrenceRule : String
  recurrenceParentId : String
  goalId : String
  workstreamId : String
deriving DecidableEq, Repr

/-- The user, and the texts and digests ids are made of: `sha256(..).hexdigest()[:32]`,
`str.lower` and `json.dumps` of a request and of a semantic payload. -/
structure IdScheme where
  uid : String
  hexdigest : String → String
  lower : String → String
  requestJson : CandidateCreate → String
  semanticJson : SemanticPayload → String

namespace IdScheme
variable (ids : IdScheme)

def stableContractId (kind : String) (parts : List String) : String :=
  kind ++ "_" ++ ids.hexdigest ("\x1f".intercalate parts)

def candidateIdForIdempotency (accountGeneration : ℤ) (idempotencyKey : String) : String :=
  ids.stableContractId "cand" [ids.uid, toString accountGeneration, idempotencyKey]

def keyHash (accountGeneration : ℤ) (idempotencyKey : String) : String :=
  ids.stableContractId "idem" [ids.uid, toString accountGeneration, idempotencyKey]

def taskIdForCandidate (accountGeneration : ℤ) (candidateId : String) : String :=
  ids.stableContractId "task" [ids.uid, toString accountGeneration, candidateId]

def receiptId (candidateId : String) (accountGeneration : ℤ) (status : CandidateStatus) : String :=
  ids.stableContractId "receipt" [candidateId, toString accountGeneration, status.value]

def proposalRequestHash (accountGeneration : ℤ) (proposal : CandidateCreate) : String :=
  ids.stableContractId "request" [ids.uid, toString accountGeneration, ids.requestJson proposal]

/-- `normalize_action_item_description`. -/
def normalizeDescription (description : String) : String :=
  if description = "" then ""
  else
    let text := stripList description.toList
    let text := if "[screen] ".toList.isPrefixOf text then text.drop 9 else text
    let text := if " [screen]".toList.isSuffixOf text then text.take (text.length - 9) else text
    ids.lower (String.ofList (stripList text))

def taskCreateSemanticPayload (taskChange : TaskCreatePayload)
    (goalId workstreamId : Option String) : SemanticPayload where
  description := ids.normalizeDescription taskChange.description
  owner := taskChange.owner
  dueAt := taskChange.dueAt
  recurrenceRule := taskChange.recurrenceRule.getD ""
  recurrenceParentId := taskChange.recurrenceParentId.getD ""
  goalId := goalId.getD ""
  workstreamId := workstreamId.getD ""

def pendingCandidateSemanticIdentity (proposal : CandidateCreate) : Option String :=
  match proposal.change with
  | .createTask taskChange =>
    let payload := ids.taskCreateSemanticPayload taskChange proposal.goalId proposal.workstreamId
    some (ids.stableContractId "semantic" ["task-create.v1", ids.semanticJson payload])
  | _ => none

def pendingSemanticClaimId (accountGeneration : ℤ) (proposal : CandidateCreate) : Option String :=
  (ids.pendingCandidateSemanticIdentity proposal).map fun identity =>
    ids.stableContractId "pending" [ids.uid, toString accountGeneration, identity]

end IdScheme

/-! ### Annotations -/

def maxOptionalConfidence : Option ℚ → Option ℚ → Option ℚ
  | some a, some b => some (max a b)
  | some a, none => some a
  | none, b => b

def taskPriorityRank : TaskPriority → ℕ
  | .low => 0
  | .medium => 1
  | .high => 2

def strongestTaskPriority : Option TaskPriority → Option TaskPriority → Option TaskPriority
  | some a, some b => if taskPriorityRank a < taskPriorityRank b then some b else some a
  | some a, none => some a
  | none, b => b

def maxCandidateEvidenceRefs : ℕ := 20

/-- The references in order, each once, as many as a candidate holds. -/
def mergeEvidence (existing proposed : List EvidenceRef) : List EvidenceRef :=
  (existing ++ proposed).foldl (fun evidence ref =>
    if ref ∈ evidence ∨ evidence.length = maxCandidateEvidenceRefs then evidence
    else evidence ++ [ref]) []

def mergeCompatibility (existing proposed : Option CandidateCompatibilityMetadata) :
    Option CandidateCompatibilityMetadata :=
  match proposed with
  | none => existing
  | some update =>
    let current := existing.getD {}
    some
      { metadata := update.metadata <|> current.metadata
        category := update.category <|> current.category
        relevanceScore := update.relevanceScore <|> current.relevanceScore }

def mergeTaskChange (existing proposed : ProposedChange) : ProposedChange :=
  match existing, proposed with
  | .createTask current, .createTask update =>
    .createTask
      { current with
        dueConfidence := maxOptionalConfidence current.dueConfidence update.dueConfidence
        priority := strongestTaskPriority current.priority update.priority }
  | _, _ => existing

/-- `_merge_candidate_annotations`. -/
def CandidateRecord.mergeAnnotations (existing : CandidateRecord) (proposal : CandidateCreate) :
    CandidateRecord :=
  { existing with
    proposal :=
      { existing.proposal with
        captureConfidence := max existing.proposal.captureConfidence proposal.captureConfidence
        ownershipConfidence :=
          max existing.proposal.ownershipConfidence proposal.ownershipConfidence
        evidenceRefs := mergeEvidence existing.proposal.evidenceRefs proposal.evidenceRefs
        compatibility := mergeCompatibility existing.proposal.compatibility proposal.compatibility
        change := mergeTaskChange existing.proposal.change proposal.change } }

/-- Coalescing changes annotations alone: the task proposed is the same. -/
@[simp] theorem CandidateRecord.pendingSemanticClaimId_mergeAnnotations (ids : IdScheme)
    (accountGeneration : ℤ) (existing : CandidateRecord) (proposal : CandidateCreate) :
    ids.pendingSemanticClaimId accountGeneration (existing.mergeAnnotations proposal).proposal =
      ids.pendingSemanticClaimId accountGeneration existing.proposal := by
  unfold IdScheme.pendingSemanticClaimId IdScheme.pendingCandidateSemanticIdentity mergeAnnotations
    mergeTaskChange
  cases existing.proposal.change with
  | createTask current => cases proposal.change <;> rfl
  | changeTask action taskId taskChange => rfl
  | createWorkstream workstreamProposal => rfl

/-- `_merge_task_provenance`. -/
def mergeTaskProvenance (currentTask : TaskDoc) (evidenceRefs : List EvidenceRef) :
    List EvidenceRef :=
  (currentTask.provenance ++ evidenceRefs).foldl (fun provenance ref =>
    if ref ∈ provenance then provenance else provenance ++ [ref]) []

/-- What coalescing with an accepted candidate writes into its task. -/
def TaskDoc.annotate (task : TaskDoc) (merged : CandidateRecord) (now : ℚ) : TaskDoc :=
  let annotated :=
    { task with
      captureConfidence :=
        some (max (task.captureConfidence.getD 0) merged.proposal.captureConfidence)
      ownershipConfidence :=
        some (max (task.ownershipConfidence.getD 0) merged.proposal.ownershipConfidence)
      provenance := mergeTaskProvenance task merged.proposal.evidenceRefs
      updatedAt := some now }
  match merged.proposal.change with
  | .createTask taskChange =>
    { annotated with
      dueConfidence := maxOptionalConfidence task.dueConfidence taskChange.dueConfidence
      priority := strongestTaskPriority task.priority taskChange.priority }
  | _ => annotated

/-! ### The state of a suggestion and of its task -/

/-- `SUGGESTION_TTL`: two days. -/
def suggestionTtl : ℚ := 2 * 24 * 60 * 60

/-- `candidate_has_lapsed`: the suggestion's window has closed on it. -/
def CandidateRecord.hasLapsed (candidate : CandidateRecord) (now : ℚ) : Bool :=
  candidate.status == .pending &&
    decide (candidate.expiresAt.getD (candidate.createdAt + suggestionTtl) ≤ now)

theorem CandidateRecord.hasLapsed_mono {candidate : CandidateRecord} {now later : ℚ}
    (h : candidate.hasLapsed now = true) (hle : now ≤ later) : candidate.hasLapsed later = true := by
  unfold hasLapsed at h ⊢
  rw [Bool.and_eq_true, decide_eq_true_iff] at h ⊢
  obtain ⟨hpending, hdeadline⟩ := h
  exact ⟨hpending, hdeadline.trans hle⟩

/-- `_accepted_task_is_active`. -/
def TaskDoc.isActive (task : TaskDoc) (accountGeneration : ℤ) : Bool :=
  let taskGeneration := task.accountGeneration.getD 0
  let status := task.status.getD (if task.completed.getD false then .completed else .active)
  (taskGeneration == 0 || taskGeneration == accountGeneration) && status == .active &&
    !task.completed.getD false && !task.deleted.getD false

/-- `_accepted_task_matches_semantic_claim`. -/
def IdScheme.acceptedTaskMatchesSemanticClaim (ids : IdScheme) (task : TaskDoc)
    (candidate : CandidateRecord) : Bool :=
  match candidate.proposal.change, task.description, task.owner with
  | .createTask taskChange, some description, some owner =>
    let currentPayload : SemanticPayload :=
      { description := ids.normalizeDescription description
        owner
        dueAt := task.dueAt
        recurrenceRule := task.recurrenceRule.getD ""
        recurrenceParentId := task.recurrenceParentId.getD ""
        goalId := task.goalId.getD ""
        workstreamId := task.workstreamId.getD "" }
    currentPayload == ids.taskCreateSemanticPayload taskChange candidate.proposal.goalId
      candidate.proposal.workstreamId
  | _, _, _ => false

/-! ### The tasks that an acceptance writes -/

/-- `_task_create_storage`. -/
def taskCreateStorage (candidate : CandidateRecord) (taskChange : TaskCreatePayload) (now : ℚ) :
    TaskDoc where
  description := some taskChange.description
  owner := some taskChange.owner
  dueAt := taskChange.dueAt
  dueConfidence := taskChange.dueConfidence
  priority := taskChange.priority
  recurrenceRule := taskChange.recurrenceRule
  recurrenceParentId := taskChange.recurrenceParentId
  status := some .active
  completed := some false
  goalId := candidate.proposal.goalId
  workstreamId := candidate.proposal.workstreamId
  source := some candidate.proposal.sourceSurface
  provenance := candidate.proposal.evidenceRefs
  captureConfidence := some candidate.proposal.captureConfidence
  ownershipConfidence := some candidate.proposal.ownershipConfidence
  candidateId := some candidate.candidateId
  accountGeneration := some candidate.accountGeneration
  idempotencyKey := some candidate.idempotencyKey
  sortOrder := some 0
  indentLevel := some 0
  createdAt := some now
  updatedAt := some now

/-- The task under the patch of `_task_update_storage`, less its generation. -/
def taskUpdateStorage (candidate : CandidateRecord) (action : MutationAction)
    (taskChange : TaskChangePayload) (currentTask : TaskDoc) (now : ℚ) : TaskDoc :=
  let patched :=
    { currentTask with
      description := taskChange.description <|> currentTask.description
      status := taskChange.status <|> currentTask.status
      owner := taskChange.owner <|> currentTask.owner
      dueAt := taskChange.dueAt <|> currentTask.dueAt
      dueConfidence := taskChange.dueConfidence <|> currentTask.dueConfidence
      priority := taskChange.priority <|> currentTask.priority
      recurrenceRule := taskChange.recurrenceRule <|> currentTask.recurrenceRule
      recurrenceParentId := taskChange.recurrenceParentId <|> currentTask.recurrenceParentId
      supersededBy := taskChange.supersededBy <|> currentTask.supersededBy
      goalId := candidate.proposal.goalId <|> currentTask.goalId
      workstreamId := candidate.proposal.workstreamId <|> currentTask.workstreamId
      provenance := mergeTaskProvenance currentTask candidate.proposal.evidenceRefs
      updatedAt := some now }
  match action, taskChange.status with
  | .complete, _ =>
    { patched with status := some .completed, completed := some true, completedAt := some now }
  | .cancel, _ =>
    { patched with status := some .cancelled, completed := some false, completedAt := none }
  | .supersede, _ =>
    { patched with status := some .superseded, completed := some false, completedAt := none }
  | .update, some status =>
    { patched with
      completed := some (status == .completed)
      completedAt := if status = .completed then some now else none }
  | .update, none => patched

end Omi.Candidates
