import Omi.Foundation.Machine
import Omi.Foundation.PyValue

/-! The durable sync-content ledger of `database/sync_ledger.py`: one document per
content id and the Firestore transactions on it. A transaction is atomic, so each is a
function of the document it reads; times are microseconds. -/
namespace Omi.Sync
open Omi.Foundation

inductive LedgerStatus where
  | processing
  | completed
  | retryable
  | other (name : String)
  deriving DecidableEq, Repr

/-- The fields of a ledger document. An absent field reads as `None` through
`existing.get`, so it is `none` (or `[]`) here. -/
structure LedgerDoc where
  status : Option LedgerStatus := none
  jobId : Option String := none
  lane : Option String := none
  updatedAt : PyVal := .none
  expiresAt : Option ℤ := none
  ledgerRunToken : Option String := none
  ledgerRunEpoch : PyVal := .none
  result : PyVal := .none
  partialResult : PyVal := .none
  processedSegmentIds : List String := []
  meteredAt : Option ℤ := none
  usageRecordedAt : Option ℤ := none
  dgRecordedAt : Option ℤ := none
  speechMsValue : Option ℤ := none
  usageValue : Option ℤ := none
  dgMsValue : Option ℤ := none
  deriving DecidableEq, Repr

def ledgerRetentionDays : ℤ := 45

def claimStaleSeconds : ℤ := 2 * 24 * 60 * 60

def days (n : ℤ) : ℤ := n * (24 * 60 * 60 * 1000000)

def seconds (n : ℤ) : ℤ := n * 1000000

def ledgerOwnerMatches (existing : LedgerDoc) (jobId : String) (runToken : Option String)
    (runEpoch : Option ℤ) : Bool :=
  if existing.status ≠ some .processing ∨ existing.jobId ≠ some jobId then
    false
  else
    match runToken with
    | none => existing.ledgerRunToken.isNone && existing.ledgerRunEpoch == .none
    | some token =>
      existing.ledgerRunToken == some token &&
        existing.ledgerRunEpoch.pyEq ((runEpoch.map PyVal.int).getD .none)

/-- `is_valid_completed_sync_content_result`. The membership test on `outcome` hashes
it, so an unhashable outcome raises. -/
def isValidCompletedSyncContentResult : PyVal → Except String Bool
  | .dict result =>
    match (PyDict.get result "failed_segments").int?, (PyDict.get result "total_segments").int?,
      PyDict.get result "errors" with
    | some failedSegments, some totalSegments, .list [] =>
      if failedSegments = 0 ∧ 0 ≤ totalSegments ∧ failedSegments ≤ totalSegments then
        let outcome := PyDict.get result "outcome"
        if outcome = .none then .ok (0 < totalSegments)
        else if outcome.hashable then
          .ok (outcome = .str "success" || outcome = .str "expected_silence")
        else .error "TypeError: unhashable type"
      else .ok false
    | _, _, _ => .ok false
  | _ => .ok false

/-- `_processing_claim_updates`, merged into the document it claims. -/
def processingClaimUpdates (jobId lane : String) (now : ℤ) (existing : LedgerDoc)
    (clearInvalidCompletion : Bool) : LedgerDoc :=
  { existing with
    status := some .processing
    jobId := some jobId
    lane := some lane
    updatedAt := .datetime now
    expiresAt := some (now + days ledgerRetentionDays)
    ledgerRunToken := none
    ledgerRunEpoch := .none
    result := if clearInvalidCompletion then .none else existing.result
    partialResult := if clearInvalidCompletion then .none else existing.partialResult
    processedSegmentIds :=
      if clearInvalidCompletion then [] else existing.processedSegmentIds }

inductive ClaimOutcome where
  | owned
  | busy
  | completed (result : PyVal)
  deriving DecidableEq, Repr

inductive SyncContentRunBinding where
  | bound
  | completed (result : PyVal)
  | lost
  deriving DecidableEq, Repr

inductive LedgerReply where
  | claim (outcome : ClaimOutcome)
  | binding (outcome : SyncContentRunBinding)
  | flag (changed : Bool)
  | raised (error : String)
  deriving DecidableEq, Repr

abbrev LedgerRef := Option LedgerDoc

/-- `snapshot.to_dict() or {}`. -/
def LedgerRef.existing (ref : LedgerRef) : LedgerDoc := Option.getD ref {}

@[simp] theorem existing_some (doc : LedgerDoc) : LedgerRef.existing (some doc) = doc := rfl

def claimTransaction (ref : LedgerRef) (jobId lane : String) (now : ℤ) :
    LedgerRef × LedgerReply :=
  let existing := ref.existing
  let takeOver (clear : Bool) : LedgerRef × LedgerReply :=
    (some (processingClaimUpdates jobId lane now existing clear), .claim .owned)
  if existing.status = some .completed then
    match isValidCompletedSyncContentResult existing.result with
    | .ok true => (ref, .claim (.completed existing.result))
    | .ok false => takeOver true
    | .error e => (ref, .raised e)
  else if existing.jobId = some jobId then (ref, .claim .owned)
  else if existing.status = some .retryable then takeOver false
  else
    match existing.updatedAt with
    | .datetime updatedAt =>
      if now - updatedAt < seconds claimStaleSeconds then (ref, .claim .busy)
      else takeOver false
    | _ => takeOver false

/-- `str(existing.get('lane') or 'legacy')`. -/
def LedgerDoc.laneOrLegacy (doc : LedgerDoc) : String :=
  match doc.lane with
  | some lane => if lane = "" then "legacy" else lane
  | none => "legacy"

def LedgerDoc.withRun (doc : LedgerDoc) (runToken : String) (runEpoch : ℤ) : LedgerDoc :=
  { doc with ledgerRunToken := some runToken, ledgerRunEpoch := .int runEpoch }

def bindRunTokenTransaction (ref : LedgerRef) (jobId runToken : String) (runEpoch now : ℤ) :
    LedgerRef × LedgerReply :=
  let existing := ref.existing
  let lost : LedgerRef × LedgerReply := (ref, .binding .lost)
  let adopt : LedgerRef × LedgerReply :=
    (some { existing.withRun runToken runEpoch with updatedAt := .datetime now },
      .binding .bound)
  if existing.status = some .completed then
    match isValidCompletedSyncContentResult existing.result with
    | .ok true => (ref, .binding (.completed existing.result))
    | .ok false =>
      if existing.jobId ≠ some jobId then lost
      else
        (some ((processingClaimUpdates jobId existing.laneOrLegacy now existing true).withRun
          runToken runEpoch), .binding .bound)
    | .error e => (ref, .raised e)
  else if existing.status ≠ some .processing ∨ existing.jobId ≠ some jobId then lost
  else
    match existing.ledgerRunEpoch with
    -- a legacy in-flight claim has no durable generation: the first owner adopts it
    | .none => adopt
    | .int storedEpoch =>
      if runEpoch < storedEpoch then lost
      else if storedEpoch = runEpoch then
        if existing.ledgerRunToken = some runToken then (ref, .binding .bound) else lost
      else adopt
    | _ => lost

inductive SideEffectTag where
  | speechMs
  | usage
  | dgMs
  deriving DecidableEq, Repr

/-- `existing.get(_SIDE_EFFECT_FIELDS[tag])`. -/
def LedgerDoc.sideEffectAt (doc : LedgerDoc) : SideEffectTag → Option ℤ
  | .speechMs => doc.meteredAt
  | .usage => doc.usageRecordedAt
  | .dgMs => doc.dgRecordedAt

/-- The document with the tag's timestamp and `{tag}_value` fields set. -/
def LedgerDoc.markSideEffect (doc : LedgerDoc) (value now : ℤ) : SideEffectTag → LedgerDoc
  | .speechMs => { doc with meteredAt := some now, speechMsValue := some value }
  | .usage => { doc with usageRecordedAt := some now, usageValue := some value }
  | .dgMs => { doc with dgRecordedAt := some now, dgMsValue := some value }

/-- The `(job_id, run_token, run_epoch)` a worker presents. -/
structure LedgerCaller where
  jobId : String
  runToken : Option String := none
  runEpoch : Option ℤ := none
  deriving DecidableEq, Repr

def LedgerCaller.owns (caller : LedgerCaller) (existing : LedgerDoc) : Bool :=
  ledgerOwnerMatches existing caller.jobId caller.runToken caller.runEpoch

/-- The tail the owner-checked transactions share: write while the caller owns the
document, answer whether it was written. -/
def ownedWrite (ref : LedgerRef) (caller : LedgerCaller) (write : LedgerDoc → LedgerDoc) :
    LedgerRef × LedgerReply :=
  if caller.owns ref.existing then (some (write ref.existing), .flag true) else (ref, .flag false)

def sideEffectTransaction (ref : LedgerRef) (caller : LedgerCaller) (tag : SideEffectTag)
    (value now : ℤ) : LedgerRef × LedgerReply :=
  if ref.existing.sideEffectAt tag ≠ none then (ref, .flag false)
  else ownedWrite ref caller fun existing =>
    { existing.markSideEffect value now tag with updatedAt := .datetime now }

def checkpointPartialResultTransaction (ref : LedgerRef) (caller : LedgerCaller)
    (partialResult : PyDict) (now : ℤ) : LedgerRef × LedgerReply :=
  ownedWrite ref caller fun existing =>
    { existing with
      partialResult := existing.partialResult.merge (.dict partialResult)
      updatedAt := .datetime now }

/-- `_processed_segment_transaction`, whose write is an `ArrayUnion`. -/
def processedSegmentTransaction (ref : LedgerRef) (caller : LedgerCaller) (segmentId : String)
    (now : ℤ) : LedgerRef × LedgerReply :=
  if segmentId ∈ ref.existing.processedSegmentIds then (ref, .flag false)
  else ownedWrite ref caller fun existing =>
    { existing with
      processedSegmentIds := existing.processedSegmentIds ++ [segmentId]
      updatedAt := .datetime now }

/-- The `result` argument of `mark_sync_content_completed`. Both callers build it with
an `outcome` string, so its validity test never raises. -/
structure CompletionResult where
  fields : PyDict
  outcome_hashable : (fields.get "outcome").hashable = true
  deriving DecidableEq

def markCompletedTransaction (ref : LedgerRef) (caller : LedgerCaller) (result : CompletionResult)
    (now : ℤ) : LedgerRef × LedgerReply :=
  match isValidCompletedSyncContentResult (.dict result.fields) with
  | .error e => (ref, .raised e)
  | .ok false => (ref, .flag false)
  | .ok true =>
    ownedWrite ref caller fun existing =>
      { existing with
        status := some .completed
        result := existing.result.merge (.dict result.fields)
        updatedAt := .datetime now
        expiresAt := some (now + days ledgerRetentionDays) }

/-- The `retryable` write both releases make. -/
def LedgerDoc.released (existing : LedgerDoc) (now : ℤ) : LedgerDoc :=
  { existing with
    status := some .retryable
    jobId := none
    ledgerRunToken := none
    ledgerRunEpoch := .none
    updatedAt := .datetime now
    expiresAt := some (now + days ledgerRetentionDays) }

def releaseClaimTransaction (ref : LedgerRef) (caller : LedgerCaller) (now : ℤ) :
    LedgerRef × LedgerReply :=
  if ref.existing.status = some .completed then (ref, .flag false)
  else ownedWrite ref caller fun existing => existing.released now

/-- `_release_claim_after_job_retired_transaction`: no token is compared. -/
def releaseClaimAfterJobRetiredTransaction (ref : LedgerRef) (jobId : String) (now : ℤ) :
    LedgerRef × LedgerReply :=
  let existing := ref.existing
  if existing.status ≠ some .processing ∨ existing.jobId ≠ some jobId then (ref, .flag false)
  else (some (existing.released now), .flag true)

inductive LedgerCall where
  | claim (jobId lane : String) (now : ℤ)
  | bindRunToken (jobId runToken : String) (runEpoch now : ℤ)
  | sideEffect (caller : LedgerCaller) (tag : SideEffectTag) (value now : ℤ)
  | checkpointPartialResult (caller : LedgerCaller) (partialResult : PyDict) (now : ℤ)
  | processedSegment (caller : LedgerCaller) (segmentId : String) (now : ℤ)
  | markCompleted (caller : LedgerCaller) (result : CompletionResult) (now : ℤ)
  | releaseClaim (caller : LedgerCaller) (now : ℤ)
  | releaseClaimAfterJobRetired (jobId : String) (now : ℤ)
  deriving DecidableEq

def ledgerStep (ref : LedgerRef) : LedgerCall → LedgerRef × LedgerReply
  | .claim jobId lane now => claimTransaction ref jobId lane now
  | .bindRunToken jobId runToken runEpoch now =>
    bindRunTokenTransaction ref jobId runToken runEpoch now
  | .sideEffect caller tag value now => sideEffectTransaction ref caller tag value now
  | .checkpointPartialResult caller partialResult now =>
    checkpointPartialResultTransaction ref caller partialResult now
  | .processedSegment caller segmentId now =>
    processedSegmentTransaction ref caller segmentId now
  | .markCompleted caller result now => markCompletedTransaction ref caller result now
  | .releaseClaim caller now => releaseClaimTransaction ref caller now
  | .releaseClaimAfterJobRetired jobId now =>
    releaseClaimAfterJobRetiredTransaction ref jobId now

/-- The ledger of one content id under any sequence of transactions. -/
def ledger : Machine LedgerRef LedgerCall LedgerReply := ⟨ledgerStep⟩

@[simp] theorem ledger_step (ref : LedgerRef) (call : LedgerCall) :
    ledger.step ref call = ledgerStep ref call := rfl

/-- The caller of the five transactions that compare the whole owner. -/
def LedgerCall.caller? : LedgerCall → Option LedgerCaller
  | .sideEffect caller .. | .checkpointPartialResult caller .. | .processedSegment caller ..
  | .markCompleted caller .. | .releaseClaim caller .. => some caller
  | .claim .. | .bindRunToken .. | .releaseClaimAfterJobRetired .. => none

/-- What a claim can do: report a completion, raise on it, leave the document with its
owner, or take it over. Only an invalid completion loses its checkpoints. -/
theorem claimTransaction_cases (ref : LedgerRef) (jobId lane : String) (now : ℤ) :
    (claimTransaction ref jobId lane now = (ref, .claim (.completed ref.existing.result)) ∧
      ref.existing.status = some .completed ∧
      isValidCompletedSyncContentResult ref.existing.result = .ok true) ∨
    (∃ e, claimTransaction ref jobId lane now = (ref, .raised e) ∧
      isValidCompletedSyncContentResult ref.existing.result = .error e) ∨
    (claimTransaction ref jobId lane now = (ref, .claim .owned) ∧
      ref.existing.jobId = some jobId) ∨
    claimTransaction ref jobId lane now = (ref, .claim .busy) ∨
    ∃ clear, claimTransaction ref jobId lane now =
        (some (processingClaimUpdates jobId lane now ref.existing clear), .claim .owned) ∧
      (ref.existing.status = some .completed →
        isValidCompletedSyncContentResult ref.existing.result = .ok false) ∧
      (clear = true → ref.existing.status = some .completed) ∧
      (ref.existing.jobId = some jobId → ref.existing.status = some .completed) := by
  by_cases hcompleted : ref.existing.status = some .completed
  · cases hvalid : isValidCompletedSyncContentResult ref.existing.result with
    | error e => simp [claimTransaction, hcompleted, hvalid]
    | ok valid => cases valid <;> simp [claimTransaction, hcompleted, hvalid]
  · by_cases hjob : ref.existing.jobId = some jobId
    · simp [claimTransaction, hcompleted, hjob]
    · have hover : claimTransaction ref jobId lane now = (ref, .claim .busy) ∨
          claimTransaction ref jobId lane now =
            (some (processingClaimUpdates jobId lane now ref.existing false), .claim .owned) := by
        simp only [claimTransaction, hcompleted, hjob, if_false]
        split_ifs with hretry
        · exact .inr rfl
        · split
          · split_ifs
            · exact .inl rfl
            · exact .inr rfl
          · exact .inr rfl
      rcases hover with hbusy | htake
      · exact .inr (.inr (.inr (.inl hbusy)))
      · exact .inr (.inr (.inr (.inr ⟨false, htake, by simp [hcompleted], by simp, by simp [hjob]⟩)))

/-- What a bind can do: report a completion, raise on it, lose, find its own binding,
or write the presented token and epoch. -/
theorem bindRunTokenTransaction_cases (ref : LedgerRef) (jobId runToken : String)
    (runEpoch now : ℤ) :
    (bindRunTokenTransaction ref jobId runToken runEpoch now =
        (ref, .binding (.completed ref.existing.result)) ∧
      ref.existing.status = some .completed ∧
      isValidCompletedSyncContentResult ref.existing.result = .ok true) ∨
    (∃ e, bindRunTokenTransaction ref jobId runToken runEpoch now = (ref, .raised e) ∧
      isValidCompletedSyncContentResult ref.existing.result = .error e) ∨
    bindRunTokenTransaction ref jobId runToken runEpoch now = (ref, .binding .lost) ∨
    (bindRunTokenTransaction ref jobId runToken runEpoch now = (ref, .binding .bound) ∧
      ref.existing.status = some .processing ∧ ref.existing.jobId = some jobId ∧
      ref.existing.ledgerRunToken = some runToken ∧
      ref.existing.ledgerRunEpoch = .int runEpoch) ∨
    (bindRunTokenTransaction ref jobId runToken runEpoch now =
        (some { ref.existing.withRun runToken runEpoch with updatedAt := .datetime now },
          .binding .bound) ∧
      ref.existing.status = some .processing ∧ ref.existing.jobId = some jobId ∧
      ∀ stored, ref.existing.ledgerRunEpoch = .int stored → stored < runEpoch) ∨
    (bindRunTokenTransaction ref jobId runToken runEpoch now =
        (some ((processingClaimUpdates jobId ref.existing.laneOrLegacy now ref.existing
          true).withRun runToken runEpoch), .binding .bound) ∧
      ref.existing.status = some .completed ∧
      isValidCompletedSyncContentResult ref.existing.result = .ok false) := by
  by_cases hcompleted : ref.existing.status = some .completed
  · cases hvalid : isValidCompletedSyncContentResult ref.existing.result with
    | error e => simp [bindRunTokenTransaction, hcompleted, hvalid]
    | ok valid =>
      cases valid with
      | true => simp [bindRunTokenTransaction, hcompleted, hvalid]
      | false =>
        by_cases hjob : ref.existing.jobId = some jobId <;>
          simp [bindRunTokenTransaction, hcompleted, hvalid, hjob]
  · by_cases howned : ref.existing.status = some .processing ∧ ref.existing.jobId = some jobId
    · obtain ⟨hstatus, hjob⟩ := howned
      cases hepoch : ref.existing.ledgerRunEpoch with
      | none => simp [bindRunTokenTransaction, hstatus, hjob, hepoch]
      | int stored =>
        rcases Int.lt_trichotomy runEpoch stored with hlt | heq | hgt
        · simp [bindRunTokenTransaction, hstatus, hjob, hepoch, hlt]
        · by_cases htoken : ref.existing.ledgerRunToken = some runToken <;>
            simp [bindRunTokenTransaction, hstatus, hjob, hepoch, heq, htoken]
        · have hne : stored ≠ runEpoch := by omega
          have hnlt : ¬ runEpoch < stored := by omega
          simp [bindRunTokenTransaction, hstatus, hjob, hepoch, hgt, hne, hnlt]
      | _ => simp [bindRunTokenTransaction, hstatus, hjob, hepoch]
    · have hlost : ref.existing.status ≠ some .processing ∨ ref.existing.jobId ≠ some jobId := by
        tauto
      simp [bindRunTokenTransaction, hcompleted, hlost]

/-- The fields that say who is processing the document. -/
def LedgerDoc.binding (doc : LedgerDoc) :
    Option LedgerStatus × Option String × Option String × PyVal :=
  (doc.status, doc.jobId, doc.ledgerRunToken, doc.ledgerRunEpoch)

/-- The calls whose success ends the processing of the document. -/
def LedgerCall.closes : LedgerCall → Bool
  | .markCompleted .. | .releaseClaim .. | .releaseClaimAfterJobRetired .. => true
  | _ => false

/-- The validity test answers for every result a completion can present. -/
theorem CompletionResult.valid_isOk (result : CompletionResult) :
    ∃ valid, isValidCompletedSyncContentResult (.dict result.fields) = .ok valid := by
  simp only [isValidCompletedSyncContentResult]
  split
  · split_ifs <;> simp_all [result.outcome_hashable]
  · exact ⟨false, rfl⟩

theorem ownedWrite_cases {ref : LedgerRef} (caller : LedgerCaller)
    {write : LedgerDoc → LedgerDoc} {P : LedgerDoc → Prop} (h : P (write ref.existing)) :
    ownedWrite ref caller write = (ref, .flag false) ∨
      ∃ doc, ownedWrite ref caller write = (some doc, .flag true) ∧ P doc := by
  cases howns : caller.owns ref.existing
  · exact .inl (by simp [ownedWrite, howns])
  · exact .inr ⟨_, by simp [ownedWrite, howns], h⟩

/-- A transaction other than claim and bind is refused, or keeps the binding, or is one
that closes the document. -/
theorem ledgerStep_cases (ref : LedgerRef) (call : LedgerCall)
    (hclaim : ∀ jobId lane now, call ≠ .claim jobId lane now)
    (hbind : ∀ jobId token epoch now, call ≠ .bindRunToken jobId token epoch now) :
    ledgerStep ref call = (ref, .flag false) ∨
      ∃ doc, ledgerStep ref call = (some doc, .flag true) ∧
        (doc.binding = ref.existing.binding ∨
          (call.closes = true ∧ doc.status ≠ some .processing)) := by
  cases call with
  | claim => exact absurd rfl (hclaim _ _ _)
  | bindRunToken => exact absurd rfl (hbind _ _ _ _)
  | sideEffect caller tag value now =>
    simp only [ledgerStep, sideEffectTransaction]
    split_ifs
    · exact .inl rfl
    · exact ownedWrite_cases caller (.inl (by cases tag <;> rfl))
  | checkpointPartialResult caller partialResult now =>
    simp only [ledgerStep, checkpointPartialResultTransaction]
    exact ownedWrite_cases caller (.inl rfl)
  | processedSegment caller segmentId now =>
    simp only [ledgerStep, processedSegmentTransaction]
    split_ifs
    · exact .inl rfl
    · exact ownedWrite_cases caller (.inl rfl)
  | markCompleted caller result now =>
    obtain ⟨valid, hvalid⟩ := result.valid_isOk
    cases valid <;> simp only [ledgerStep, markCompletedTransaction, hvalid]
    · exact .inl trivial
    · exact ownedWrite_cases caller (.inr ⟨rfl, by simp⟩)
  | releaseClaim caller now =>
    simp only [ledgerStep, releaseClaimTransaction]
    split_ifs
    · exact .inl rfl
    · exact ownedWrite_cases caller (.inr ⟨rfl, by simp [LedgerDoc.released]⟩)
  | releaseClaimAfterJobRetired jobId now =>
    simp only [ledgerStep, releaseClaimAfterJobRetiredTransaction]
    split_ifs
    · exact .inl rfl
    · exact .inr ⟨_, rfl, .inr ⟨rfl, by simp [LedgerDoc.released]⟩⟩

end Omi.Sync
