import Mathlib
import Omi.Foundation.Checks
import Omi.Foundation.Machine
import Omi.Foundation.Table
import Omi.Candidates.IntegrationOutbox
import Omi.Candidates.Records

/-! The user's candidates, with the aliases, claims and leases that guard them, and the
transactions that create and resolve them. Each call is one transaction, so a serial order of
calls stands for every interleaving. -/
namespace Omi.Candidates
open Omi.Foundation

/-- What an idempotency key stands for. -/
structure IdempotencyAlias where
  candidateId : String
  requestHash : String
  accountGeneration : ℤ
  createdAt : ℚ
deriving DecidableEq, Repr

/-- The candidate that stands for a semantic claim. -/
structure PendingClaim where
  candidateId : String
  accountGeneration : ℤ
  lastSeenAt : ℚ
deriving DecidableEq, Repr

inductive ClaimStatus where
  | active | consumed
deriving DecidableEq, Repr

inductive ClaimPhase where
  | preMutation | mutationStarted
deriving DecidableEq, Repr

inductive ReservationKind where
  | create | existing | committed
deriving DecidableEq, Repr

/-- The lease of a legacy promotion on a candidate. -/
structure ResolutionClaim where
  candidateId : String
  claimToken : String
  accountGeneration : ℤ
  status : ClaimStatus := .active
  phase : ClaimPhase := .preMutation
  leaseExpiresAt : ℚ
  resultTaskId : Option String := none
  reservationKind : Option ReservationKind := none
deriving DecidableEq, Repr

structure GoalDoc where
  accountGeneration : Option ℤ := none
  status : Option String := none
  isActive : Option Bool := none
deriving DecidableEq, Repr

structure WorkstreamDoc where
  accountGeneration : Option ℤ := none
  goalId : Option String := none
deriving DecidableEq, Repr

structure CandidateStore where
  control : Option ℤ := none
  candidates : Table CandidateRecord := []
  aliases : Table IdempotencyAlias := []
  pendingClaims : Table PendingClaim := []
  resolutionClaims : Table ResolutionClaim := []
  outbox : Table OutboxRow := []
  tasks : Table TaskDoc := []
  goals : Table GoalDoc := []
  workstreams : Table WorkstreamDoc := []

inductive CandidateError where
  | value (message : String)
  | notFound (what : String)
  | conflict (message : String)
  | generationMismatch (message : String)
  | resolverUnavailable (message : String)
  | malformed
deriving DecidableEq, Repr

structure CandidateResolutionReceipt where
  candidateId : String
  status : CandidateStatus
  receiptId : String
  taskId : Option String := none
  workstreamId : Option String := none
  newlyResolved : Bool
  resolvedAt : ℚ
deriving DecidableEq, Repr

structure LegacyPromotionReservation where
  taskId : String
  kind : ReservationKind
deriving DecidableEq, Repr

namespace ResolutionClaim

/-- `_claim_owner_is_active`. -/
def ownerIsActive (claim : ResolutionClaim) (now : ℚ) : Bool :=
  claim.status == .active && decide (now < claim.leaseExpiresAt)

/-- `_claim_blocks_resolution`. -/
def blocksResolution (claim : ResolutionClaim) (now : ℚ) : Bool :=
  claim.status == .active && (claim.phase == .mutationStarted || claim.ownerIsActive now)

end ResolutionClaim

namespace CandidateStore
variable (ids : IdScheme) (store : CandidateStore)

/-- `TaskWorkflowControl().account_generation` where there is no document. -/
def controlGeneration : ℤ := store.control.getD 0

/-- `_validate_write_control`. -/
def validateWriteControl (accountGeneration : ℤ) : Except CandidateError Unit :=
  check (store.controlGeneration == accountGeneration)
    (.generationMismatch "account generation mismatch")

/-- `parse_snapshot_strict` of a candidate's document. -/
def parseStrict (record : CandidateRecord) : Except CandidateError CandidateRecord :=
  if record.valid then .ok record else .error .malformed

/-- The candidate of the caller's generation, which every resolver reads first. -/
def loadCandidate (candidateId : String) (accountGeneration : ℤ) :
    Except CandidateError CandidateRecord := do
  store.validateWriteControl accountGeneration
  match store.candidates.get candidateId with
  | none => .error (.notFound candidateId)
  | some stored =>
    let candidate ← parseStrict stored
    check (candidate.accountGeneration == accountGeneration) (.generationMismatch candidateId)
    return candidate

/-! ### Creation -/

/-- The answer to a key that has been used. -/
def aliasedCandidate (known : IdempotencyAlias) (requestHash : String) (accountGeneration : ℤ) :
    Except CandidateError CandidateRecord := do
  check (known.accountGeneration == accountGeneration && known.requestHash == requestHash)
    (.conflict "idempotency key was already used for a different proposal")
  match store.candidates.get known.candidateId with
  | none => .error (.conflict "candidate idempotency alias target is missing")
  | some stored =>
    let aliased ← parseStrict stored
    check (aliased.accountGeneration == accountGeneration)
      (.conflict "candidate idempotency alias generation mismatch")
    return aliased

/-- The candidate of the caller's generation that stands for the semantic claim, with the id
that the claim has for it. -/
def claimedCandidate (semanticClaimId : Option String) (accountGeneration : ℤ) :
    Except CandidateError (Option (String × CandidateRecord)) :=
  match semanticClaimId.bind store.pendingClaims.get with
  | none => .ok none
  | some claim =>
    if claim.accountGeneration ≠ accountGeneration then .ok none
    else match store.candidates.get claim.candidateId with
      | none => .ok none
      | some stored => do
        let candidate ← parseStrict stored
        return if candidate.accountGeneration = accountGeneration then
          some (claim.candidateId, candidate) else none

/-- The task of an accepted candidate. -/
def claimedTask (candidate : CandidateRecord) : Option (String × TaskDoc) :=
  if candidate.status = .accepted then
    candidate.resultTaskId.bind fun taskId => (store.tasks.get taskId).map fun task => (taskId, task)
  else none

/-- The task whose accepted candidate takes a new capture in: it is still active and still what
was proposed. -/
def reusableActiveAccept (candidate : CandidateRecord) (accountGeneration : ℤ) :
    Option (String × TaskDoc) :=
  (store.claimedTask candidate).filter fun claimed =>
    claimed.2.isActive accountGeneration && ids.acceptedTaskMatchesSemanticClaim claimed.2 candidate

def reusablePending (candidate : CandidateRecord) (now : ℚ) : Bool :=
  candidate.status == .pending && !candidate.hasLapsed now

/-- The candidate, and the alias and claim that lead to it. -/
def putCandidate (key : String) (candidate : CandidateRecord) (keyHash requestHash : String)
    (semanticClaimId : Option String) (accountGeneration : ℤ) (now : ℚ) : CandidateStore :=
  { store with
    candidates := store.candidates.set key candidate
    aliases := store.aliases.set keyHash
      { candidateId := candidate.candidateId, requestHash, accountGeneration, createdAt := now }
    pendingClaims := match semanticClaimId with
      | none => store.pendingClaims
      | some claimId => store.pendingClaims.set claimId
          { candidateId := candidate.candidateId, accountGeneration, lastSeenAt := now } }

/-- The record of a new candidate. -/
def newRecord (proposal : CandidateCreate) (idempotencyKey : String) (accountGeneration : ℤ)
    (now : ℚ) : CandidateRecord where
  proposal
  candidateId := ids.candidateIdForIdempotency accountGeneration idempotencyKey
  accountGeneration
  idempotencyKey := ids.keyHash accountGeneration idempotencyKey
  createdAt := now
  expiresAt := some (now + suggestionTtl)

/-- What `create_candidate` does once neither the key nor its candidate is there: coalesce, or
write a new candidate. -/
def coalesceOrCreate (proposal : CandidateCreate) (idempotencyKey : String)
    (accountGeneration : ℤ) (now : ℚ) :
    Except CandidateError (CandidateStore × CandidateRecord) := do
  let keyHash := ids.keyHash accountGeneration idempotencyKey
  let requestHash := ids.proposalRequestHash accountGeneration proposal
  let semanticClaimId := ids.pendingSemanticClaimId accountGeneration proposal
  let record := newRecord ids proposal idempotencyKey accountGeneration now
  let fresh := store.putCandidate record.candidateId record keyHash requestHash semanticClaimId
    accountGeneration now
  match ← store.claimedCandidate semanticClaimId accountGeneration with
  | none => return (fresh, record)
  | some (claimedId, candidate) =>
    let merged := candidate.mergeAnnotations proposal
    let coalesced := store.putCandidate claimedId merged keyHash requestHash semanticClaimId
      accountGeneration now
    match store.reusableActiveAccept ids candidate accountGeneration with
    | some (taskId, task) =>
      return ({ coalesced with tasks := store.tasks.set taskId (task.annotate merged now) }, merged)
    | none =>
      if reusablePending candidate now then return (coalesced, merged) else return (fresh, record)

def createCandidate (proposal : CandidateCreate) (idempotencyKey : String) (accountGeneration : ℤ)
    (now : ℚ) : Except CandidateError (CandidateStore × CandidateRecord) := do
  check (!isBlank idempotencyKey) (.value "idempotency_key is required")
  check (decide (0 ≤ accountGeneration)) (.value "account_generation must be nonnegative")
  let keyHash := ids.keyHash accountGeneration idempotencyKey
  let requestHash := ids.proposalRequestHash accountGeneration proposal
  let candidateId := ids.candidateIdForIdempotency accountGeneration idempotencyKey
  store.validateWriteControl accountGeneration
  match store.aliases.get keyHash with
  | some known =>
    let aliased ← store.aliasedCandidate known requestHash accountGeneration
    return (store, aliased)
  | none =>
    match store.candidates.get candidateId with
    | some stored =>
      let existing ← parseStrict stored
      check (existing.accountGeneration == accountGeneration && existing.idempotencyKey == keyHash)
        (.conflict "candidate idempotency collision")
      check (existing.proposal == proposal)
        (.conflict "idempotency key was already used for a different proposal")
      let known : IdempotencyAlias :=
        { candidateId := existing.candidateId, requestHash, accountGeneration, createdAt := now }
      return ({ store with aliases := store.aliases.set keyHash known }, existing)
    | none => store.coalesceOrCreate ids proposal idempotencyKey accountGeneration now

/-! ### Resolution -/

/-- No lease on the candidate keeps the caller from resolving it. -/
def checkUnclaimed (candidateId : String) (now : ℚ) : Except CandidateError Unit :=
  check (!(store.resolutionClaims.get candidateId).any (·.blocksResolution now))
    (.conflict "Candidate resolution is already claimed")

/-- `validate_task_relationship_in_transaction`. -/
def validateTaskRelationship (goalId workstreamId : Option String) (allowEndedGoal : Bool)
    (accountGeneration : ℤ) : Except CandidateError Unit := do
  match goalId with
  | none => pure ()
  | some goalId =>
    match store.goals.get goalId with
    | none => .error (.conflict "goal does not exist")
    | some goal =>
      check (goal.accountGeneration.getD 0 == accountGeneration)
        (.conflict "goal account generation mismatch")
      check (allowEndedGoal || !(goal.status == some "achieved" || goal.status == some "abandoned" ||
          (goal.status == none && goal.isActive == some false)))
        (.conflict "ended goal cannot receive new task links")
  match workstreamId with
  | none => pure ()
  | some workstreamId =>
    match store.workstreams.get workstreamId with
    | none => .error (.conflict "workstream does not exist")
    | some workstream =>
      check (workstream.accountGeneration.getD 0 == accountGeneration)
        (.conflict "workstream account generation mismatch")
      check (workstream.goalId == goalId)
        (.conflict "task goal_id must match workstream goal_id")

/-- The id and the document of the task that accepting the candidate writes, and whether it is
written: a task that is there already stays. -/
def createdTask (candidate : CandidateRecord) (taskChange : TaskCreatePayload)
    (candidateId : String) (accountGeneration : ℤ) (now : ℚ) :
    Except CandidateError (CandidateStore × String) := do
  let taskId := ids.taskIdForCandidate accountGeneration candidateId
  store.validateTaskRelationship candidate.proposal.goalId candidate.proposal.workstreamId false
    accountGeneration
  match store.tasks.get taskId with
  | some existingTask =>
    check (existingTask.candidateId == some candidateId)
      (.conflict "deterministic task id collision")
    return (store, taskId)
  | none =>
    let task := taskCreateStorage candidate taskChange now
    return ({ store with tasks := store.tasks.set taskId task }, taskId)

/-- The patch of the task that the candidate changes. -/
def changedTask (candidate : CandidateRecord) (action : MutationAction) (taskId : String)
    (taskChange : TaskChangePayload)
    (expectedTaskLinks : Option (Option String × Option String)) (accountGeneration : ℤ) (now : ℚ) :
    Except CandidateError (CandidateStore × String) := do
  match store.tasks.get taskId with
  | none => .error (.notFound ("task:" ++ taskId))
  | some currentTask =>
    let currentGeneration := currentTask.accountGeneration.getD 0
    check (currentGeneration == 0 || currentGeneration == accountGeneration)
      (.generationMismatch "task account generation mismatch")
    let currentLinks := (currentTask.goalId, currentTask.workstreamId)
    check (expectedTaskLinks.all (· == currentLinks))
      (.conflict "task links changed while resolving Candidate")
    let task := { taskUpdateStorage candidate action taskChange currentTask now with
      accountGeneration := some accountGeneration }
    store.validateTaskRelationship task.goalId task.workstreamId
      ((task.goalId, task.workstreamId) == currentLinks) accountGeneration
    return ({ store with tasks := store.tasks.set taskId task }, taskId)

/-- The task that accepting the candidate writes. -/
def acceptedTask (candidate : CandidateRecord) (candidateId : String)
    (expectedTaskLinks : Option (Option String × Option String)) (accountGeneration : ℤ) (now : ℚ) :
    Except CandidateError (CandidateStore × String) :=
  match candidate.proposal.change with
  | .createWorkstream _ =>
    .error (.resolverUnavailable "Ticket 04 workstream resolver is not registered")
  | .createTask taskChange =>
    store.createdTask ids candidate taskChange candidateId accountGeneration now
  | .changeTask action taskId taskChange =>
    store.changedTask candidate action taskId taskChange expectedTaskLinks accountGeneration now

/-- The candidate resolved, its deadline cleared. -/
def settle (candidate : CandidateRecord) (status : CandidateStatus) (reason : String)
    (resolvedAt : ℚ) : CandidateRecord :=
  { candidate with
    status
    resolutionReason := some reason
    resolvedAt := some resolvedAt
    expiresAt := none }

/-- The receipt of a resolution that is there already. -/
def knownReceipt (candidate : CandidateRecord) (candidateId : String) (accountGeneration : ℤ)
    (taskId workstreamId : Option String) : Except CandidateError CandidateResolutionReceipt :=
  match candidate.resolvedAt with
  | none => .error .malformed
  | some resolvedAt => .ok
      { candidateId
        status := candidate.status
        receiptId := ids.receiptId candidateId accountGeneration candidate.status
        taskId
        workstreamId
        newlyResolved := false
        resolvedAt }

def newReceipt (candidateId : String) (accountGeneration : ℤ) (status : CandidateStatus)
    (taskId : Option String) (resolvedAt : ℚ) : CandidateResolutionReceipt where
  candidateId
  status
  receiptId := ids.receiptId candidateId accountGeneration status
  taskId
  newlyResolved := true
  resolvedAt

/-- The acceptance of a candidate whose task is written. -/
def accept (candidate : CandidateRecord) (candidateId taskId : String) (accountGeneration : ℤ)
    (resolvedAt : ℚ) : CandidateStore :=
  { store with
    candidates := store.candidates.set candidateId
      { settle candidate .accepted "accepted" resolvedAt with resultTaskId := some taskId }
    outbox := match candidate.proposal.change with
      | .createTask _ => store.outbox.set candidateId
          { accountGeneration := some accountGeneration, updatedAt := resolvedAt }
      | _ => store.outbox }

def resolveTaskCandidate (candidateId : String) (accountGeneration : ℤ)
    (expectedTaskLinks : Option (Option String × Option String)) (now : ℚ) :
    Except CandidateError (CandidateStore × CandidateResolutionReceipt) := do
  let candidate ← store.loadCandidate candidateId accountGeneration
  if candidate.status = .accepted then
    let receipt ← knownReceipt ids candidate candidateId accountGeneration candidate.resultTaskId
      candidate.resultWorkstreamId
    return (store, receipt)
  else
    check (candidate.status == .pending) (.conflict ("Candidate already " ++ candidate.status.value))
    store.checkUnclaimed candidateId now
    let (written, taskId) ← store.acceptedTask ids candidate candidateId expectedTaskLinks
      accountGeneration now
    return (written.accept candidate candidateId taskId accountGeneration now,
      newReceipt ids candidateId accountGeneration .accepted (some taskId) now)

/-- `reason or fallback`. -/
def reasonOr (reason : Option String) (fallback : String) : String :=
  match reason with
  | none => fallback
  | some text => if text = "" then fallback else text

def resolveCandidateWithoutMutation (candidateId : String) (status : CandidateStatus)
    (reason : Option String) (accountGeneration : ℤ) (now : ℚ) :
    Except CandidateError (CandidateStore × CandidateResolutionReceipt) := do
  check (status == .rejected || status == .expired) (.value "status must be rejected or expired")
  let candidate ← store.loadCandidate candidateId accountGeneration
  if candidate.status = status then
    let receipt ← knownReceipt ids candidate candidateId accountGeneration none none
    return (store, receipt)
  else
    check (candidate.status == .pending) (.conflict ("Candidate already " ++ candidate.status.value))
    store.checkUnclaimed candidateId now
    let resolved := settle candidate status (reasonOr reason status.value) now
    return ({ store with candidates := store.candidates.set candidateId resolved },
      newReceipt ids candidateId accountGeneration status none now)

/-- What an active lease asks of the caller that reconciles its candidate. -/
def checkClaimedReconcile (claim : ResolutionClaim) (status : CandidateStatus)
    (resultTaskId claimToken : Option String) (now : ℚ) : Except CandidateError Unit := do
  check (claimToken == some claim.claimToken)
    (.conflict "Candidate resolution is claimed by another operation")
  check (claim.ownerIsActive now) (.conflict "Candidate resolution claim lease expired")
  check (claim.phase == .mutationStarted) (.conflict "Candidate legacy mutation has not started")
  check (status == .accepted && claim.resultTaskId == resultTaskId)
    (.conflict "Candidate resolution does not match the claimed legacy mutation")

/-- The lease of the candidate that keeps others from resolving it. -/
def blockingClaim (candidateId : String) (now : ℚ) : Option ResolutionClaim :=
  (store.resolutionClaims.get candidateId).filter (·.blocksResolution now)

/-- Whether the leases on the candidate let the caller reconcile it. -/
def checkReconcile (candidateId : String) (status : CandidateStatus)
    (resultTaskId claimToken : Option String) (now : ℚ) : Except CandidateError Unit :=
  match store.blockingClaim candidateId now with
  | some claim => checkClaimedReconcile claim status resultTaskId claimToken now
  | none => check claimToken.isNone (.conflict "Candidate resolution claim is missing")

def reconcileMigratedCandidate (candidateId : String) (status : CandidateStatus)
    (accountGeneration : ℤ) (resultTaskId reason : Option String) (resolvedAt : ℚ)
    (claimToken : Option String) : Except CandidateError (CandidateStore × CandidateRecord) := do
  check (status != .pending) (.value "migration reconciliation requires terminal status")
  check (status != .accepted || resultTaskId.any (· != ""))
    (.value "accepted migration requires result_task_id")
  let candidate ← store.loadCandidate candidateId accountGeneration
  if candidate.status = status then return (store, candidate)
  else
    check (candidate.status == .pending) (.conflict ("Candidate already " ++ candidate.status.value))
    store.checkReconcile candidateId status resultTaskId claimToken resolvedAt
    let patched := settle candidate status (reasonOr reason ("legacy_" ++ status.value)) resolvedAt
    let patched := { patched with
      resultTaskId := resultTaskId.filter (· != "") <|> candidate.resultTaskId }
    let reconciled ← parseStrict patched
    let claims := match claimToken, store.resolutionClaims.get candidateId with
      | some _, some claim =>
        store.resolutionClaims.set candidateId { claim with status := .consumed }
      | _, _ => store.resolutionClaims
    return ({ store with
        candidates := store.candidates.set candidateId reconciled
        resolutionClaims := claims }, reconciled)

/-! ### Legacy promotion -/

/-- `claim_candidate_for_legacy_promotion`, with the token that `uuid4` would give it. -/
def claimCandidateForLegacyPromotion (candidateId : String) (accountGeneration : ℤ) (now : ℚ)
    (leaseSeconds : ℤ) (resumeActiveClaim : Bool) (token : String) :
    Except CandidateError (CandidateStore × String) := do
  let candidate ← store.loadCandidate candidateId accountGeneration
  check (candidate.status == .pending) (.conflict ("Candidate already " ++ candidate.status.value))
  let leaseExpiresAt := now + leaseSeconds
  let first : ResolutionClaim := { candidateId, claimToken := token, accountGeneration, leaseExpiresAt }
  let claimed : CandidateStore × String :=
    ({ store with resolutionClaims := store.resolutionClaims.set candidateId first }, token)
  match store.resolutionClaims.get candidateId with
  | none => return claimed
  | some claim =>
    if claim.ownerIsActive now then
      if resumeActiveClaim then return (store, claim.claimToken)
      else .error (.conflict "Candidate has an active resolution claim")
    else if claim.status = .active ∧ claim.phase = .mutationStarted then
      check (claim.resultTaskId.any (· != ""))
        (.conflict "Candidate mutation claim has no reserved task")
      let reclaimed := { claim with claimToken := token, leaseExpiresAt }
      return ({ store with
        resolutionClaims := store.resolutionClaims.set candidateId reclaimed }, token)
    else return claimed

/-- A task that a promotion may take over instead of creating one. -/
def TaskDoc.preferredIsActive (task : TaskDoc) : Bool :=
  task.completed == some false && !task.deleted.getD false && task.status.getD .active == .active

/-- The task that the promotion reserves. -/
def reservation (resultTaskId : String) (preferredExistingTaskId : Option String)
    (legacyMutationAlreadyCommitted : Bool) : LegacyPromotionReservation :=
  if legacyMutationAlreadyCommitted then { taskId := resultTaskId, kind := .committed }
  else match preferredExistingTaskId with
    | none => { taskId := resultTaskId, kind := .create }
    | some preferred =>
      if (store.tasks.get preferred).any TaskDoc.preferredIsActive then
        { taskId := preferred, kind := .existing }
      else { taskId := resultTaskId, kind := .create }

def beginCandidateLegacyPromotion (candidateId : String) (accountGeneration : ℤ)
    (claimToken resultTaskId : String) (preferredExistingTaskId : Option String)
    (legacyMutationAlreadyCommitted : Bool) (now : ℚ) (leaseSeconds : ℤ) :
    Except CandidateError (CandidateStore × LegacyPromotionReservation) := do
  check (resultTaskId != "") (.value "result_task_id is required")
  let candidate ← store.loadCandidate candidateId accountGeneration
  check (candidate.status == .pending) (.conflict ("Candidate already " ++ candidate.status.value))
  match store.resolutionClaims.get candidateId with
  | none => .error (.conflict "Candidate resolution claim is missing")
  | some claim =>
    check (claim.status == .active && claim.claimToken == claimToken)
      (.conflict "Candidate resolution is claimed by another operation")
    check (claim.ownerIsActive now) (.conflict "Candidate resolution claim lease expired")
    match claim.phase with
    | .mutationStarted =>
      match claim.resultTaskId.filter (· != "") with
      | none => .error (.conflict "Candidate mutation claim has no reserved task")
      | some taskId =>
        match claim.reservationKind with
        | none => .error (.conflict "Candidate mutation claim has no reservation kind")
        | some kind => return (store, { taskId, kind })
    | .preMutation =>
      let reserved := store.reservation resultTaskId preferredExistingTaskId
        legacyMutationAlreadyCommitted
      let begun := { claim with
        phase := .mutationStarted
        resultTaskId := some reserved.taskId
        reservationKind := some reserved.kind
        leaseExpiresAt := now + leaseSeconds }
      return ({ store with
        resolutionClaims := store.resolutionClaims.set candidateId begun }, reserved)

end CandidateStore

/-! ### The calls -/

/-- The calls, and what other parts of the program write of the documents that these read. -/
inductive CandidateCall where
  | create (proposal : CandidateCreate) (idempotencyKey : String) (accountGeneration : ℤ) (now : ℚ)
  | resolveTask (candidateId : String) (accountGeneration : ℤ)
      (expectedTaskLinks : Option (Option String × Option String)) (now : ℚ)
  | resolveWithoutMutation (candidateId : String) (status : CandidateStatus)
      (reason : Option String) (accountGeneration : ℤ) (now : ℚ)
  | reconcileMigrated (candidateId : String) (status : CandidateStatus) (accountGeneration : ℤ)
      (resultTaskId reason : Option String) (resolvedAt : ℚ) (claimToken : Option String)
  | claimLegacyPromotion (candidateId : String) (accountGeneration : ℤ) (now : ℚ)
      (leaseSeconds : ℤ) (resumeActiveClaim : Bool) (token : String)
  | beginLegacyPromotion (candidateId : String) (accountGeneration : ℤ)
      (claimToken resultTaskId : String) (preferredExistingTaskId : Option String)
      (legacyMutationAlreadyCommitted : Bool) (now : ℚ) (leaseSeconds : ℤ)
  | edit (tasks : Table TaskDoc) (goals : Table GoalDoc) (workstreams : Table WorkstreamDoc)

inductive CandidateReply where
  | created (candidate : CandidateRecord)
  | resolved (receipt : CandidateResolutionReceipt)
  | reconciled (candidate : CandidateRecord)
  | claimed (token : String)
  | begun (reservation : LegacyPromotionReservation)
  | edited
  | failed (error : CandidateError)

/-- A transaction that raises writes nothing. -/
def CandidateStore.commit {α : Type} (store : CandidateStore) (reply : α → CandidateReply) :
    Except CandidateError (CandidateStore × α) → CandidateStore × CandidateReply
  | .ok (next, result) => (next, reply result)
  | .error error => (store, .failed error)

/-- The candidates of one user under the calls. -/
def candidateStore (ids : IdScheme) : Machine CandidateStore CandidateCall CandidateReply where
  step store call :=
    match call with
    | .create proposal idempotencyKey accountGeneration now =>
      store.commit .created
        (store.createCandidate ids proposal idempotencyKey accountGeneration now)
    | .resolveTask candidateId accountGeneration expectedTaskLinks now =>
      store.commit .resolved
        (store.resolveTaskCandidate ids candidateId accountGeneration expectedTaskLinks now)
    | .resolveWithoutMutation candidateId status reason accountGeneration now =>
      store.commit .resolved
        (store.resolveCandidateWithoutMutation ids candidateId status reason accountGeneration now)
    | .reconcileMigrated candidateId status accountGeneration resultTaskId reason resolvedAt
        claimToken =>
      store.commit .reconciled (store.reconcileMigratedCandidate candidateId status
        accountGeneration resultTaskId reason resolvedAt claimToken)
    | .claimLegacyPromotion candidateId accountGeneration now leaseSeconds resumeActiveClaim
        token =>
      store.commit .claimed (store.claimCandidateForLegacyPromotion candidateId accountGeneration
        now leaseSeconds resumeActiveClaim token)
    | .beginLegacyPromotion candidateId accountGeneration claimToken resultTaskId
        preferredExistingTaskId legacyMutationAlreadyCommitted now leaseSeconds =>
      store.commit .begun (store.beginCandidateLegacyPromotion candidateId accountGeneration
        claimToken resultTaskId preferredExistingTaskId legacyMutationAlreadyCommitted now
        leaseSeconds)
    | .edit tasks goals workstreams => ({ store with tasks, goals, workstreams }, .edited)

end Omi.Candidates
