import Mathlib
import Omi.Foundation.Checks
import Omi.Foundation.Machine
import Omi.Foundation.Table
import Omi.ChatFirst.Intents

/-! The user's intents, dead letters, delivery attempts, deferrals and turn budget, and the
transactions on them. Each call is one transaction, so a serial order of calls stands for every
interleaving. -/
namespace Omi.ChatFirst
open Omi.Foundation

structure IntentStore where
  control : Option ℤ := none
  intents : Table ProactiveIntent := []
  deadLetters : Table ProactiveIntent := []
  attempts : Table DeliveryAttempt := []
  deferrals : Table ProactiveDeferral := []
  budget : Option BudgetState := none

inductive IntentError where
  | value (message : String)
  | generationMismatch (message : String)
  | documentGenerationMismatch (message : String)
  | malformed (message : String)
  | conflict (message : String)
  | budgetExhausted (message : String)
  | notReady (message : String)
deriving DecidableEq, Repr

structure IntentLifecycleEvent where
  event : String
  source : IntentSource
  reason : String
deriving DecidableEq, Repr

structure AgentJudgmentAdmission where
  existingIntent : Option ProactiveIntent
  newlyReserved : Bool
deriving DecidableEq, Repr

structure DeferralReceipt where
  deferralId : String
  dueAt : ℚ
  state : DeferralState
deriving DecidableEq, Repr

namespace IntentStore
variable (ids : IntentIds) (store : IntentStore)

/-- `TaskWorkflowControl().account_generation` where there is no document. -/
def controlGeneration : ℤ := store.control.getD 0

/-- `_require_control`. -/
def requireControl (accountGeneration : ℤ) : Except IntentError Unit :=
  check (store.controlGeneration == accountGeneration)
    (.generationMismatch "chat-first capability changed")

/-- `_budget_from_snapshot`. -/
def budgetFromSnapshot (accountGeneration : ℤ) (now : ℚ) : Except IntentError BudgetState :=
  match store.budget with
  | none => .ok { accountGeneration }
  | some state =>
    if state.materializedAt.length ≤ 64 ∧ state.reservations.length ≤ 16 then
      .ok (if state.accountGeneration = accountGeneration then state.normalized now
        else { accountGeneration })
    else .error (.malformed "chat-first proactive budget state is malformed")

/-- `_intent_with_delivery_attempt`. -/
def withDeliveryAttempt (intentId : String) (intent : ProactiveIntent) :
    Except IntentError ProactiveIntent :=
  match store.attempts.get intentId with
  | none => .ok intent
  | some attempt =>
    if attempt.valid then .ok { intent with attempt }
    else .error (.malformed "chat-first delivery attempt state is malformed")

/-- The sibling document of an intent under a merge. -/
def mergeAttempt (intentId : String) (patch : DeliveryAttempt → DeliveryAttempt) :
    Table DeliveryAttempt :=
  store.attempts.set intentId (patch ((store.attempts.get intentId).getD {}))

/-- `move_to_dead_letters`. -/
def moveToDeadLetters (intentId : String) (intent : ProactiveIntent) (terminalAt : ℚ) :
    IntentStore :=
  let lastFetchedAt := some (intent.attempt.lastFetchedAt.getD terminalAt)
  { store with
    deadLetters := store.deadLetters.set intentId
      { intent with attempt := { intent.attempt with lastFetchedAt } }
    intents := store.intents.erase intentId }

/-! ### Agent judgments -/

def admitAgentJudgment (continuityKey : String) (subject : ChatFirstSubject)
    (accountGeneration : ℤ) (now : ℚ) :
    Except IntentError (IntentStore × AgentJudgmentAdmission) := do
  let intentId := ids.proactiveIntentId accountGeneration "agent_judgment" continuityKey
  store.requireControl accountGeneration
  match store.intents.get intentId with
  | some existing =>
    check (existing.accountGeneration == accountGeneration && existing.source == .agentJudgment &&
        existing.continuityKey == continuityKey && existing.subject == some subject)
      (.conflict "agent judgment continuity key was reused")
    return (store, { existingIntent := some existing, newlyReserved := false })
  | none =>
    let budget ← store.budgetFromSnapshot accountGeneration now
    if budget.reservations.any (·.intentId == intentId) then
      return (store, { existingIntent := none, newlyReserved := false })
    else match budget.reserve intentId now with
      | none => .error (.budgetExhausted "proactive turn budget exhausted")
      | some reserved =>
        return ({ store with budget := some reserved },
          { existingIntent := none, newlyReserved := true })

def releaseAgentJudgmentAdmission (continuityKey : String) (accountGeneration : ℤ) (now : ℚ) :
    Except IntentError (IntentStore × Unit) := do
  let intentId := ids.proactiveIntentId accountGeneration "agent_judgment" continuityKey
  store.requireControl accountGeneration
  if (store.intents.get intentId).isSome then return (store, ())
  else
    let budget ← store.budgetFromSnapshot accountGeneration now
    let reservations := budget.reservations.filter (·.intentId != intentId)
    if reservations.length = budget.reservations.length then return (store, ())
    else return ({ store with budget := some { budget with reservations } }, ())

/-! ### Creation -/

/-- The intent there is under the id of the one asked for is that one. -/
def sameIntent (existing intent : ProactiveIntent) : Except IntentError Unit :=
  check (existing.accountGeneration == intent.accountGeneration &&
      existing.source == intent.source && existing.continuityKey == intent.continuityKey &&
      existing.subject == intent.subject && existing.blocks == intent.blocks)
    (.conflict "intent continuity key was reused with different content")

/-- The budget with a slot for the intent, if it takes one. -/
def reserveFor (intent : ProactiveIntent) (now : ℚ) : Except IntentError (Option BudgetState) :=
  if intent.consumesTurnBudget then do
    let budget ← store.budgetFromSnapshot intent.accountGeneration now
    match budget.reserve intent.intentId now with
    | none => .error (.budgetExhausted "proactive turn budget exhausted")
    | some reserved => return some reserved
  else .ok store.budget

def createIntent (source : IntentSource) (continuityKey : String)
    (subject : Option ChatFirstSubject) (blocks : List ChatFirstBlockSpec) (accountGeneration : ℤ)
    (now : ℚ) : Except IntentError (IntentStore × ProactiveIntent × Bool) := do
  let intent : ProactiveIntent :=
    { intentId := ids.proactiveIntentId accountGeneration source.value continuityKey
      continuityKey, accountGeneration, source, subject, blocks, createdAt := now }
  check intent.valid (.value "invalid proactive intent")
  store.requireControl accountGeneration
  match store.intents.get intent.intentId with
  | some existing =>
    sameIntent existing intent
    return (store, existing, false)
  | none =>
    match store.deadLetters.get intent.intentId with
    | some existing =>
      sameIntent existing intent
      return (store, existing, false)
    | none =>
      let budget ← store.reserveFor intent now
      return ({ store with
        intents := store.intents.set intent.intentId intent.payload
        budget }, intent, true)

def isColdStart (source : IntentSource) : Bool :=
  source == .coldStartRich || source == .coldStartSparse

/-- The intent that a cold start asks for. -/
def coldStartIntent (source : IntentSource) (continuityKey : String)
    (subject : Option ChatFirstSubject) (blocks : List ChatFirstBlockSpec) (accountGeneration : ℤ)
    (now : ℚ) : ProactiveIntent where
  intentId := ids.proactiveIntentId accountGeneration "cold_start" continuityKey
  continuityKey
  accountGeneration
  source
  subject
  blocks
  deliveryState := .pendingKernelReceipt
  createdAt := now

def getOrCreateColdStartIntent (source : IntentSource) (continuityKey : String)
    (subject : Option ChatFirstSubject) (blocks : List ChatFirstBlockSpec) (accountGeneration : ℤ)
    (now : ℚ) : Except IntentError (IntentStore × ProactiveIntent × Bool) := do
  check (isColdStart source) (.value "cold-start intents require a cold-start source")
  let intent := coldStartIntent ids source continuityKey subject blocks accountGeneration now
  check intent.valid (.value "invalid proactive intent")
  store.requireControl accountGeneration
  match store.intents.get intent.intentId with
  | some existing =>
    check (existing.accountGeneration == accountGeneration &&
        existing.continuityKey == continuityKey && isColdStart existing.source)
      (.conflict "cold-start continuity key was reused")
    return (store, existing, false)
  | none =>
    return ({ store with intents := store.intents.set intent.intentId intent.payload }, intent,
      true)

/-- `acknowledge_sparse_cold_start_sequence_terminal`. -/
def acknowledgeSequenceTerminal (sequenceId receiptId : String)
    (terminalState : SequenceTerminalState) (accountGeneration : ℤ) :
    Except IntentError (IntentStore × ProactiveIntent) := do
  check (sequenceId == "cold-start:" ++ toString accountGeneration)
    (.conflict "cold-start terminal sequence does not match generation")
  let intentId := ids.proactiveIntentId accountGeneration "cold_start" sequenceId
  store.requireControl accountGeneration
  match store.intents.get intentId with
  | none => .error (.notReady "cold-start intent is not ready")
  | some intent =>
    check (intent.accountGeneration == accountGeneration && intent.source == .coldStartSparse &&
        intent.subject == some { kind := .coldStart, id := sequenceId } &&
        intent.deliveryState == .delivered && intent.materializationReceiptId.isSome)
      (.notReady "cold-start sequence is not ready for terminal acknowledgement")
    if intent.coldStartSequenceTerminalReceiptId.isSome then
      check (intent.coldStartSequenceTerminalReceiptId == some receiptId &&
          intent.coldStartSequenceTerminalState == some terminalState)
        (.conflict "cold-start sequence was already terminalized differently")
      return (store, intent)
    else
      let terminalized := { intent with
        coldStartSequenceTerminalState := some terminalState
        coldStartSequenceTerminalReceiptId := some receiptId }
      return ({ store with intents := store.intents.set intentId terminalized.payload },
        terminalized)

/-! ### Delivery -/

/-- The budget with the turn of an intent, if it takes one. -/
def accountFor (intentId : String) (intent : ProactiveIntent) (accountGeneration : ℤ) (now : ℚ) :
    Except IntentError (Option BudgetState) :=
  if intent.consumesTurnBudget then do
    let budget ← store.budgetFromSnapshot accountGeneration now
    return some (budget.accountMaterialization intentId now)
  else .ok store.budget

/-- What a fetch hands out, with the event it reports. -/
abbrev Fetched := Option ProactiveIntent × Option IntentLifecycleEvent

/-- The sibling document of an intent after a fetch: one more, or reset where it is malformed. -/
def fetchedAttempt (intentId : String) (stored : ProactiveIntent) (now : ℚ) : DeliveryAttempt :=
  match store.attempts.get intentId with
  | none => { fetchCount := stored.attempt.fetchCount + 1, lastFetchedAt := some now }
  | some attempt => if attempt.valid then attempt.fetched now else attempt.resetMalformed now

/-- `_advance_fetched_intent`. -/
def advanceFetchedIntent (intentId : String) (accountGeneration : ℤ) (now : ℚ)
    (reconcile : Bool) : Except IntentError (IntentStore × Fetched) :=
  match store.intents.get intentId with
  | none => .ok (store, none, none)
  | some stored =>
    let malformedAttempt := (store.attempts.get intentId).any (!·.valid)
    let intent := if malformedAttempt then stored else
      { stored with attempt := (store.attempts.get intentId).getD stored.attempt }
    if intent.accountGeneration ≠ accountGeneration ∨ intent.active = false then
      .ok (store, none, none)
    else
      let attempt := store.fetchedAttempt intentId stored now
      let common := { intent.attempt with
        fetchCount := attempt.fetchCount, lastFetchedAt := some now }
      let advanced := { store with attempts := store.attempts.set intentId attempt }
      if reconcile then do
        let delivered := { intent with
          attempt := common
          deliveryState := .delivered
          deliveredAt := some now
          materializationReceiptId :=
            some (ids.syntheticReconciliationReceiptId intent.intentId) }
        let budget ← store.accountFor intentId intent accountGeneration now
        return ({ advanced with
            intents := store.intents.set intentId delivered.payload
            budget },
          none, some ⟨"reconciled", intent.source, "existing_chat_row"⟩)
      else if unacknowledgedFetchBudget ≤ attempt.fetchCount then
        let updated := if malformedAttempt then attempt else common
        let reason := if 0 < updated.requeueCount then transientDeathAfterRequeueReason
          else unacknowledgedDeadLetterReason
        let deadLettered := { intent with
          attempt := updated, deliveryState := .deadLetter, deadLetterReason := some reason }
        .ok (advanced.moveToDeadLetters intentId deadLettered now, none,
          some ⟨"dead_letter", intent.source, reason⟩)
      else
        .ok (advanced, some { intent with attempt := common },
          if malformedAttempt then
            some ⟨"malformed_attempt_reset", intent.source, "malformed_document"⟩
          else none)

/-- `record_materialization_rejection`. -/
def recordMaterializationRejection (intentId code : String) (accountGeneration : ℤ) (now : ℚ) :
    Except IntentError (IntentStore × Option ProactiveIntent × Option String) := do
  store.requireControl accountGeneration
  match store.intents.get intentId with
  | none => return (store, none, none)
  | some stored =>
    let intent ← store.withDeliveryAttempt intentId stored
    check (intent.accountGeneration == accountGeneration)
      (.documentGenerationMismatch "intent account generation changed")
    if intent.active = false ∨ code ∉ permanentRejectionCodes then return (store, some intent, none)
    else
      let attempts := intent.attempt.materializationAttempts + 1
      let rejection : DeliveryAttempt → DeliveryAttempt := fun attempt => { attempt with
        materializationAttempts := attempts
        lastRejectionCode := some code
        lastRejectionAt := some now }
      let recorded := { store with attempts := store.mergeAttempt intentId rejection }
      let rejected := { intent with attempt := rejection intent.attempt }
      if materializationRejectionBudget ≤ attempts then
        let reason := "permanent_rejection:" ++ code
        let deadLettered := { rejected with
          deliveryState := .deadLetter, deadLetterReason := some reason }
        return (recorded.moveToDeadLetters intentId deadLettered now, some deadLettered,
          some reason)
      else return (recorded, some rejected, none)

/-- `record_materialization_deferral`. -/
def recordMaterializationDeferral (intentId : String) (accountGeneration : ℤ) (now : ℚ) :
    Except IntentError (IntentStore × Option ProactiveIntent) := do
  store.requireControl accountGeneration
  match store.intents.get intentId with
  | none => return (store, none)
  | some stored =>
    let intent ← store.withDeliveryAttempt intentId stored
    check (intent.accountGeneration == accountGeneration)
      (.documentGenerationMismatch "intent account generation changed")
    if intent.active = false then return (store, some intent)
    else
      let firstDeferredAt := intent.attempt.firstDeferredAt.getD now
      let deferral : DeliveryAttempt → DeliveryAttempt := fun attempt => { attempt with
        firstDeferredAt := some firstDeferredAt, lastDeferralAt := some now }
      let recorded := { store with attempts := store.mergeAttempt intentId deferral }
      let deferred := { intent with attempt := deferral intent.attempt }
      if continuousDeferralBudget ≤ now - firstDeferredAt then
        let deadLettered := { deferred with
          deliveryState := .deadLetter, deadLetterReason := some "deferred_beyond_budget" }
        return (recorded.moveToDeadLetters intentId deadLettered now, some deadLettered)
      else return (recorded, some deferred)

/-- The intent is a dead letter among the intents that a late receipt may still deliver. -/
def repairsTransientDeadLetter (intent : ProactiveIntent) : Bool :=
  intent.deliveryState == .deadLetter &&
    intent.deadLetterReason.any (· ∈ transientDeadLetterReasons) && intent.attempt.requeueCount == 0

/-- `acknowledge_materialization`. -/
def acknowledgeMaterialization (intentId receiptId : String) (accountGeneration : ℤ) (now : ℚ) :
    Except IntentError (IntentStore × ProactiveIntent) := do
  store.requireControl accountGeneration
  match store.intents.get intentId with
  | none => .error (.notReady "proactive intent is not ready")
  | some stored =>
    let intent ← store.withDeliveryAttempt intentId stored
    check (intent.accountGeneration == accountGeneration)
      (.documentGenerationMismatch "intent account generation changed")
    if intent.deliveryState = .delivered then
      check (intent.materializationReceiptId == some receiptId ||
          "cfi_reconciled_".toList.isPrefixOf (intent.materializationReceiptId.getD "").toList)
        (.conflict "intent was delivered with a different receipt")
      return (store, intent)
    else if intent.deliveryState = .deadLetter ∧ repairsTransientDeadLetter intent = false then
      return (store, intent)
    else
      let delivered := { intent with
        deliveryState := .delivered
        deliveredAt := some now
        materializationReceiptId := some receiptId }
      let budget ← store.accountFor intentId intent accountGeneration now
      let attempts := if repairsTransientDeadLetter intent then
        store.mergeAttempt intentId fun attempt => { attempt with requeueCount := 1 }
        else store.attempts
      return ({ store with
        intents := store.intents.set intentId delivered.payload
        attempts
        budget }, delivered)

/-- `requeue_transient_dead_letter`. -/
def requeueTransientDeadLetter (intentId : String) (accountGeneration : ℤ) (now : ℚ) :
    Except IntentError (IntentStore × Option ProactiveIntent) :=
  match store.deadLetters.get intentId with
  | none => .ok (store, none)
  | some dead => do
    let intent ← store.withDeliveryAttempt intentId dead
    if intent.accountGeneration ≠ accountGeneration ∨ intent.deliveryState ≠ .deadLetter ∨
        intent.deadLetterReason.all (· ∉ transientDeadLetterReasons) ∨
        intent.attempt.requeueCount ≠ 0 then return (store, none)
    else match intent.attempt.lastRejectionAt <|> intent.attempt.lastFetchedAt with
      | none => return (store, none)
      | some terminalAt =>
        if now - terminalAt < transientDeadLetterRepairAge then return (store, none)
        else
          let requeued := { intent with
            deliveryState := .ready
            deadLetterReason := none
            attempt := { intent.attempt.requeued with lastFetchedAt := none } }
          return ({ store with
            intents := store.intents.set intentId requeued.payload
            attempts := store.mergeAttempt intentId DeliveryAttempt.requeued
            deadLetters := store.deadLetters.erase intentId }, some requeued)

/-! ### Deferrals -/

/-- `record_deferral`: a question comes back a day later. -/
def recordDeferral (continuityKey : String) (subject : ChatFirstSubject)
    (question : QuestionCardSpec) (accountGeneration : ℤ) (now : ℚ) :
    Except IntentError (IntentStore × DeferralReceipt × Bool) := do
  let deferralId := ids.proactiveDeferralId accountGeneration continuityKey
  store.requireControl accountGeneration
  match store.deferrals.get deferralId with
  | some existing =>
    check (existing.accountGeneration == accountGeneration &&
        existing.continuityKey == continuityKey && existing.subject == subject &&
        existing.question == question)
      (.conflict "deferral continuity key was reused with different content")
    return (store,
      { deferralId := existing.deferralId, dueAt := existing.dueAt, state := existing.state },
      false)
  | none =>
    let deferral : ProactiveDeferral :=
      { deferralId, continuityKey, accountGeneration, subject, question, createdAt := now
        dueAt := now + 24 * 60 * 60 }
    return ({ store with deferrals := store.deferrals.set deferralId deferral },
      { deferralId, dueAt := deferral.dueAt, state := .pending }, true)

/-- The intent that brings a deferred question back. -/
def reraisedIntent (deferred : ProactiveDeferral) (accountGeneration : ℤ) (now : ℚ) :
    ProactiveIntent where
  intentId := ids.proactiveIntentId accountGeneration "deferral_reraise" deferred.continuityKey
  continuityKey := deferred.continuityKey
  accountGeneration
  source := .deferralReraise
  subject := some deferred.subject
  blocks := [.questionCard { deferred.question with
    questionId := ids.stableId "qri" [deferred.question.questionId, deferred.deferralId] }]
  createdAt := now

/-- `_release_deferral_transaction`, with the deferral as the query found it. -/
def releaseDeferral (deferred : ProactiveDeferral) (accountGeneration : ℤ) (now : ℚ) :
    Except IntentError (IntentStore × Option ProactiveIntent) := do
  let intent := reraisedIntent ids deferred accountGeneration now
  store.requireControl accountGeneration
  match store.deferrals.get deferred.deferralId with
  | none => return (store, none)
  | some current =>
    if current.accountGeneration ≠ accountGeneration ∨ current.state ≠ .pending then
      return (store, none)
    else
      match store.intents.get intent.intentId with
      | some existing =>
        check (existing.source == .deferralReraise &&
            existing.continuityKey == current.continuityKey)
          (.conflict "deferral intent collision")
        let released := { current with
          state := .released, releasedIntentId := some existing.intentId }
        return ({ store with
          deferrals := store.deferrals.set deferred.deferralId released }, some existing)
      | none =>
        let released := { current with
          state := .released, releasedIntentId := some intent.intentId }
        return ({ store with
          intents := store.intents.set intent.intentId intent.payload
          deferrals := store.deferrals.set deferred.deferralId released }, some intent)

end IntentStore

/-! ### The calls -/

inductive IntentCall where
  | admitJudgment (continuityKey : String) (subject : ChatFirstSubject) (accountGeneration : ℤ)
      (now : ℚ)
  | releaseAdmission (continuityKey : String) (accountGeneration : ℤ) (now : ℚ)
  | create (source : IntentSource) (continuityKey : String) (subject : Option ChatFirstSubject)
      (blocks : List ChatFirstBlockSpec) (accountGeneration : ℤ) (now : ℚ)
  | coldStart (source : IntentSource) (continuityKey : String) (subject : Option ChatFirstSubject)
      (blocks : List ChatFirstBlockSpec) (accountGeneration : ℤ) (now : ℚ)
  | terminalize (sequenceId receiptId : String) (terminalState : SequenceTerminalState)
      (accountGeneration : ℤ)
  | advance (intentId : String) (accountGeneration : ℤ) (now : ℚ) (reconcile : Bool)
  | reject (intentId code : String) (accountGeneration : ℤ) (now : ℚ)
  | defer (intentId : String) (accountGeneration : ℤ) (now : ℚ)
  | acknowledge (intentId receiptId : String) (accountGeneration : ℤ) (now : ℚ)
  | requeue (intentId : String) (accountGeneration : ℤ) (now : ℚ)
  | recordDeferral (continuityKey : String) (subject : ChatFirstSubject)
      (question : QuestionCardSpec) (accountGeneration : ℤ) (now : ℚ)
  | release (deferred : ProactiveDeferral) (accountGeneration : ℤ) (now : ℚ)

inductive IntentReply where
  | admitted (admission : AgentJudgmentAdmission)
  | admissionReleased
  | created (intent : ProactiveIntent) (isNew : Bool)
  | terminalized (intent : ProactiveIntent)
  | advanced (intent : Option ProactiveIntent) (event : Option IntentLifecycleEvent)
  | rejected (intent : Option ProactiveIntent) (reason : Option String)
  | deferred (intent : Option ProactiveIntent)
  | acknowledged (intent : ProactiveIntent)
  | requeued (intent : Option ProactiveIntent)
  | deferralRecorded (receipt : DeferralReceipt) (isNew : Bool)
  | released (intent : Option ProactiveIntent)
  | failed (error : IntentError)

/-- A transaction that raises writes nothing. -/
def IntentStore.commit {α : Type} (store : IntentStore) (reply : α → IntentReply) :
    Except IntentError (IntentStore × α) → IntentStore × IntentReply
  | .ok (next, result) => (next, reply result)
  | .error error => (store, .failed error)

/-- The intents of one user under the calls. -/
def intentStore (ids : IntentIds) : Machine IntentStore IntentCall IntentReply where
  step store call :=
    match call with
    | .admitJudgment continuityKey subject accountGeneration now =>
      store.commit .admitted
        (store.admitAgentJudgment ids continuityKey subject accountGeneration now)
    | .releaseAdmission continuityKey accountGeneration now =>
      store.commit (fun _ => .admissionReleased)
        (store.releaseAgentJudgmentAdmission ids continuityKey accountGeneration now)
    | .create source continuityKey subject blocks accountGeneration now =>
      store.commit (fun result => .created result.1 result.2)
        (store.createIntent ids source continuityKey subject blocks accountGeneration now)
    | .coldStart source continuityKey subject blocks accountGeneration now =>
      store.commit (fun result => .created result.1 result.2)
        (store.getOrCreateColdStartIntent ids source continuityKey subject blocks
          accountGeneration now)
    | .terminalize sequenceId receiptId terminalState accountGeneration =>
      store.commit .terminalized
        (store.acknowledgeSequenceTerminal ids sequenceId receiptId terminalState
          accountGeneration)
    | .advance intentId accountGeneration now reconcile =>
      store.commit (fun result => .advanced result.1 result.2)
        (store.advanceFetchedIntent ids intentId accountGeneration now reconcile)
    | .reject intentId code accountGeneration now =>
      store.commit (fun result => .rejected result.1 result.2)
        (store.recordMaterializationRejection intentId code accountGeneration now)
    | .defer intentId accountGeneration now =>
      store.commit .deferred (store.recordMaterializationDeferral intentId accountGeneration now)
    | .acknowledge intentId receiptId accountGeneration now =>
      store.commit .acknowledged
        (store.acknowledgeMaterialization intentId receiptId accountGeneration now)
    | .requeue intentId accountGeneration now =>
      store.commit .requeued (store.requeueTransientDeadLetter intentId accountGeneration now)
    | .recordDeferral continuityKey subject question accountGeneration now =>
      store.commit (fun result => .deferralRecorded result.1 result.2)
        (store.recordDeferral ids continuityKey subject question accountGeneration now)
    | .release deferred accountGeneration now =>
      store.commit .released (store.releaseDeferral ids deferred accountGeneration now)

end Omi.ChatFirst
