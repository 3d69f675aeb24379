import Mathlib
import Omi.Foundation.PyText

/-! Proactive intents and deferred questions, with the delivery attempts and the turn budget that
are kept beside them. Instants are seconds. -/
namespace Omi.ChatFirst
open Omi.Foundation

inductive SubjectKind where
  | task | goal | capture | coldStart
deriving DecidableEq, Repr

structure ChatFirstSubject where
  kind : SubjectKind
  id : String
deriving DecidableEq, Repr

structure QuestionOption where
  optionId : String
  label : String
  preparedAnswer : String
  isDefer : Bool := false
deriving DecidableEq, Repr

structure ColdStartSequence where
  sequenceId : String
  step : ℕ
deriving DecidableEq, Repr

structure QuestionCardSpec where
  questionId : String
  text : String
  subject : ChatFirstSubject
  options : List QuestionOption
  coldStartSequence : Option ColdStartSequence := none
deriving DecidableEq, Repr

structure ConversationLinkActionItemSpec where
  description : String
  taskId : Option String := none
deriving DecidableEq, Repr

inductive ChatFirstBlockSpec where
  | questionCard (question : QuestionCardSpec)
  | taskCard (taskId : String)
  | goalLink (goalId summary : String)
  | captureLink (conversationId : String) (momentTimestampMs : Option ℕ) (summary : String)
  | conversationLink (conversationId summary : String)
      (recommendedActionItems : List ConversationLinkActionItemSpec)
  | memoryLink (memoryId summary : String)
deriving DecidableEq, Repr

inductive IntentSource where
  | dailyOpener | captureArrival | deferralReraise | agentJudgment | coldStartRich
  | coldStartSparse
deriving DecidableEq, Repr

def IntentSource.value : IntentSource → String
  | .dailyOpener => "daily_opener"
  | .captureArrival => "capture_arrival"
  | .deferralReraise => "deferral_reraise"
  | .agentJudgment => "agent_judgment"
  | .coldStartRich => "cold_start_rich"
  | .coldStartSparse => "cold_start_sparse"

inductive DeliveryState where
  | ready | pendingKernelReceipt | delivered | deadLetter
deriving DecidableEq, Repr

inductive SequenceTerminalState where
  | completed | abandoned
deriving DecidableEq, Repr

/-- `DeliveryAttemptState`: the counters of an intent, as its sibling document has them. -/
structure DeliveryAttempt where
  fetchCount : ℤ := 0
  lastFetchedAt : Option ℚ := none
  requeueCount : ℤ := 0
  materializationAttempts : ℤ := 0
  lastRejectionCode : Option String := none
  lastRejectionAt : Option ℚ := none
  firstDeferredAt : Option ℚ := none
  lastDeferralAt : Option ℚ := none
deriving DecidableEq, Repr

structure ProactiveIntent where
  intentId : String
  continuityKey : String
  accountGeneration : ℤ
  source : IntentSource
  subject : Option ChatFirstSubject := none
  blocks : List ChatFirstBlockSpec
  deliveryState : DeliveryState := .ready
  createdAt : ℚ
  deliveredAt : Option ℚ := none
  materializationReceiptId : Option String := none
  attempt : DeliveryAttempt := {}
  deadLetterReason : Option String := none
  coldStartSequenceTerminalState : Option SequenceTerminalState := none
  coldStartSequenceTerminalReceiptId : Option String := none
deriving DecidableEq, Repr

namespace ProactiveIntent

def consumesTurnBudget (intent : ProactiveIntent) : Bool := intent.source == .agentJudgment

/-- The intent is to be materialized. -/
def active (intent : ProactiveIntent) : Bool :=
  intent.deliveryState == .ready || intent.deliveryState == .pendingKernelReceipt

/-- `validate_cold_start_sequence_state`, and the bounds on the blocks. -/
def valid (intent : ProactiveIntent) : Bool :=
  (1 ≤ intent.blocks.length && intent.blocks.length ≤ 8) &&
    intent.coldStartSequenceTerminalReceiptId.isSome ==
      intent.coldStartSequenceTerminalState.isSome &&
    (if intent.source = .coldStartSparse then intent.subject.any (·.kind == .coldStart)
    else intent.coldStartSequenceTerminalReceiptId.isNone)

/-- `_intent_payload`: what older readers parse carries no delivery fields. -/
def payload (intent : ProactiveIntent) : ProactiveIntent :=
  if intent.deliveryState = .deadLetter then intent
  else { intent with attempt := {}, deadLetterReason := none }

@[simp] theorem payload_deliveryState (intent : ProactiveIntent) :
    intent.payload.deliveryState = intent.deliveryState := by
  unfold payload
  split_ifs <;> rfl

@[simp] theorem payload_materializationReceiptId (intent : ProactiveIntent) :
    intent.payload.materializationReceiptId = intent.materializationReceiptId := by
  unfold payload
  split_ifs <;> rfl

@[simp] theorem payload_source (intent : ProactiveIntent) :
    intent.payload.source = intent.source := by
  unfold payload
  split_ifs <;> rfl

@[simp] theorem payload_accountGeneration (intent : ProactiveIntent) :
    intent.payload.accountGeneration = intent.accountGeneration := by
  unfold payload
  split_ifs <;> rfl

theorem payload_attempt {intent : ProactiveIntent} (h : intent.deliveryState ≠ .deadLetter) :
    intent.payload.attempt = {} := by
  rw [payload, if_neg h]

@[simp] theorem payload_active (intent : ProactiveIntent) :
    intent.payload.active = intent.active := by
  unfold active
  rw [payload_deliveryState]

theorem active_ne_deadLetter {intent : ProactiveIntent} (h : intent.active = true) :
    intent.deliveryState ≠ .deadLetter := by
  intro hdead
  simp [active, hdead] at h

end ProactiveIntent

/-! ### Delivery attempts -/

def unacknowledgedFetchBudget : ℤ := 20

def materializationRejectionBudget : ℤ := 3

/-- The pattern of a rejection code. -/
def isRejectionCode (code : String) : Bool :=
  1 ≤ code.length && code.length ≤ 64 &&
    code.toList.all fun c => c.isLower || c.isDigit || c == '_'

namespace DeliveryAttempt

/-- A count of repairs is one of a repair at most. -/
def validRequeueCount (attempt : DeliveryAttempt) : Bool :=
  0 ≤ attempt.requeueCount && attempt.requeueCount ≤ 1

/-- The sibling document parses. -/
def valid (attempt : DeliveryAttempt) : Bool :=
  0 ≤ attempt.fetchCount && attempt.validRequeueCount && 0 ≤ attempt.materializationAttempts &&
    attempt.lastRejectionCode.all isRejectionCode

theorem valid_iff (attempt : DeliveryAttempt) :
    attempt.valid = true ↔ 0 ≤ attempt.fetchCount ∧ 0 ≤ attempt.requeueCount ∧
      attempt.requeueCount ≤ 1 ∧ 0 ≤ attempt.materializationAttempts ∧
      attempt.lastRejectionCode.all isRejectionCode = true := by
  simp only [valid, validRequeueCount, Bool.and_eq_true, decide_eq_true_iff, and_assoc]

/-- `reset_malformed_delivery_attempt`: each field that is valid alone stays, and the fetch is
spent. -/
def resetMalformed (raw : DeliveryAttempt) (now : ℚ) : DeliveryAttempt :=
  let preservedRequeueCount := if raw.validRequeueCount then raw.requeueCount else 0
  let preservedFetchCount :=
    if 0 ≤ raw.fetchCount then raw.fetchCount
    else if 0 < preservedRequeueCount then unacknowledgedFetchBudget - 1 else 0
  { raw with
    fetchCount := preservedFetchCount + 1
    lastFetchedAt := some now
    requeueCount := preservedRequeueCount
    materializationAttempts :=
      if 0 ≤ raw.materializationAttempts then raw.materializationAttempts else 0
    lastRejectionCode := raw.lastRejectionCode.filter isRejectionCode }

/-- One more fetch. -/
def fetched (attempt : DeliveryAttempt) (now : ℚ) : DeliveryAttempt :=
  { attempt with fetchCount := attempt.fetchCount + 1, lastFetchedAt := some now }

/-- The counters of an intent that is made ready again. -/
def requeued (attempt : DeliveryAttempt) : DeliveryAttempt :=
  { attempt with
    fetchCount := 0
    requeueCount := 1
    materializationAttempts := 0
    lastRejectionCode := none
    lastRejectionAt := none }

end DeliveryAttempt

def unacknowledgedDeadLetterReason : String := "unacknowledged_after_fetch_budget"

def transientDeathAfterRequeueReason : String := "transient_death_after_requeue"

def transientDeadLetterReasons : List String :=
  [unacknowledgedDeadLetterReason, "permanent_rejection:kernel_materialization_failed"]

def permanentRejectionCodes : List String := ["invalid_intent", "identity_conflict"]

/-- `TRANSIENT_DEAD_LETTER_REPAIR_AGE`: six hours. -/
def transientDeadLetterRepairAge : ℚ := 6 * 60 * 60

/-- `CONTINUOUS_DEFERRAL_BUDGET`: seven days. -/
def continuousDeferralBudget : ℚ := 7 * 24 * 60 * 60

/-! ### Turn budget -/

structure BudgetReservation where
  intentId : String
  expiresAt : ℚ
deriving DecidableEq, Repr

structure BudgetState where
  accountGeneration : ℤ
  materializedAt : List ℚ := []
  reservations : List BudgetReservation := []
deriving DecidableEq, Repr

def dailyProactiveTurnLimit : ℕ := 10

def rolling30MinuteProactiveTurnLimit : ℕ := 2

/-- The number of the day in UTC. -/
def dayOf (instant : ℚ) : ℤ := ⌊instant / (24 * 60 * 60)⌋

namespace BudgetState

/-- `normalized_budget_state`. -/
def normalized (state : BudgetState) (now : ℚ) : BudgetState where
  accountGeneration := state.accountGeneration
  materializedAt := state.materializedAt.filter fun turn => now - 2 * 24 * 60 * 60 ≤ turn
  reservations := state.reservations.filter fun reservation => now < reservation.expiresAt

/-- `budget_allows`. -/
def allows (state : BudgetState) (now : ℚ) : Bool :=
  let normalized := state.normalized now
  let dailyTurns := normalized.materializedAt.countP fun turn => dayOf turn == dayOf now
  let recentTurns := normalized.materializedAt.countP fun turn => now - 30 * 60 < turn
  let reservedTurns := normalized.reservations.length
  dailyTurns + reservedTurns < dailyProactiveTurnLimit &&
    recentTurns + reservedTurns < rolling30MinuteProactiveTurnLimit

/-- `reserve_budget`, unless the budget is exhausted. -/
def reserve (state : BudgetState) (intentId : String) (now : ℚ) : Option BudgetState :=
  let normalized := state.normalized now
  if normalized.reservations.any (·.intentId == intentId) then some normalized
  else if normalized.allows now then
    some { normalized with
      reservations := normalized.reservations ++
        [{ intentId, expiresAt := now + 24 * 60 * 60 }] }
  else none

/-- `account_materialization`: the reservation becomes a turn. -/
def accountMaterialization (state : BudgetState) (intentId : String) (now : ℚ) : BudgetState :=
  let normalized := state.normalized now
  { normalized with
    reservations := normalized.reservations.filter (·.intentId != intentId)
    materializedAt := normalized.materializedAt ++ [now] }

end BudgetState

/-! ### Deferrals and ids -/

inductive DeferralState where
  | pending | released
deriving DecidableEq, Repr

structure ProactiveDeferral where
  deferralId : String
  continuityKey : String
  accountGeneration : ℤ
  subject : ChatFirstSubject
  question : QuestionCardSpec
  createdAt : ℚ
  dueAt : ℚ
  state : DeferralState := .pending
  releasedIntentId : Option String := none
deriving DecidableEq, Repr

/-- The user, and `sha256(..).hexdigest()`. -/
structure IntentIds where
  uid : String
  hexdigest : String → String

namespace IntentIds
variable (ids : IntentIds)

def stableId (kind : String) (parts : List String) : String :=
  kind ++ "_" ++ firstChars 32 (ids.hexdigest ("\x1f".intercalate parts))

def proactiveIntentId (accountGeneration : ℤ) (sourceKey continuityKey : String) : String :=
  ids.stableId "cfi" [ids.uid, toString accountGeneration, sourceKey, continuityKey]

def proactiveDeferralId (accountGeneration : ℤ) (continuityKey : String) : String :=
  ids.stableId "cfd" [ids.uid, toString accountGeneration, continuityKey]

def syntheticReconciliationReceiptId (intentId : String) : String :=
  "cfi_reconciled_" ++ firstChars 24 (ids.hexdigest intentId)

end IntentIds

end Omi.ChatFirst
