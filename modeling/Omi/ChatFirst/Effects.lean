import Omi.ChatFirst.Store

/-! What each transaction of the intents does to the documents, guards included. -/
namespace Omi.ChatFirst
open Omi.Foundation

/-- A fetch handed the intent out. -/
def handsOut (intentId : String) : IntentCall × IntentReply → Bool
  | (.advance fetchedId _ _ _, .advanced (some _) _) => fetchedId == intentId
  | _ => false

/-- A repair made the dead letter ready again. -/
def requeues (intentId : String) : IntentCall × IntentReply → Bool
  | (.requeue requeuedId _ _, .requeued (some _)) => requeuedId == intentId
  | _ => false

/-- A deferral gave its intent back. -/
def releases (deferralId : String) : IntentCall × IntentReply → Bool
  | (.release deferred _ _, .released (some _)) => deferred.deferralId == deferralId
  | _ => false

/-- Nothing is handed out or made ready again. -/
def Quiet (event : IntentCall × IntentReply) : Prop :=
  ∀ intentId, handsOut intentId event = false ∧ requeues intentId event = false

/-- The intent that the call may deliver. -/
def IntentCall.delivers : IntentCall → Option String
  | .advance intentId _ _ _ | .acknowledge intentId _ _ _ => some intentId
  | _ => none

/-- The call is one on deferrals. -/
def IntentCall.onDeferral : IntentCall → Bool
  | .recordDeferral .. | .release .. => true
  | _ => false

namespace IntentStore
variable {ids : IntentIds} {store next : IntentStore} {call : IntentCall} {reply : IntentReply}

/-- The counters of an intent, all zero where it has none. -/
def attemptOf (store : IntentStore) (intentId : String) : DeliveryAttempt :=
  (store.attempts.get intentId).getD {}

/-- The turns on the budget. -/
def turns (store : IntentStore) : List ℚ := (store.budget.map (·.materializedAt)).getD []

/-- Every sibling document parses, and an intent that is stored is no dead letter and carries no
counters of its own. -/
structure Sound (store : IntentStore) : Prop where
  counted : ∀ intentId attempt, store.attempts.get intentId = some attempt → attempt.valid = true
  stored : ∀ intentId intent, store.intents.get intentId = some intent →
    intent.deliveryState ≠ .deadLetter ∧ intent.attempt = {}

theorem Sound.valid_attemptOf (h : Sound store) (intentId : String) :
    (store.attemptOf intentId).valid = true := by
  unfold attemptOf
  cases hattempt : store.attempts.get intentId with
  | none => rfl
  | some attempt => exact h.counted intentId attempt hattempt

/-- The call writes an intent anew whose dead letter is there. -/
def Recreates (ids : IntentIds) (store : IntentStore) : IntentCall → Prop
  | .coldStart source continuityKey subject blocks accountGeneration now =>
    let intent := coldStartIntent ids source continuityKey subject blocks accountGeneration now
    isColdStart source = true ∧ intent.valid = true ∧
      store.controlGeneration = accountGeneration ∧ store.intents.get intent.intentId = none ∧
        store.deadLetters.get intent.intentId ≠ none
  | .release deferred accountGeneration now =>
    let intent := reraisedIntent ids deferred accountGeneration now
    store.controlGeneration = accountGeneration ∧
      (∃ current, store.deferrals.get deferred.deferralId = some current ∧
        current.accountGeneration = accountGeneration ∧ current.state = .pending) ∧
      store.intents.get intent.intentId = none ∧ store.deadLetters.get intent.intentId ≠ none
  | _ => False

/-- The counters after a call that leaves the repairs of the intent alone. -/
def Counts (store : IntentStore) (intentId : String) (attempts : Table DeliveryAttempt) : Prop :=
  attempts = store.attempts ∨ ∃ attempt, attempts = store.attempts.set intentId attempt ∧
    attempt.valid = true ∧ attempt.requeueCount = (store.attemptOf intentId).requeueCount ∧
    (store.attemptOf intentId).fetchCount ≤ attempt.fetchCount

/-- What a call does: nothing to intents and dead letters, create an intent, count for an active
one, hand one out, bury one, deliver one, make a dead letter ready again, or annotate one that
is delivered. -/
inductive Effect (ids : IntentIds) (store : IntentStore) (call : IntentCall)
    (reply : IntentReply) : IntentStore → Prop where
  | rest (budget : Option BudgetState) (deferrals : Table ProactiveDeferral)
      (hquiet : Quiet (call, reply))
      (hturns : ((budget.map (·.materializedAt)).getD []).Sublist store.turns)
      (hdeferrals : call.onDeferral = false → deferrals = store.deferrals) :
      Effect ids store call reply { store with budget, deferrals }
  | create {intentId : String} {intent : ProactiveIntent} (budget : Option BudgetState)
      (deferrals : Table ProactiveDeferral) (hquiet : Quiet (call, reply))
      (hturns : ((budget.map (·.materializedAt)).getD []).Sublist store.turns)
      (hdeferrals : call.onDeferral = false → deferrals = store.deferrals)
      (hnew : store.intents.get intentId = none) (hactive : intent.active = true)
      (hplain : intent.attempt = {})
      (hdead : store.deadLetters.get intentId = none ∨ Recreates ids store call) :
      Effect ids store call reply
        { store with intents := store.intents.set intentId intent, budget, deferrals }
  | count {intentId : String} {attempts : Table DeliveryAttempt} (hquiet : Quiet (call, reply))
      (hcounts : store.Counts intentId attempts) :
      Effect ids store call reply { store with attempts }
  | handOut {intentId : String} {attempt : DeliveryAttempt} {accountGeneration : ℤ} {now : ℚ}
      {reconcile : Bool} (hcall : call = .advance intentId accountGeneration now reconcile)
      (hvalid : attempt.valid = true)
      (hrequeue : attempt.requeueCount = (store.attemptOf intentId).requeueCount)
      (hfetch : attempt.fetchCount = (store.attemptOf intentId).fetchCount + 1)
      (hbudget : attempt.fetchCount < unacknowledgedFetchBudget) :
      Effect ids store call reply
        { store with attempts := store.attempts.set intentId attempt }
  | bury {intentId : String} {intent dead : ProactiveIntent} {attempts : Table DeliveryAttempt}
      (hquiet : Quiet (call, reply)) (hintent : store.intents.get intentId = some intent)
      (hactive : intent.active = true) (hcounts : store.Counts intentId attempts) :
      Effect ids store call reply
        { store with
          intents := store.intents.erase intentId
          deadLetters := store.deadLetters.set intentId dead
          attempts }
  | deliver {intentId : String} {intent delivered : ProactiveIntent}
      {attempts : Table DeliveryAttempt} {budget : Option BudgetState}
      (hquiet : Quiet (call, reply)) (hcall : call.delivers = some intentId)
      (hintent : store.intents.get intentId = some intent) (hactive : intent.active = true)
      (hdelivered : delivered.deliveryState = .delivered) (hplain : delivered.attempt = {})
      (hcounts : store.Counts intentId attempts)
      (hbudget : intent.consumesTurnBudget = true ∨ budget = store.budget) :
      Effect ids store call reply
        { store with intents := store.intents.set intentId delivered, attempts, budget }
  | requeue {intentId : String} {dead ready : ProactiveIntent} {accountGeneration : ℤ} {now : ℚ}
      (hcall : call = .requeue intentId accountGeneration now)
      (hreply : ∃ requeued, reply = .requeued (some requeued))
      (hdead : store.deadLetters.get intentId = some dead)
      (hfirst : (store.attemptOf intentId).requeueCount = 0) (hactive : ready.active = true)
      (hplain : ready.attempt = {}) :
      Effect ids store call reply
        { store with
          intents := store.intents.set intentId ready
          attempts := store.mergeAttempt intentId DeliveryAttempt.requeued
          deadLetters := store.deadLetters.erase intentId }
  | annotate {intentId : String} {intent annotated : ProactiveIntent}
      (hquiet : Quiet (call, reply)) (hintent : store.intents.get intentId = some intent)
      (hdelivered : intent.deliveryState = .delivered)
      (hstate : annotated.deliveryState = intent.deliveryState)
      (hreceipt : annotated.materializationReceiptId = intent.materializationReceiptId)
      (hplain : annotated.attempt = {}) :
      Effect ids store call reply
        { store with intents := store.intents.set intentId annotated }

theorem Effect.idle (hquiet : Quiet (call, reply)) : Effect ids store call reply store :=
  .rest store.budget store.deferrals hquiet (List.Sublist.refl _) fun _ => rfl

theorem quiet_failed (error : IntentError) : Quiet (call, .failed error) := by
  intro intentId
  cases call <;> exact ⟨rfl, rfl⟩

/-- A call has the effect of the transaction that answers. -/
theorem effect_commit {α : Type} {toReply : α → IntentReply}
    {result : Except IntentError (IntentStore × α)}
    (h : ∀ next value, result = .ok (next, value) → Effect ids store call (toReply value) next) :
    Effect ids store call (store.commit toReply result).2 (store.commit toReply result).1 := by
  cases result with
  | error error => exact .idle (quiet_failed error)
  | ok answer => exact h answer.1 answer.2 rfl

/-! ### Budget -/

theorem budgetFromSnapshot_ok {accountGeneration : ℤ} {now : ℚ} {budget : BudgetState}
    (h : store.budgetFromSnapshot accountGeneration now = .ok budget) :
    budget.materializedAt.Sublist store.turns := by
  unfold budgetFromSnapshot at h
  unfold turns
  cases hbudget : store.budget with
  | none =>
    simp only [hbudget] at h
    cases h
    exact List.nil_sublist _
  | some state =>
    simp only [hbudget] at h
    split_ifs at h
    · cases h
      exact List.filter_sublist
    · cases h
      exact List.nil_sublist _

theorem reserve_some {state reserved : BudgetState} {intentId : String} {now : ℚ}
    (h : state.reserve intentId now = some reserved) :
    reserved.materializedAt.Sublist state.materializedAt := by
  unfold BudgetState.reserve at h
  simp only at h
  split_ifs at h
  · cases h
    exact List.filter_sublist
  · cases h
    exact List.filter_sublist

/-- Only an intent that takes a turn changes the budget when it is delivered. -/
theorem accountFor_ok {intentId : String} {intent : ProactiveIntent} {accountGeneration : ℤ}
    {now : ℚ} {budget : Option BudgetState}
    (h : store.accountFor intentId intent accountGeneration now = .ok budget) :
    intent.consumesTurnBudget = true ∨ budget = store.budget := by
  unfold accountFor at h
  split_ifs at h with hconsumes
  · exact .inl hconsumes
  · cases h
    exact .inr rfl

theorem reserveFor_ok {intent : ProactiveIntent} {now : ℚ} {budget : Option BudgetState}
    (h : store.reserveFor intent now = .ok budget) :
    ((budget.map (·.materializedAt)).getD []).Sublist store.turns := by
  unfold reserveFor at h
  split_ifs at h
  · obtain ⟨state, hstate, h⟩ := bind_eq_ok_iff.mp h
    cases hreserve : state.reserve intent.intentId now with
    | none => simp [hreserve] at h
    | some reserved =>
      simp only [hreserve] at h
      cases h
      exact (reserve_some hreserve).trans (budgetFromSnapshot_ok hstate)
  · cases h
    exact List.Sublist.refl _

/-! ### Judgments and creation -/

theorem admitAgentJudgment_effect {continuityKey : String} {subject : ChatFirstSubject}
    {accountGeneration : ℤ} {now : ℚ} {admission : AgentJudgmentAdmission}
    (h : store.admitAgentJudgment ids continuityKey subject accountGeneration now =
      .ok (next, admission)) :
    Effect ids store (.admitJudgment continuityKey subject accountGeneration now)
      (.admitted admission) next := by
  have hquiet : Quiet (.admitJudgment continuityKey subject accountGeneration now,
      .admitted admission) := fun _ => ⟨rfl, rfl⟩
  unfold admitAgentJudgment at h
  obtain ⟨_, -, h⟩ := bind_eq_ok_iff.mp h
  cases hintent : store.intents.get
      (ids.proactiveIntentId accountGeneration "agent_judgment" continuityKey) with
  | some existing =>
    simp only [hintent] at h
    obtain ⟨_, -, h⟩ := bind_eq_ok_iff.mp h
    cases h
    exact .idle hquiet
  | none =>
    simp only [hintent] at h
    obtain ⟨budget, hbudget, h⟩ := bind_eq_ok_iff.mp h
    split_ifs at h
    · cases h
      exact .idle hquiet
    · cases hreserve : budget.reserve
          (ids.proactiveIntentId accountGeneration "agent_judgment" continuityKey) now with
      | none => simp [hreserve] at h
      | some reserved =>
        simp only [hreserve] at h
        cases h
        exact .rest (some reserved) store.deferrals hquiet
          ((reserve_some hreserve).trans (budgetFromSnapshot_ok hbudget)) fun _ => rfl

theorem releaseAgentJudgmentAdmission_effect {continuityKey : String} {accountGeneration : ℤ}
    {now : ℚ} {value : Unit}
    (h : store.releaseAgentJudgmentAdmission ids continuityKey accountGeneration now =
      .ok (next, value)) :
    Effect ids store (.releaseAdmission continuityKey accountGeneration now) .admissionReleased
      next := by
  have hquiet : Quiet (.releaseAdmission continuityKey accountGeneration now,
      .admissionReleased) := fun _ => ⟨rfl, rfl⟩
  unfold releaseAgentJudgmentAdmission at h
  obtain ⟨_, -, h⟩ := bind_eq_ok_iff.mp h
  split_ifs at h
  · cases h
    exact .idle hquiet
  · obtain ⟨budget, hbudget, h⟩ := bind_eq_ok_iff.mp h
    have hturns := budgetFromSnapshot_ok hbudget
    simp only at h
    split_ifs at h
    · cases h
      exact .idle hquiet
    · cases h
      exact .rest (some _) store.deferrals hquiet hturns fun _ => rfl

theorem createIntent_effect {source : IntentSource} {continuityKey : String}
    {subject : Option ChatFirstSubject} {blocks : List ChatFirstBlockSpec} {accountGeneration : ℤ}
    {now : ℚ} {intent : ProactiveIntent} {isNew : Bool}
    (h : store.createIntent ids source continuityKey subject blocks accountGeneration now =
      .ok (next, intent, isNew)) :
    Effect ids store (.create source continuityKey subject blocks accountGeneration now)
      (.created intent isNew) next := by
  have hquiet : Quiet (.create source continuityKey subject blocks accountGeneration now,
      .created intent isNew) := fun _ => ⟨rfl, rfl⟩
  unfold createIntent at h
  obtain ⟨_, -, h⟩ := bind_eq_ok_iff.mp h
  obtain ⟨_, -, h⟩ := bind_eq_ok_iff.mp h
  cases hintent : store.intents.get
      (ids.proactiveIntentId accountGeneration source.value continuityKey) with
  | some existing =>
    simp only [hintent] at h
    obtain ⟨_, -, h⟩ := bind_eq_ok_iff.mp h
    cases h
    exact .idle hquiet
  | none =>
    simp only [hintent] at h
    cases hdead : store.deadLetters.get
        (ids.proactiveIntentId accountGeneration source.value continuityKey) with
    | some existing =>
      simp only [hdead] at h
      obtain ⟨_, -, h⟩ := bind_eq_ok_iff.mp h
      cases h
      exact .idle hquiet
    | none =>
      simp only [hdead] at h
      obtain ⟨budget, hbudget, h⟩ := bind_eq_ok_iff.mp h
      cases h
      exact .create budget store.deferrals hquiet (reserveFor_ok hbudget) (fun _ => rfl) hintent
        (by rw [ProactiveIntent.payload_active]; rfl) (ProactiveIntent.payload_attempt (by simp))
        (.inl hdead)

theorem getOrCreateColdStartIntent_effect {source : IntentSource} {continuityKey : String}
    {subject : Option ChatFirstSubject} {blocks : List ChatFirstBlockSpec} {accountGeneration : ℤ}
    {now : ℚ} {intent : ProactiveIntent} {isNew : Bool}
    (h : store.getOrCreateColdStartIntent ids source continuityKey subject blocks
      accountGeneration now = .ok (next, intent, isNew)) :
    Effect ids store (.coldStart source continuityKey subject blocks accountGeneration now)
      (.created intent isNew) next := by
  have hquiet : Quiet (.coldStart source continuityKey subject blocks accountGeneration now,
      .created intent isNew) := fun _ => ⟨rfl, rfl⟩
  unfold getOrCreateColdStartIntent at h
  obtain ⟨_, hsource, h⟩ := bind_eq_ok_iff.mp h
  obtain ⟨_, hvalid, h⟩ := bind_eq_ok_iff.mp h
  obtain ⟨_, hcontrol, h⟩ := bind_eq_ok_iff.mp h
  rw [requireControl, check_eq_ok_iff, beq_iff_eq] at hcontrol
  rw [check_eq_ok_iff] at hsource hvalid
  cases hintent : store.intents.get (coldStartIntent ids source continuityKey subject blocks
      accountGeneration now).intentId with
  | some existing =>
    simp only [hintent] at h
    obtain ⟨_, -, h⟩ := bind_eq_ok_iff.mp h
    cases h
    exact .idle hquiet
  | none =>
    simp only [hintent] at h
    cases h
    refine .create store.budget store.deferrals hquiet (List.Sublist.refl _) (fun _ => rfl) hintent
      ?_ ?_ ?_
    · rw [ProactiveIntent.payload_active]
      rfl
    · exact ProactiveIntent.payload_attempt (by simp [coldStartIntent])
    · by_cases hdead : store.deadLetters.get (coldStartIntent ids source continuityKey subject
          blocks accountGeneration now).intentId = none
      · exact .inl hdead
      · exact .inr ⟨hsource, hvalid, hcontrol, hintent, hdead⟩

theorem acknowledgeSequenceTerminal_effect {sequenceId receiptId : String}
    {terminalState : SequenceTerminalState} {accountGeneration : ℤ} {intent : ProactiveIntent}
    (h : store.acknowledgeSequenceTerminal ids sequenceId receiptId terminalState
      accountGeneration = .ok (next, intent)) :
    Effect ids store (.terminalize sequenceId receiptId terminalState accountGeneration)
      (.terminalized intent) next := by
  have hquiet : Quiet (.terminalize sequenceId receiptId terminalState accountGeneration,
      .terminalized intent) := fun _ => ⟨rfl, rfl⟩
  unfold acknowledgeSequenceTerminal at h
  obtain ⟨_, -, h⟩ := bind_eq_ok_iff.mp h
  obtain ⟨_, -, h⟩ := bind_eq_ok_iff.mp h
  cases hintent : store.intents.get (ids.proactiveIntentId accountGeneration "cold_start"
      sequenceId) with
  | none => simp [hintent] at h
  | some stored =>
    simp only [hintent] at h
    obtain ⟨_, hready, h⟩ := bind_eq_ok_iff.mp h
    rw [check_eq_ok_iff] at hready
    simp only [Bool.and_eq_true, beq_iff_eq] at hready
    have hdelivered : stored.deliveryState = .delivered := hready.1.2
    split_ifs at h
    · obtain ⟨_, -, h⟩ := bind_eq_ok_iff.mp h
      cases h
      exact .idle hquiet
    · cases h
      refine .annotate hquiet hintent hdelivered ?_ ?_ ?_
      · rw [ProactiveIntent.payload_deliveryState]
      · rw [ProactiveIntent.payload_materializationReceiptId]
      · exact ProactiveIntent.payload_attempt (by simp [hdelivered])

/-! ### Delivery -/

/-- What a transaction reads of an intent: the intent with its counters. -/
theorem withDeliveryAttempt_ok {intentId : String} {stored intent : ProactiveIntent}
    (hplain : stored.attempt = {}) (h : store.withDeliveryAttempt intentId stored = .ok intent) :
    intent = { stored with attempt := store.attemptOf intentId } := by
  unfold withDeliveryAttempt at h
  unfold attemptOf
  cases hattempt : store.attempts.get intentId with
  | none =>
    simp only [hattempt] at h
    cases h
    rw [Option.getD_none, ← hplain]
  | some attempt =>
    simp only [hattempt] at h
    split_ifs at h
    cases h
    rfl

theorem active_withAttempt (stored : ProactiveIntent) (attempt : DeliveryAttempt) :
    ({ stored with attempt } : ProactiveIntent).active = stored.active := rfl

/-- In a sound store the counters after a fetch are one more. -/
theorem fetchedAttempt_eq (hsound : Sound store) {intentId : String} {stored : ProactiveIntent}
    (hstored : store.intents.get intentId = some stored) (now : ℚ) :
    store.fetchedAttempt intentId stored now = (store.attemptOf intentId).fetched now := by
  unfold fetchedAttempt attemptOf
  cases hattempt : store.attempts.get intentId with
  | none =>
    rw [(hsound.stored intentId stored hstored).2]
    rfl
  | some attempt =>
    simp only [hsound.counted intentId attempt hattempt, if_true]
    rfl

theorem valid_fetched {attempt : DeliveryAttempt} (h : attempt.valid = true) (now : ℚ) :
    (attempt.fetched now).valid = true := by
  rw [DeliveryAttempt.valid_iff] at h ⊢
  obtain ⟨hfetch, hrest⟩ := h
  refine ⟨?_, hrest⟩
  simp only [DeliveryAttempt.fetched]
  omega

theorem counts_fetched (hsound : Sound store) (intentId : String) (now : ℚ) :
    store.Counts intentId
      (store.attempts.set intentId ((store.attemptOf intentId).fetched now)) := by
  refine .inr ⟨_, rfl, valid_fetched (hsound.valid_attemptOf intentId) now, rfl, ?_⟩
  simp only [DeliveryAttempt.fetched]
  omega

theorem counts_rejected (hsound : Sound store) (intentId : String) {code : String} (now : ℚ)
    (hcode : code ∈ permanentRejectionCodes) :
    store.Counts intentId (store.mergeAttempt intentId fun attempt => { attempt with
      materializationAttempts := (store.attemptOf intentId).materializationAttempts + 1
      lastRejectionCode := some code
      lastRejectionAt := some now }) := by
  have hvalid := hsound.valid_attemptOf intentId
  have hrejection : isRejectionCode code = true := by
    simp only [permanentRejectionCodes, List.mem_cons, List.not_mem_nil, or_false] at hcode
    rcases hcode with rfl | rfl <;> decide
  refine .inr ⟨_, rfl, ?_, rfl, le_rfl⟩
  change DeliveryAttempt.valid { store.attemptOf intentId with
    materializationAttempts := _, lastRejectionCode := _, lastRejectionAt := _ } = true
  rw [DeliveryAttempt.valid_iff] at hvalid ⊢
  obtain ⟨hfetch, hlow, hhigh, hattempts, -⟩ := hvalid
  exact ⟨hfetch, hlow, hhigh, by simp only; omega, hrejection⟩

theorem advanceFetchedIntent_effect (hsound : Sound store) {intentId : String}
    {accountGeneration : ℤ} {now : ℚ} {reconcile : Bool} {fetched : Fetched}
    (h : store.advanceFetchedIntent ids intentId accountGeneration now reconcile =
      .ok (next, fetched)) :
    Effect ids store (.advance intentId accountGeneration now reconcile)
      (.advanced fetched.1 fetched.2) next := by
  have hquiet : ∀ event, Quiet (.advance intentId accountGeneration now reconcile,
      .advanced none event) := fun _ _ => ⟨rfl, rfl⟩
  unfold advanceFetchedIntent at h
  cases hstored : store.intents.get intentId with
  | none =>
    simp only [hstored] at h
    cases h
    exact .idle (hquiet none)
  | some stored =>
    have hplain := (hsound.stored intentId stored hstored).2
    have hwell : (store.attempts.get intentId).any (!·.valid) = false := by
      cases hattempt : store.attempts.get intentId with
      | none => rfl
      | some attempt => simp [hsound.counted intentId attempt hattempt]
    simp only [hstored, hwell, Bool.false_eq_true, if_false] at h
    rw [fetchedAttempt_eq hsound hstored] at h
    split_ifs at h with hother hreconcile hspent hrequeued
    · cases h
      exact .idle (hquiet none)
    · obtain ⟨budget, hbudget, h⟩ := bind_eq_ok_iff.mp h
      cases h
      rw [not_or, Bool.not_eq_false] at hother
      refine .deliver (hquiet _) rfl hstored hother.2 ?_ ?_
        (counts_fetched hsound intentId now) (accountFor_ok hbudget)
      · rw [ProactiveIntent.payload_deliveryState]
      · exact ProactiveIntent.payload_attempt (by simp)
    · cases h
      rw [not_or, Bool.not_eq_false] at hother
      exact .bury (hquiet _) hstored hother.2 (counts_fetched hsound intentId now)
    · cases h
      rw [not_or, Bool.not_eq_false] at hother
      exact .bury (hquiet _) hstored hother.2 (counts_fetched hsound intentId now)
    · cases h
      exact .handOut rfl (valid_fetched (hsound.valid_attemptOf intentId) now) rfl rfl
        (not_le.mp hspent)

theorem recordMaterializationRejection_effect (hsound : Sound store) {intentId code : String}
    {accountGeneration : ℤ} {now : ℚ} {intent : Option ProactiveIntent} {reason : Option String}
    (h : store.recordMaterializationRejection intentId code accountGeneration now =
      .ok (next, intent, reason)) :
    Effect ids store (.reject intentId code accountGeneration now) (.rejected intent reason)
      next := by
  have hquiet : Quiet (.reject intentId code accountGeneration now,
      .rejected intent reason) := fun _ => ⟨rfl, rfl⟩
  unfold recordMaterializationRejection at h
  obtain ⟨_, -, h⟩ := bind_eq_ok_iff.mp h
  cases hstored : store.intents.get intentId with
  | none =>
    simp only [hstored] at h
    cases h
    exact .idle hquiet
  | some stored =>
    simp only [hstored] at h
    obtain ⟨read, hread, h⟩ := bind_eq_ok_iff.mp h
    obtain rfl := withDeliveryAttempt_ok (hsound.stored intentId stored hstored).2 hread
    obtain ⟨_, -, h⟩ := bind_eq_ok_iff.mp h
    simp only [active_withAttempt] at h
    split_ifs at h with hother hspent
    · cases h
      exact .idle hquiet
    · cases h
      rw [not_or, Bool.not_eq_false, not_not] at hother
      exact .bury hquiet hstored hother.1 (counts_rejected hsound intentId now hother.2)
    · cases h
      rw [not_or, Bool.not_eq_false, not_not] at hother
      exact .count hquiet (counts_rejected hsound intentId now hother.2)

theorem counts_deferred (hsound : Sound store) (intentId : String) (first now : ℚ) :
    store.Counts intentId (store.mergeAttempt intentId fun attempt => { attempt with
      firstDeferredAt := some first, lastDeferralAt := some now }) := by
  have hvalid := hsound.valid_attemptOf intentId
  refine .inr ⟨_, rfl, ?_, rfl, le_rfl⟩
  rw [DeliveryAttempt.valid_iff] at hvalid ⊢
  exact hvalid

theorem recordMaterializationDeferral_effect (hsound : Sound store) {intentId : String}
    {accountGeneration : ℤ} {now : ℚ} {intent : Option ProactiveIntent}
    (h : store.recordMaterializationDeferral intentId accountGeneration now = .ok (next, intent)) :
    Effect ids store (.defer intentId accountGeneration now) (.deferred intent) next := by
  have hquiet : Quiet (.defer intentId accountGeneration now, .deferred intent) :=
    fun _ => ⟨rfl, rfl⟩
  unfold recordMaterializationDeferral at h
  obtain ⟨_, -, h⟩ := bind_eq_ok_iff.mp h
  cases hstored : store.intents.get intentId with
  | none =>
    simp only [hstored] at h
    cases h
    exact .idle hquiet
  | some stored =>
    simp only [hstored] at h
    obtain ⟨read, hread, h⟩ := bind_eq_ok_iff.mp h
    obtain rfl := withDeliveryAttempt_ok (hsound.stored intentId stored hstored).2 hread
    obtain ⟨_, -, h⟩ := bind_eq_ok_iff.mp h
    simp only [active_withAttempt] at h
    split_ifs at h with hother hspent
    · cases h
      exact .idle hquiet
    · cases h
      rw [Bool.not_eq_false] at hother
      exact .bury hquiet hstored hother (counts_deferred hsound intentId _ now)
    · cases h
      exact .count hquiet (counts_deferred hsound intentId _ now)

/-- In a sound store the intents hold no dead letter for a late receipt to deliver. -/
theorem repairsTransientDeadLetter_eq_false {intent : ProactiveIntent}
    (h : intent.deliveryState ≠ .deadLetter) : repairsTransientDeadLetter intent = false := by
  simp [repairsTransientDeadLetter, h]

theorem acknowledgeMaterialization_effect (hsound : Sound store) {intentId receiptId : String}
    {accountGeneration : ℤ} {now : ℚ} {intent : ProactiveIntent}
    (h : store.acknowledgeMaterialization intentId receiptId accountGeneration now =
      .ok (next, intent)) :
    Effect ids store (.acknowledge intentId receiptId accountGeneration now)
      (.acknowledged intent) next := by
  have hquiet : Quiet (.acknowledge intentId receiptId accountGeneration now,
      .acknowledged intent) := fun _ => ⟨rfl, rfl⟩
  unfold acknowledgeMaterialization at h
  obtain ⟨_, -, h⟩ := bind_eq_ok_iff.mp h
  cases hstored : store.intents.get intentId with
  | none => simp [hstored] at h
  | some stored =>
    simp only [hstored] at h
    obtain ⟨hstate, hplain⟩ := hsound.stored intentId stored hstored
    obtain ⟨read, hread, h⟩ := bind_eq_ok_iff.mp h
    obtain rfl := withDeliveryAttempt_ok hplain hread
    obtain ⟨_, -, h⟩ := bind_eq_ok_iff.mp h
    have hrepairs : repairsTransientDeadLetter
        { stored with attempt := store.attemptOf intentId } = false :=
      repairsTransientDeadLetter_eq_false hstate
    simp only [hstate, hrepairs, false_and, if_false, Bool.false_eq_true] at h
    split_ifs at h with hdelivered
    · obtain ⟨_, -, h⟩ := bind_eq_ok_iff.mp h
      cases h
      exact .idle hquiet
    · obtain ⟨budget, hbudget, h⟩ := bind_eq_ok_iff.mp h
      cases h
      refine .deliver hquiet rfl hstored ?_ ?_ ?_ (.inl rfl) (accountFor_ok hbudget)
      · cases hready : stored.deliveryState with
        | ready => simp [ProactiveIntent.active, hready]
        | pendingKernelReceipt => simp [ProactiveIntent.active, hready]
        | delivered => exact absurd hready hdelivered
        | deadLetter => exact absurd hready hstate
      · rw [ProactiveIntent.payload_deliveryState]
      · exact ProactiveIntent.payload_attempt (by simp)

theorem requeueTransientDeadLetter_effect {intentId : String} {accountGeneration : ℤ} {now : ℚ}
    {intent : Option ProactiveIntent}
    (h : store.requeueTransientDeadLetter intentId accountGeneration now = .ok (next, intent)) :
    Effect ids store (.requeue intentId accountGeneration now) (.requeued intent) next := by
  have hquiet : Quiet (.requeue intentId accountGeneration now, .requeued none) :=
    fun _ => ⟨rfl, rfl⟩
  unfold requeueTransientDeadLetter at h
  cases hdead : store.deadLetters.get intentId with
  | none =>
    simp only [hdead] at h
    cases h
    exact .idle hquiet
  | some dead =>
    simp only [hdead] at h
    obtain ⟨read, hread, h⟩ := bind_eq_ok_iff.mp h
    split_ifs at h with hother
    · cases h
      exact .idle hquiet
    · cases hterminal : read.attempt.lastRejectionAt <|> read.attempt.lastFetchedAt with
      | none =>
        simp only [hterminal] at h
        cases h
        exact .idle hquiet
      | some terminalAt =>
        simp only [hterminal] at h
        split_ifs at h with hearly
        · cases h
          exact .idle hquiet
        · cases h
          refine .requeue rfl ⟨_, rfl⟩ hdead ?_ ?_ (ProactiveIntent.payload_attempt (by simp))
          · have hfirst : read.attempt.requeueCount = 0 := by
              by_contra hne
              exact hother (.inr (.inr (.inr hne)))
            unfold withDeliveryAttempt at hread
            unfold attemptOf
            cases hattempt : store.attempts.get intentId with
            | none => rfl
            | some attempt =>
              simp only [hattempt] at hread
              split_ifs at hread
              cases hread
              exact hfirst
          · rw [ProactiveIntent.payload_active]
            rfl

/-- Recording a deferral leaves one that is there, or adds a pending one. -/
theorem recordDeferral_ok {continuityKey : String} {subject : ChatFirstSubject}
    {question : QuestionCardSpec} {accountGeneration : ℤ} {now : ℚ}
    {result : DeferralReceipt × Bool}
    (h : store.recordDeferral ids continuityKey subject question accountGeneration now =
      .ok (next, result)) :
    next = store ∨
      (store.deferrals.get (ids.proactiveDeferralId accountGeneration continuityKey) = none ∧
        ∃ deferral : ProactiveDeferral, deferral.state = .pending ∧
          next =
            { store with
              deferrals := store.deferrals.set
                (ids.proactiveDeferralId accountGeneration continuityKey) deferral }) := by
  unfold recordDeferral at h
  obtain ⟨_, -, h⟩ := bind_eq_ok_iff.mp h
  cases hdeferral : store.deferrals.get (ids.proactiveDeferralId accountGeneration
      continuityKey) with
  | some existing =>
    simp only [hdeferral] at h
    obtain ⟨_, -, h⟩ := bind_eq_ok_iff.mp h
    cases h
    exact .inl rfl
  | none =>
    simp only [hdeferral] at h
    cases h
    exact .inr ⟨rfl, _, rfl, rfl⟩

/-- Releasing a deferral does nothing, or releases a pending one, with the intent that is there or
with a new one. -/
theorem releaseDeferral_ok {deferred : ProactiveDeferral} {accountGeneration : ℤ} {now : ℚ}
    {intent : Option ProactiveIntent}
    (h : store.releaseDeferral ids deferred accountGeneration now = .ok (next, intent)) :
    (next = store ∧ intent = none) ∨
      (store.requireControl accountGeneration = .ok () ∧
        ∃ current released : ProactiveDeferral,
          store.deferrals.get deferred.deferralId = some current ∧
          current.accountGeneration = accountGeneration ∧ current.state = .pending ∧
          released.state = .released ∧
          (next =
              { store with deferrals := store.deferrals.set deferred.deferralId released } ∨
            (store.intents.get (reraisedIntent ids deferred accountGeneration now).intentId =
                none ∧
              next =
                { store with
                  intents := store.intents.set
                    (reraisedIntent ids deferred accountGeneration now).intentId
                    (reraisedIntent ids deferred accountGeneration now).payload
                  deferrals := store.deferrals.set deferred.deferralId released }))) := by
  unfold releaseDeferral at h
  obtain ⟨_, hcontrol, h⟩ := bind_eq_ok_iff.mp h
  cases hcurrent : store.deferrals.get deferred.deferralId with
  | none =>
    simp only [hcurrent] at h
    cases h
    exact .inl ⟨rfl, rfl⟩
  | some current =>
    simp only [hcurrent] at h
    split_ifs at h with hother
    · cases h
      exact .inl ⟨rfl, rfl⟩
    · rw [not_or, not_ne_iff, not_ne_iff] at hother
      obtain ⟨hgeneration, hpending⟩ := hother
      refine .inr ⟨hcontrol, current, ?_⟩
      cases hintent : store.intents.get (reraisedIntent ids deferred accountGeneration
          now).intentId with
      | some existing =>
        simp only [hintent] at h
        obtain ⟨_, -, h⟩ := bind_eq_ok_iff.mp h
        cases h
        exact ⟨_, rfl, hgeneration, hpending, rfl, .inl rfl⟩
      | none =>
        simp only [hintent] at h
        cases h
        exact ⟨_, rfl, hgeneration, hpending, rfl, .inr ⟨rfl, rfl⟩⟩

theorem recordDeferral_effect {continuityKey : String} {subject : ChatFirstSubject}
    {question : QuestionCardSpec} {accountGeneration : ℤ} {now : ℚ} {receipt : DeferralReceipt}
    {isNew : Bool}
    (h : store.recordDeferral ids continuityKey subject question accountGeneration now =
      .ok (next, receipt, isNew)) :
    Effect ids store (.recordDeferral continuityKey subject question accountGeneration now)
      (.deferralRecorded receipt isNew) next := by
  have hquiet : Quiet (.recordDeferral continuityKey subject question accountGeneration now,
      .deferralRecorded receipt isNew) := fun _ => ⟨rfl, rfl⟩
  obtain rfl | ⟨-, deferral, -, rfl⟩ := recordDeferral_ok h
  · exact .idle hquiet
  · exact .rest store.budget _ hquiet (List.Sublist.refl _) (by simp [IntentCall.onDeferral])

theorem releaseDeferral_effect {deferred : ProactiveDeferral} {accountGeneration : ℤ} {now : ℚ}
    {intent : Option ProactiveIntent}
    (h : store.releaseDeferral ids deferred accountGeneration now = .ok (next, intent)) :
    Effect ids store (.release deferred accountGeneration now) (.released intent) next := by
  have hquiet : Quiet (.release deferred accountGeneration now, .released intent) :=
    fun _ => ⟨rfl, rfl⟩
  obtain ⟨rfl, -⟩ | ⟨hcontrol, current, released, hcurrent, hgeneration, hpending, -,
    rfl | ⟨hnew, rfl⟩⟩ := releaseDeferral_ok h
  · exact .idle hquiet
  · exact .rest store.budget _ hquiet (List.Sublist.refl _) (by simp [IntentCall.onDeferral])
  · rw [requireControl, check_eq_ok_iff, beq_iff_eq] at hcontrol
    refine .create store.budget _ hquiet (List.Sublist.refl _)
      (by simp [IntentCall.onDeferral]) hnew ?_ ?_ ?_
    · rw [ProactiveIntent.payload_active]
      rfl
    · exact ProactiveIntent.payload_attempt (by simp [reraisedIntent])
    · by_cases hdead : store.deadLetters.get (reraisedIntent ids deferred accountGeneration
          now).intentId = none
      · exact .inl hdead
      · exact .inr ⟨hcontrol, ⟨current, hcurrent, hgeneration, hpending⟩, hnew, hdead⟩

theorem effect_step (ids : IntentIds) (hsound : Sound store) (call : IntentCall) :
    Effect ids store call ((intentStore ids).step store call).2
      ((intentStore ids).step store call).1 := by
  cases call with
  | admitJudgment continuityKey subject accountGeneration now =>
    exact effect_commit fun _ _ h => admitAgentJudgment_effect h
  | releaseAdmission continuityKey accountGeneration now =>
    exact effect_commit fun _ _ h => releaseAgentJudgmentAdmission_effect h
  | create source continuityKey subject blocks accountGeneration now =>
    exact effect_commit fun _ _ h => createIntent_effect h
  | coldStart source continuityKey subject blocks accountGeneration now =>
    exact effect_commit fun _ _ h => getOrCreateColdStartIntent_effect h
  | terminalize sequenceId receiptId terminalState accountGeneration =>
    exact effect_commit fun _ _ h => acknowledgeSequenceTerminal_effect h
  | advance intentId accountGeneration now reconcile =>
    exact effect_commit fun _ _ h => advanceFetchedIntent_effect hsound h
  | reject intentId code accountGeneration now =>
    exact effect_commit fun _ _ h => recordMaterializationRejection_effect hsound h
  | defer intentId accountGeneration now =>
    exact effect_commit fun _ _ h => recordMaterializationDeferral_effect hsound h
  | acknowledge intentId receiptId accountGeneration now =>
    exact effect_commit fun _ _ h => acknowledgeMaterialization_effect hsound h
  | requeue intentId accountGeneration now =>
    exact effect_commit fun _ _ h => requeueTransientDeadLetter_effect h
  | recordDeferral continuityKey subject question accountGeneration now =>
    exact effect_commit fun _ _ h => recordDeferral_effect h
  | release deferred accountGeneration now =>
    exact effect_commit fun _ _ h => releaseDeferral_effect h

end IntentStore
end Omi.ChatFirst
