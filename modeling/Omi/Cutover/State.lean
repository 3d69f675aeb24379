import Mathlib
import Omi.Foundation.Checks

/-! The cutover record of one account and its legal transitions. -/
namespace Omi.Cutover
open Omi.Foundation

inductive AccountCutoverState where
  | legacy
  | migrating
  | new
  | rolledBackStranded
deriving DecidableEq, Repr

inductive OfflineQueueInstruction where
  | none
  | drain
  | quarantine
deriving DecidableEq, Repr

inductive AccountCutoverCheckpointPhase where
  | notStarted
  | inventory
  | offlineQueueFenced
  | exporting
  | importing
  | verifying
  | cutoverReady
  | completed
  | failed
  | paused
deriving DecidableEq, Repr

/-- The document, without the uid that it is bound to. -/
structure AccountCutoverRecord where
  state : AccountCutoverState := .legacy
  accountGeneration : ℕ := 0
  uiGeneration : ℕ := 0
  apiGeneration : ℕ := 0
  strandedNewData : Bool := false
  offlineQueueInstruction : OfflineQueueInstruction := .none
  checkpointPhase : AccountCutoverCheckpointPhase := .notStarted
  checkpointToken : Option String := none
  manifestId : Option String := none
  destinationBackendBound : Bool := false
deriving DecidableEq

structure AccountCutoverTransitionRequest where
  targetState : AccountCutoverState
  expectedAccountGeneration : ℤ
  nextAccountGeneration : Option ℕ := none
  strandedNewData : Option Bool := none
  offlineQueueInstruction : Option OfflineQueueInstruction := none
  checkpointPhase : Option AccountCutoverCheckpointPhase := none
  checkpointToken : Option String := none
  manifestId : Option String := none

def legalTransitions : AccountCutoverState → List AccountCutoverState
  | .legacy => [.migrating]
  | .migrating => [.new, .rolledBackStranded]
  | .new => [.rolledBackStranded]
  | .rolledBackStranded => [.migrating]

/-- `_QUARANTINE_REQUIRED_STATES`. -/
def quarantineRequired (state : AccountCutoverState) : Bool :=
  state = .migrating || state = .new

/-- `_GENERATION_BUMP_STATES`. -/
def generationBump (state : AccountCutoverState) : Bool :=
  state = .migrating || state = .new

def assertOfflineInstructionLegal (state : AccountCutoverState)
    (instruction : OfflineQueueInstruction) : Except String Unit :=
  if quarantineRequired state ∧ instruction ≠ .quarantine then
    .error "illegal_offline_queue_instruction"
  else if state = .rolledBackStranded ∧ instruction = .drain then
    .error "illegal_offline_queue_instruction"
  else .ok ()

def refreshSameState (record : AccountCutoverRecord) (request : AccountCutoverTransitionRequest) :
    Except String AccountCutoverRecord := do
  request.offlineQueueInstruction.elim (.ok ()) (assertOfflineInstructionLegal record.state)
  .ok { record with
    offlineQueueInstruction :=
      request.offlineQueueInstruction.getD record.offlineQueueInstruction
    checkpointPhase := request.checkpointPhase.getD record.checkpointPhase
    checkpointToken := request.checkpointToken <|> record.checkpointToken
    manifestId := request.manifestId <|> record.manifestId
    strandedNewData := request.strandedNewData.getD record.strandedNewData }

/-- `next_generation`. -/
def nextGeneration (record : AccountCutoverRecord) (request : AccountCutoverTransitionRequest) :
    ℕ :=
  request.nextAccountGeneration.getD
    (if generationBump request.targetState then record.accountGeneration + 1
      else record.accountGeneration)

def assertGenerationAdvances (record : AccountCutoverRecord)
    (request : AccountCutoverTransitionRequest) : Except String Unit :=
  if generationBump request.targetState then
    if nextGeneration record request ≤ record.accountGeneration then
      .error "account_generation_regression"
    else .ok ()
  else if nextGeneration record request < record.accountGeneration then
    .error "account_generation_regression"
  else .ok ()

/-- `offline`: a transition other than to legacy quarantines unless it is told otherwise. -/
def offlineInstruction (request : AccountCutoverTransitionRequest) : OfflineQueueInstruction :=
  request.offlineQueueInstruction.getD
    (if request.targetState = .legacy then .none else .quarantine)

def applyCutoverTransition (record : AccountCutoverRecord)
    (request : AccountCutoverTransitionRequest) : Except String AccountCutoverRecord :=
  if request.expectedAccountGeneration ≠ record.accountGeneration then
    .error "account_generation_mismatch"
  else if request.targetState = record.state then refreshSameState record request
  else if request.targetState ∉ legalTransitions record.state then
    .error "illegal_cutover_transition"
  else do
    assertGenerationAdvances record request
    assertOfflineInstructionLegal request.targetState (offlineInstruction request)
    .ok { record with
      state := request.targetState
      accountGeneration := nextGeneration record request
      strandedNewData := request.strandedNewData.getD
        (if request.targetState = .rolledBackStranded then true else record.strandedNewData)
      offlineQueueInstruction := offlineInstruction request
      checkpointPhase := request.checkpointPhase.getD record.checkpointPhase
      checkpointToken := request.checkpointToken <|> record.checkpointToken
      manifestId := request.manifestId <|> record.manifestId }

/-! ### What a transition does -/

/-- Where the migration fence is up, offline queues are quarantined. -/
def AccountCutoverRecord.Fenced (record : AccountCutoverRecord) : Prop :=
  quarantineRequired record.state = true → record.offlineQueueInstruction = .quarantine

/-- What may follow a record: the state moves along the legal transitions, the generation does
not decrease and increases on every entry into `migrating` and `new`. -/
structure Advances (before after : AccountCutoverRecord) : Prop where
  legal : after.state = before.state ∨ after.state ∈ legalTransitions before.state
  generation : before.accountGeneration ≤ after.accountGeneration
  entry : after.state ≠ before.state → generationBump after.state = true →
    before.accountGeneration < after.accountGeneration

theorem fenced_of_legal {record : AccountCutoverRecord} {answer : Unit}
    (h : assertOfflineInstructionLegal record.state record.offlineQueueInstruction = .ok answer) :
    record.Fenced := by
  intro hstate
  by_contra hother
  simp [assertOfflineInstructionLegal, hstate, hother] at h

theorem refreshSameState_ok {record next : AccountCutoverRecord}
    {request : AccountCutoverTransitionRequest} (h : refreshSameState record request = .ok next) :
    Advances record next ∧ (record.Fenced → next.Fenced) ∧
      next.checkpointToken = (request.checkpointToken <|> record.checkpointToken) := by
  obtain ⟨_, hlegal, hnext⟩ := bind_eq_ok_iff.mp h
  cases hnext
  refine ⟨⟨.inl rfl, le_rfl, fun h => absurd rfl h⟩, ?_, rfl⟩
  intro hfenced
  cases hinstruction : request.offlineQueueInstruction with
  | none =>
    intro hstate
    simpa [hinstruction] using hfenced hstate
  | some instruction =>
    rw [hinstruction] at hlegal
    exact fenced_of_legal (by simpa [hinstruction] using hlegal)

theorem applyCutoverTransition_ok {record next : AccountCutoverRecord}
    {request : AccountCutoverTransitionRequest}
    (h : applyCutoverTransition record request = .ok next) :
    Advances record next ∧ (record.Fenced → next.Fenced) ∧
      next.checkpointToken = (request.checkpointToken <|> record.checkpointToken) := by
  unfold applyCutoverTransition at h
  by_cases hgeneration : request.expectedAccountGeneration ≠ record.accountGeneration
  · simp [hgeneration] at h
  by_cases hsame : request.targetState = record.state
  · rw [if_neg hgeneration, if_pos hsame] at h
    exact refreshSameState_ok h
  by_cases hlegal : request.targetState ∉ legalTransitions record.state
  · simp [hgeneration, hsame, hlegal] at h
  rw [if_neg hgeneration, if_neg hsame, if_neg hlegal] at h
  obtain ⟨_, hadvances, h⟩ := bind_eq_ok_iff.mp h
  obtain ⟨_, hoffline, hnext⟩ := bind_eq_ok_iff.mp h
  cases hnext
  refine ⟨?_, fun _ => fenced_of_legal hoffline, rfl⟩
  cases hbump : generationBump request.targetState with
  | true =>
    have hlt : record.accountGeneration < nextGeneration record request := by
      by_contra hle
      simp [assertGenerationAdvances, hbump, not_lt.mp hle] at hadvances
    exact ⟨.inr (not_not.mp hlegal), hlt.le, fun _ _ => hlt⟩
  | false =>
    have hle : record.accountGeneration ≤ nextGeneration record request := by
      by_contra hlt
      simp [assertGenerationAdvances, hbump, not_le.mp hlt] at hadvances
    refine ⟨.inr (not_not.mp hlegal), hle, fun _ hentry => ?_⟩
    have hentry' : generationBump request.targetState = true := hentry
    rw [hbump] at hentry'
    cases hentry'

end Omi.Cutover
