import Omi.Cutover.State

/-! The coordinator's six operations, each as what it computes from the record that it read,
and the compare-and-set that writes it. -/
namespace Omi.Cutover
open Omi.Foundation

/-! ### Arguments -/

def maxCheckpointTokenLen : ℕ := 128

/-- `_mint_checkpoint_token`, with the token that `secrets.token_hex` gives. -/
def mintCheckpointToken (minted : String) (explicit : Option String) : Except String String :=
  match explicit with
  | none => .ok minted
  | some token =>
    if token.length = 0 ∨ maxCheckpointTokenLen < token.length then .error "invalid_checkpoint_token"
    else .ok token

def isStableIdStart (c : Char) : Bool :=
  c.isAlphanum

/-- `StableId`: one to 128 characters of the pattern. -/
def isStableId (text : String) : Bool :=
  match text.toList with
  | [] => false
  | first :: rest =>
    rest.length < 128 && isStableIdStart first &&
      rest.all fun c => isStableIdStart c || c ∈ ['.', '_', ':', '-']

def checkpointForward : AccountCutoverCheckpointPhase → List AccountCutoverCheckpointPhase
  | .notStarted => [.inventory, .paused, .failed]
  | .inventory => [.offlineQueueFenced, .paused, .failed]
  | .offlineQueueFenced => [.exporting, .paused, .failed]
  | .exporting => [.importing, .paused, .failed]
  | .importing => [.verifying, .paused, .failed]
  | .verifying => [.cutoverReady, .paused, .failed]
  | .cutoverReady => [.paused, .failed]
  | .completed => []
  | .failed => [.inventory, .offlineQueueFenced, .exporting, .paused]
  | .paused => [.inventory, .offlineQueueFenced, .exporting, .importing, .verifying, .failed]

/-- A call with its arguments. `manifestId` is the id that `begin` mints. -/
inductive Operation where
  | prepareOfflineDrain
  | begin (enrolled : Bool) (manifestId reason : String)
  | checkpoint (phase : AccountCutoverCheckpointPhase)
      (expectedCheckpointToken nextCheckpointToken : Option String)
  | bindDestinationProductGenerations
      (uiGeneration apiGeneration expectedAccountGeneration : ℤ)
  | completeToNew (expectedAccountGeneration : ℤ)
  | rollbackLossy (expectedAccountGeneration : ℤ) (strandedNewData : Bool)

/-- An operation answers with the record as it is, or persists another one. -/
inductive Plan where
  | answer
  | persist (next : AccountCutoverRecord) (requireExisting : Bool)

/-- The validation of a request by its model, then the transition. -/
def transition (current : AccountCutoverRecord) (request : AccountCutoverTransitionRequest)
    (reason : String) (requireExisting : Bool) : Except String Plan :=
  if request.expectedAccountGeneration < 0 ∨ reason.length = 0 ∨
      request.manifestId.any (!isStableId ·) then .error "validation_error"
  else do
    let next ← applyCutoverTransition current request
    .ok (.persist next requireExisting)

def prepareOfflineDrain (current : AccountCutoverRecord) (minted : String) : Except String Plan :=
  if current.state ∉ [.legacy, .rolledBackStranded] then .error "offline_drain_after_fence"
  else if current.offlineQueueInstruction = .drain then .ok .answer
  else .ok (.persist
    { current with offlineQueueInstruction := .drain, checkpointToken := some minted } false)

def begin (current : AccountCutoverRecord) (minted : String) (enrolled : Bool)
    (manifestId reason : String) : Except String Plan :=
  if enrolled = false then .error "cutover_not_enrolled"
  else if current.state = .migrating ∧ current.manifestId.any (0 < ·.length) then .ok .answer
  else if current.state ∉ [.legacy, .rolledBackStranded] then .error "illegal_cutover_transition"
  else transition current
    { targetState := .migrating
      expectedAccountGeneration := current.accountGeneration
      offlineQueueInstruction := some .quarantine
      checkpointPhase := some .inventory
      checkpointToken := some minted
      manifestId := some manifestId } reason false

def checkpoint (current : AccountCutoverRecord) (minted : String)
    (phase : AccountCutoverCheckpointPhase)
    (expectedCheckpointToken nextCheckpointToken : Option String) : Except String Plan :=
  if current.state ≠ .migrating then .error "illegal_cutover_transition"
  else if expectedCheckpointToken.isSome ∧ current.checkpointToken ≠ expectedCheckpointToken then
    .error "checkpoint_token_mismatch"
  else if phase = current.checkpointPhase then .ok .answer
  else if phase = .completed then .error "illegal_checkpoint_transition"
  else if phase ∉ checkpointForward current.checkpointPhase then
    .error "illegal_checkpoint_transition"
  else if phase ∈ [.importing, .verifying] ∧ current.destinationBackendBound = false then
    .error "destination_backend_unbound"
  else do
    let token ← mintCheckpointToken minted nextCheckpointToken
    .ok (.persist { current with checkpointPhase := phase, checkpointToken := some token } true)

def bindDestinationProductGenerations (current : AccountCutoverRecord) (minted : String)
    (uiGeneration apiGeneration expectedAccountGeneration : ℤ) : Except String Plan :=
  if uiGeneration < 0 ∨ apiGeneration < 0 then .error "invalid_product_generation"
  else if (current.accountGeneration : ℤ) ≠ expectedAccountGeneration then
    .error "account_generation_mismatch"
  else if current.destinationBackendBound = false then .error "destination_backend_unbound"
  else if uiGeneration < current.uiGeneration ∨ apiGeneration < current.apiGeneration then
    .error "product_generation_regression"
  else .ok (.persist
    { current with
      uiGeneration := uiGeneration.toNat
      apiGeneration := apiGeneration.toNat
      checkpointToken := some minted } true)

def completeToNew (current : AccountCutoverRecord) (minted : String)
    (expectedAccountGeneration : ℤ) : Except String Plan :=
  if current.state = .new ∧ current.checkpointPhase = .completed then
    if (current.accountGeneration : ℤ) ≠ expectedAccountGeneration then
      .error "account_generation_mismatch"
    else .ok .answer
  else if current.checkpointPhase ≠ .cutoverReady then .error "checkpoint_not_ready"
  else if current.destinationBackendBound = false then .error "destination_backend_unbound"
  else transition current
    { targetState := .new
      expectedAccountGeneration := expectedAccountGeneration
      offlineQueueInstruction := some .quarantine
      checkpointPhase := some .completed
      checkpointToken := some minted } "complete_forward_migration" true

def rollbackLossy (current : AccountCutoverRecord) (minted : String)
    (expectedAccountGeneration : ℤ) (strandedNewData : Bool) : Except String Plan :=
  transition current
    { targetState := .rolledBackStranded
      expectedAccountGeneration := expectedAccountGeneration
      strandedNewData := some strandedNewData
      offlineQueueInstruction := some .quarantine
      checkpointToken := some minted } "lossy_rollback" true

def Operation.plan (operation : Operation) (current : AccountCutoverRecord) (minted : String) :
    Except String Plan :=
  match operation with
  | .prepareOfflineDrain => Cutover.prepareOfflineDrain current minted
  | .begin enrolled manifestId reason => Cutover.begin current minted enrolled manifestId reason
  | .checkpoint phase expected next => Cutover.checkpoint current minted phase expected next
  | .bindDestinationProductGenerations ui api expected =>
    Cutover.bindDestinationProductGenerations current minted ui api expected
  | .completeToNew expected => Cutover.completeToNew current minted expected
  | .rollbackLossy expected stranded => Cutover.rollbackLossy current minted expected stranded

/-- The token that the caller chose. -/
def Operation.chosenToken : Operation → Option String
  | .checkpoint _ _ next => next
  | _ => none

/-- What a persisted record has to do with the one that was read. -/
structure Planned (operation : Operation) (current next : AccountCutoverRecord)
    (minted : String) : Prop where
  advances : Advances current next
  fenced : current.Fenced → next.Fenced
  token : next.checkpointToken = some (operation.chosenToken.getD minted)

theorem transition_ok {current next : AccountCutoverRecord}
    {request : AccountCutoverTransitionRequest} {reason minted : String}
    {requireExisting required : Bool} {operation : Operation}
    (h : transition current request reason requireExisting = .ok (.persist next required))
    (htoken : request.checkpointToken = some minted) (hchosen : operation.chosenToken = none) :
    Planned operation current next minted := by
  unfold transition at h
  split_ifs at h
  obtain ⟨after, happly, hok⟩ := bind_eq_ok_iff.mp h
  cases hok
  obtain ⟨hadvances, hfenced, hnext⟩ := applyCutoverTransition_ok happly
  exact ⟨hadvances, hfenced, by simp [hnext, htoken, hchosen]⟩

theorem Advances.of_same {current next : AccountCutoverRecord} (hstate : next.state = current.state)
    (hgeneration : next.accountGeneration = current.accountGeneration) : Advances current next where
  legal := .inl hstate
  generation := hgeneration.ge
  entry hother := absurd hstate hother

theorem prepareOfflineDrain_ok {current next : AccountCutoverRecord} {minted : String}
    {required : Bool} (h : prepareOfflineDrain current minted = .ok (.persist next required)) :
    Planned .prepareOfflineDrain current next minted := by
  unfold prepareOfflineDrain at h
  split_ifs at h with hstate hdrain
  · cases h
  cases h
  refine ⟨.of_same rfl rfl, fun _ hrequired => ?_, rfl⟩
  -- drain is planned on the legacy plane only
  cases hcurrent : current.state <;> simp [hcurrent, quarantineRequired] at hstate hrequired

theorem checkpoint_ok {current next : AccountCutoverRecord} {minted : String}
    {phase : AccountCutoverCheckpointPhase} {expected chosen : Option String} {required : Bool}
    (h : checkpoint current minted phase expected chosen = .ok (.persist next required)) :
    Planned (.checkpoint phase expected chosen) current next minted := by
  unfold checkpoint at h
  split_ifs at h
  · cases h
  obtain ⟨token, htoken, hok⟩ := bind_eq_ok_iff.mp h
  cases hok
  refine ⟨.of_same rfl rfl, fun hfenced => hfenced, ?_⟩
  cases chosen with
  | none =>
    cases htoken
    rfl
  | some explicit =>
    simp only [mintCheckpointToken] at htoken
    split_ifs at htoken
    cases htoken
    rfl

theorem bindDestinationProductGenerations_ok {current next : AccountCutoverRecord}
    {minted : String} {ui api expected : ℤ} {required : Bool}
    (h : bindDestinationProductGenerations current minted ui api expected =
      .ok (.persist next required)) :
    Planned (.bindDestinationProductGenerations ui api expected) current next minted := by
  unfold bindDestinationProductGenerations at h
  split_ifs at h
  cases h
  exact ⟨.of_same rfl rfl, fun hfenced => hfenced, rfl⟩

theorem Operation.plan_ok {operation : Operation} {current next : AccountCutoverRecord}
    {minted : String} {required : Bool}
    (h : operation.plan current minted = .ok (.persist next required)) :
    Planned operation current next minted := by
  cases operation with
  | prepareOfflineDrain => exact prepareOfflineDrain_ok h
  | begin enrolled manifestId reason =>
    simp only [plan, Cutover.begin] at h
    split_ifs at h
    · cases h
    · exact transition_ok h rfl rfl
  | checkpoint phase expected chosen => exact checkpoint_ok h
  | bindDestinationProductGenerations ui api expected =>
    exact bindDestinationProductGenerations_ok h
  | completeToNew expected =>
    simp only [plan, Cutover.completeToNew] at h
    split_ifs at h
    · cases h
    · exact transition_ok h rfl rfl
  | rollbackLossy expected stranded => exact transition_ok h rfl rfl

/-! ### The write -/

/-- `_read_current_generation_and_token`. -/
def generationAndToken (document : Option AccountCutoverRecord) : ℕ × Option String :=
  (document.elim 0 AccountCutoverRecord.accountGeneration,
    document.bind AccountCutoverRecord.checkpointToken)

def assertCasMatches (currentGeneration : ℕ) (currentToken : Option String)
    (expectedAccountGeneration : ℕ) (expectedCheckpointToken : Option String)
    (documentExists : Bool) : Except String Unit :=
  if currentGeneration ≠ expectedAccountGeneration then .error "cutover_generation_cas_mismatch"
  else if documentExists ∧ currentToken.isSome then
    if expectedCheckpointToken = none ∨ currentToken ≠ expectedCheckpointToken then
      .error "cutover_checkpoint_cas_mismatch"
    else .ok ()
  else if expectedCheckpointToken.isSome ∧ currentToken ≠ expectedCheckpointToken then
    .error "cutover_checkpoint_cas_mismatch"
  else .ok ()

/-- `cas_set_account_cutover_record`: the record that is written. -/
def casSetAccountCutoverRecord (document : Option AccountCutoverRecord)
    (record : AccountCutoverRecord) (expectedAccountGeneration : ℕ)
    (expectedCheckpointToken : Option String) (requireExisting : Bool) :
    Except String AccountCutoverRecord :=
  if document.isNone ∧ requireExisting then .error "cutover_missing_during_cas"
  else do
    assertCasMatches (generationAndToken document).1 (generationAndToken document).2
      expectedAccountGeneration expectedCheckpointToken document.isSome
    .ok record

/-- `get_account_cutover_record`. -/
def currentRecord (document : Option AccountCutoverRecord) : AccountCutoverRecord :=
  document.getD {}

theorem generationAndToken_fst (document : Option AccountCutoverRecord) :
    (generationAndToken document).1 = (currentRecord document).accountGeneration := by
  cases document <;> rfl

/-- A write goes through only over the generation and the token that its operation read. -/
theorem casSet_ok {document seen : Option AccountCutoverRecord} {record written : AccountCutoverRecord}
    {requireExisting : Bool}
    (h : casSetAccountCutoverRecord document record (currentRecord seen).accountGeneration
      (currentRecord seen).checkpointToken requireExisting = .ok written) :
    written = record ∧ generationAndToken seen = generationAndToken document := by
  have hseen : generationAndToken seen =
      ((currentRecord seen).accountGeneration, (currentRecord seen).checkpointToken) := by
    cases seen <;> rfl
  unfold casSetAccountCutoverRecord at h
  split_ifs at h
  obtain ⟨_, hmatches, hok⟩ := bind_eq_ok_iff.mp h
  cases hok
  refine ⟨rfl, ?_⟩
  rw [hseen]
  unfold assertCasMatches at hmatches
  split_ifs at hmatches with hgeneration hexists htoken hsome
  · rw [not_or] at htoken
    exact Prod.ext (not_not.mp hgeneration).symm (not_not.mp htoken.2).symm
  · refine Prod.ext (not_not.mp hgeneration).symm ?_
    have hnone : (generationAndToken document).2 = none := by
      cases document with
      | none => rfl
      | some current => simpa [generationAndToken] using hexists
    cases hexpected : (currentRecord seen).checkpointToken with
    | none => exact hnone.symm
    | some token => simp [hexpected, hnone] at hsome

end Omi.Cutover
