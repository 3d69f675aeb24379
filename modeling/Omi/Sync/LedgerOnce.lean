import Omi.Sync.LedgerFence

/-! Once-only processing: along every run of the ledger that starts from an absent
document, metering tags and segments are recorded once and a completion is final. -/
namespace Omi.Sync
open Omi.Foundation

/-- A reachable document holds a result exactly when it is completed, and then a valid
one: the branches that repair an invalid completion are dead. -/
structure Sound (ref : LedgerRef) : Prop where
  completed_valid : ref.existing.status = some .completed →
    isValidCompletedSyncContentResult ref.existing.result = .ok true
  open_result : ref.existing.status ≠ some .completed → ref.existing.result = .none

/-- The once-only marks of the first document are kept by the second. -/
structure KeepsMarks (old new : LedgerDoc) : Prop where
  sideEffect : ∀ tag, old.sideEffectAt tag ≠ none → new.sideEffectAt tag ≠ none
  segment : old.processedSegmentIds ⊆ new.processedSegmentIds

theorem KeepsMarks.refl (doc : LedgerDoc) : KeepsMarks doc doc :=
  ⟨fun _ h => h, fun _ h => h⟩

theorem sound_none : Sound none := ⟨by simp [LedgerRef.existing], fun _ => rfl⟩

@[simp] theorem sideEffectAt_markSideEffect (doc : LedgerDoc) (value now : ℤ)
    (tag tag' : SideEffectTag) :
    (doc.markSideEffect value now tag).sideEffectAt tag' =
      if tag' = tag then some now else doc.sideEffectAt tag' := by
  cases tag <;> cases tag' <;> rfl

section Step
variable {ref : LedgerRef}

/-- A write that leaves the document open and its result alone is sound. -/
private theorem Sound.of_open {doc : LedgerDoc} (hopen : doc.status ≠ some .completed)
    (hresult : doc.result = .none) : Sound (some doc) :=
  ⟨fun h => absurd h hopen, fun _ => hresult⟩

theorem LedgerCaller.open_of_owns {caller : LedgerCaller} {doc : LedgerDoc}
    (h : caller.owns doc = true) : doc.status = some .processing :=
  (ownedFields_of_owns h).1

/-- On a sound document a claim either leaves it or takes over an open one, keeping its
marks. -/
theorem Sound.claim_cases (h : Sound ref) (jobId lane : String) (now : ℤ) :
    (claimTransaction ref jobId lane now).1 = ref ∨
      (ref.existing.status ≠ some .completed ∧ claimTransaction ref jobId lane now =
        (some (processingClaimUpdates jobId lane now ref.existing false), .claim .owned)) := by
  obtain ⟨heq, -⟩ | ⟨e, heq, -⟩ | ⟨heq, -⟩ | heq | ⟨clear, heq, hinvalid, hclear, -⟩ :=
    claimTransaction_cases ref jobId lane now
  · exact .inl (by rw [heq])
  · exact .inl (by rw [heq])
  · exact .inl (by rw [heq])
  · exact .inl (by rw [heq])
  · have hopen : ref.existing.status ≠ some .completed := fun hc => by
      simp [h.completed_valid hc] at hinvalid
      exact hinvalid hc
    obtain rfl : clear = false := by simpa using fun hc => hopen (hclear hc)
    exact .inr ⟨hopen, heq⟩

/-- On a sound document a bind either leaves it or adopts a claim in processing. -/
theorem Sound.bind_cases (h : Sound ref) (jobId runToken : String) (runEpoch now : ℤ) :
    (bindRunTokenTransaction ref jobId runToken runEpoch now).1 = ref ∨
      (ref.existing.status = some .processing ∧ ref.existing.jobId = some jobId ∧
        (∀ stored, ref.existing.ledgerRunEpoch = .int stored → stored < runEpoch) ∧
        bindRunTokenTransaction ref jobId runToken runEpoch now =
          (some { ref.existing.withRun runToken runEpoch with updatedAt := .datetime now },
            .binding .bound)) := by
  obtain ⟨heq, -⟩ | ⟨e, heq, -⟩ | heq | ⟨heq, -⟩ | ⟨heq, hstatus, hjob, hlt⟩ |
    ⟨-, hc, hinvalid⟩ :=
    bindRunTokenTransaction_cases ref jobId runToken runEpoch now
  · exact .inl (by rw [heq])
  · exact .inl (by rw [heq])
  · exact .inl (by rw [heq])
  · exact .inl (by rw [heq])
  · exact .inr ⟨hstatus, hjob, hlt, heq⟩
  · simp [h.completed_valid hc] at hinvalid

/-- One transaction keeps soundness and every mark. -/
theorem Sound.step (h : Sound ref) (call : LedgerCall) :
    Sound (ledgerStep ref call).1 ∧
      KeepsMarks ref.existing (ledgerStep ref call).1.existing := by
  have hkept : Sound ref ∧ KeepsMarks ref.existing ref.existing := ⟨h, .refl _⟩
  have hresult : ∀ {caller : LedgerCaller}, caller.owns ref.existing = true →
      ref.existing.result = .none := fun howns =>
    h.open_result (by simp [LedgerCaller.open_of_owns howns])
  cases call with
  | claim jobId lane now =>
    simp only [ledgerStep]
    obtain heq | ⟨hopen, heq⟩ := h.claim_cases jobId lane now
    · rwa [heq]
    · rw [heq]
      exact ⟨.of_open (by simp [processingClaimUpdates]) (h.open_result hopen),
        fun tag => by cases tag <;> exact id, fun _ hid => hid⟩
  | bindRunToken jobId runToken runEpoch now =>
    simp only [ledgerStep]
    obtain heq | ⟨hstatus, -, -, heq⟩ := h.bind_cases jobId runToken runEpoch now
    · rwa [heq]
    · rw [heq]
      exact ⟨.of_open (by simp [LedgerDoc.withRun, hstatus]) (h.open_result (by simp [hstatus])),
        fun tag => by cases tag <;> exact id, fun _ hid => hid⟩
  | sideEffect caller tag value now =>
    simp only [ledgerStep, sideEffectTransaction, ownedWrite]
    split_ifs with hmarked howns
    · exact hkept
    · have howned := hresult howns
      have hopen : ref.existing.status ≠ some .completed := by
        simp [LedgerCaller.open_of_owns howns]
      refine ⟨.of_open (by cases tag <;> exact hopen) (by cases tag <;> exact howned),
        fun tag' hmark => ?_, by cases tag <;> exact fun _ hid => hid⟩
      have hkeep : (ref.existing.markSideEffect value now tag).sideEffectAt tag' ≠ none := by
        rw [sideEffectAt_markSideEffect]
        split_ifs
        · simp
        · exact hmark
      cases tag' <;> exact hkeep
    · exact hkept
  | checkpointPartialResult caller partialResult now =>
    simp only [ledgerStep, checkpointPartialResultTransaction, ownedWrite]
    split_ifs with howns
    · refine ⟨.of_open (by simp [LedgerCaller.open_of_owns howns]) (hresult howns),
        fun tag => by cases tag <;> exact id, fun _ hid => hid⟩
    · exact hkept
  | processedSegment caller segmentId now =>
    simp only [ledgerStep, processedSegmentTransaction, ownedWrite]
    split_ifs with hdone howns
    · exact hkept
    · refine ⟨.of_open (by simp [LedgerCaller.open_of_owns howns]) (hresult howns),
        fun tag => by cases tag <;> exact id, List.subset_append_left _ _⟩
    · exact hkept
  | markCompleted caller result now =>
    obtain ⟨valid, hvalid⟩ := result.valid_isOk
    cases valid <;> simp only [ledgerStep, markCompletedTransaction, hvalid, ownedWrite]
    · exact hkept
    · split_ifs with howns
      · refine ⟨⟨fun _ => ?_, fun hne => absurd rfl hne⟩,
          fun tag => by cases tag <;> exact id, fun _ hid => hid⟩
        simpa only [existing_some, hresult howns, PyVal.merge_none] using hvalid
      · exact hkept
  | releaseClaim caller now =>
    simp only [ledgerStep, releaseClaimTransaction, ownedWrite]
    split_ifs with hcompleted howns
    · exact hkept
    · exact ⟨.of_open (by simp [LedgerDoc.released]) (hresult howns),
        fun tag => by cases tag <;> exact id, fun _ hid => hid⟩
    · exact hkept
  | releaseClaimAfterJobRetired jobId now =>
    simp only [ledgerStep, releaseClaimAfterJobRetiredTransaction]
    split_ifs with hother
    · exact hkept
    · push Not at hother
      exact ⟨.of_open (by simp [LedgerDoc.released]) (h.open_result (by simp [hother.1])),
        fun tag => by cases tag <;> exact id, fun _ hid => hid⟩

/-- What every transaction answers on a completed document. -/
def completedReply (result : PyVal) : LedgerCall → LedgerReply
  | .claim .. => .claim (.completed result)
  | .bindRunToken .. => .binding (.completed result)
  | _ => .flag false

/-- A valid completion is final: no transaction writes, claim and bind report its
result, and every other call is refused. -/
theorem Sound.step_completed (h : Sound ref) (hcompleted : ref.existing.status = some .completed)
    (call : LedgerCall) :
    ledgerStep ref call = (ref, completedReply ref.existing.result call) := by
  have hvalid := h.completed_valid hcompleted
  have hunowned : ∀ caller : LedgerCaller, caller.owns ref.existing = false := fun caller => by
    simp [LedgerCaller.owns, ledgerOwnerMatches, hcompleted]
  cases call with
  | claim => simp [ledgerStep, claimTransaction, completedReply, hcompleted, hvalid]
  | bindRunToken => simp [ledgerStep, bindRunTokenTransaction, completedReply, hcompleted, hvalid]
  | releaseClaimAfterJobRetired =>
    simp [ledgerStep, releaseClaimAfterJobRetiredTransaction, completedReply, hcompleted]
  | sideEffect caller | checkpointPartialResult caller | processedSegment caller
  | markCompleted caller | releaseClaim caller =>
    exact ledgerStep_of_not_owns rfl (hunowned caller)

/-- An accepted completion stores its result unchanged. -/
theorem Sound.markCompleted_true (h : Sound ref) {caller : LedgerCaller}
    {result : CompletionResult} {now : ℤ}
    (hdone : (markCompletedTransaction ref caller result now).2 = .flag true) :
    (markCompletedTransaction ref caller result now).1.existing.status = some .completed ∧
      (markCompletedTransaction ref caller result now).1.existing.result =
        .dict result.fields := by
  obtain ⟨valid, hvalid⟩ := result.valid_isOk
  cases valid <;> simp only [markCompletedTransaction, hvalid, ownedWrite] at hdone ⊢
  · simp at hdone
  · split_ifs at hdone ⊢ with howns
    · have hopen := h.open_result (by simp [LedgerCaller.open_of_owns howns])
      simp [hopen]
    · simp at hdone

end Step

/-- A call that recorded the side effect `tag`. -/
def recordsSideEffect (tag : SideEffectTag) : LedgerCall × LedgerReply → Bool
  | (.sideEffect _ tag' _ _, .flag true) => tag' == tag
  | _ => false

/-- A call that recorded the segment. -/
def recordsSegment (segmentId : String) : LedgerCall × LedgerReply → Bool
  | (.processedSegment _ segmentId' _, .flag true) => segmentId' == segmentId
  | _ => false

theorem recordsSideEffect_iff {tag : SideEffectTag} {call : LedgerCall} {reply : LedgerReply} :
    recordsSideEffect tag (call, reply) = true ↔
      (∃ caller value now, call = .sideEffect caller tag value now) ∧ reply = .flag true := by
  unfold recordsSideEffect
  grind

theorem recordsSegment_iff {segmentId : String} {call : LedgerCall} {reply : LedgerReply} :
    recordsSegment segmentId (call, reply) = true ↔
      (∃ caller now, call = .processedSegment caller segmentId now) ∧ reply = .flag true := by
  unfold recordsSegment
  grind

theorem sideEffect_once (calls : List LedgerCall) (tag : SideEffectTag) :
    (ledger.trace none calls).countP (recordsSideEffect tag) ≤ 1 := by
  refine Machine.countP_trace_le_one (fun ref => ref.existing.sideEffectAt tag ≠ none) (I := Sound)
    (fun _ call h => (h.step call).1) (fun _ call h => (h.step call).2.sideEffect tag)
    ?mark ?block sound_none calls
  case mark =>
    intro ref call _ hrecord
    obtain ⟨⟨caller, value, now, rfl⟩, hreply⟩ := recordsSideEffect_iff.mp hrecord
    simp only [ledger_step, ledgerStep, sideEffectTransaction, ownedWrite] at hreply ⊢
    split_ifs at hreply ⊢
    · simp at hreply
    · cases tag <;> simp [LedgerDoc.sideEffectAt, LedgerDoc.markSideEffect]
    · simp at hreply
  case block =>
    intro ref call _ hmarked
    by_contra hrecord
    obtain ⟨⟨caller, value, now, rfl⟩, hreply⟩ :=
      recordsSideEffect_iff.mp (Bool.not_eq_false _ ▸ hrecord)
    simp [ledgerStep, sideEffectTransaction, hmarked] at hreply

theorem segment_once (calls : List LedgerCall) (segmentId : String) :
    (ledger.trace none calls).countP (recordsSegment segmentId) ≤ 1 := by
  refine Machine.countP_trace_le_one (fun ref => segmentId ∈ ref.existing.processedSegmentIds)
    (I := Sound)
    (fun _ call h => (h.step call).1) (fun _ call h hm => (h.step call).2.segment hm)
    ?mark ?block sound_none calls
  case mark =>
    intro ref call _ hrecord
    obtain ⟨⟨caller, now, rfl⟩, hreply⟩ := recordsSegment_iff.mp hrecord
    simp only [ledger_step, ledgerStep, processedSegmentTransaction, ownedWrite] at hreply ⊢
    split_ifs at hreply ⊢
    · simp at hreply
    · simp
    · simp at hreply
  case block =>
    intro ref call _ hmarked
    by_contra hrecord
    obtain ⟨⟨caller, now, rfl⟩, hreply⟩ :=
      recordsSegment_iff.mp (Bool.not_eq_false _ ▸ hrecord)
    simp [ledgerStep, processedSegmentTransaction, hmarked] at hreply

theorem sound_reachable (calls : List LedgerCall) : Sound (ledger.state none calls) :=
  Machine.invariant (fun _ call h => (h.step call).1) sound_none calls

/-- Once-only processing over every run from an absent document. -/
theorem onceOnlyProcessing (calls : List LedgerCall) :
    (∀ tag, (ledger.trace none calls).countP (recordsSideEffect tag) ≤ 1) ∧
    (∀ segmentId, (ledger.trace none calls).countP (recordsSegment segmentId) ≤ 1) ∧
    ((ledger.state none calls).existing.status = some .completed →
      isValidCompletedSyncContentResult (ledger.state none calls).existing.result = .ok true) ∧
    ∀ before after caller result now,
      calls = before ++ .markCompleted caller result now :: after →
      (ledger.step (ledger.state none before) (.markCompleted caller result now)).2 =
        .flag true →
      let done := (ledger.step (ledger.state none before) (.markCompleted caller result now)).1
      ledger.state none calls = done ∧
        ∀ call, ledger.step done call = (done, completedReply (.dict result.fields) call) := by
  refine ⟨sideEffect_once calls, segment_once calls, (sound_reachable calls).completed_valid, ?_⟩
  intro before after caller result now hcalls hdone done
  have hbefore := sound_reachable before
  have hsound : Sound done := (hbefore.step _).1
  obtain ⟨hstatus, hresult⟩ := hbefore.markCompleted_true hdone
  have hfixed : ∀ call, ledger.step done call =
      (done, completedReply (.dict result.fields) call) := fun call =>
    hresult ▸ hsound.step_completed hstatus call
  refine ⟨?_, hfixed⟩
  rw [hcalls, Machine.state_append, Machine.state_cons]
  exact Machine.state_eq_self (fun call => by rw [hfixed call]) after

end Omi.Sync
