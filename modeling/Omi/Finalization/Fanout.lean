import Omi.Finalization.Lease

/-! The fan-out of a finalization after its delivery was recorded: which transaction can take
the record back. -/
namespace Omi.Finalization
open Omi.Foundation

variable (hashes : FinalizationHashes)

/-- A delivered fan-out was recorded for the job in the course of the run. -/
def FanoutRecorded (s : FinalizationStore) (calls : List FinalizationCall) (jobId : String) :
    Prop :=
  ∃ lease now, (.markFanoutCompleted jobId lease now, .flag true) ∈
    (finalization hashes).trace s calls

/-- A fan-out claim for the job that was granted. -/
def fanoutClaimed (jobId : String) : FinalizationCall × FinalizationReply → Bool
  | (.claimFanout id _ _ _, .fanout reply) => id = jobId && reply.status = "claimed"
  | _ => false

def FinalizationStore.fanoutStatus (s : FinalizationStore) (jobId : String) :
    Option FanoutStatus :=
  (s.jobs.get jobId).bind (·.fanoutStatus)

/-- From the recorded delivery on, the job's fan-out stays completed and is not claimed. -/
def FanoutAbsorbing (s : FinalizationStore) (calls : List FinalizationCall) (jobId : String) :
    Prop :=
  ∀ before after, calls = before ++ after → FanoutRecorded hashes s before jobId →
    ((finalization hashes).state s before).fanoutStatus jobId = some .completed ∧
    ∀ event ∈ (finalization hashes).trace ((finalization hashes).state s before) after,
      fanoutClaimed jobId event = false

/-- The guards of `_abandon_byok_finalization_job_txn`. -/
def AbandonRequest.admits (req : AbandonRequest) (job : FinalizationJob) : Bool :=
  if !job.requiresByok then false
  else if (job.status ≠ some .queued ∧ job.status ≠ some .leased) ∨
      job.status ≠ req.expectedStatus then false
  else if job.generation ≠ req.expectedDispatchGeneration then false
  else if job.epoch ≠ req.expectedLeaseEpoch then false
  else if job.status = some .leased ∧ job.leaseLive req.now then false
  else !job.lastActivityAt.all (req.cutoff < ·)

/-- No abandonment closes the job after its delivery was recorded. -/
def NoLateAbandonment (s : FinalizationStore) (calls : List FinalizationCall) (jobId : String) :
    Prop :=
  ∀ before req conversation after,
    calls = before ++ .abandonByok jobId req conversation :: after →
    FanoutRecorded hashes s before jobId →
    ∀ job, ((finalization hashes).state s before).jobs.get jobId = some job →
      req.admits job = false

theorem abandonByokFinalizationJob_eq (jobId : String) (job : FinalizationJob)
    (req : AbandonRequest) (conversation : Option Conversation) :
    (abandonByokFinalizationJob jobId (some job) req conversation).write =
      if req.admits job then some (job.abandoned req.now) else none := by
  unfold abandonByokFinalizationJob AbandonRequest.admits
  dsimp only
  split_ifs <;> simp_all

section steps
variable {jobId : String} {old new : FinalizationJob} {call : FinalizationCall}
  {deltas : List (ProjectionCounter × ℤ)}

/-- Only an abandonment takes back a completed fan-out. -/
theorem JobWrite.fanoutStatus (h : JobWrite jobId old call new deltas)
    (hcompleted : old.fanoutStatus = some .completed)
    (hcall : ∀ req conversation, call ≠ .abandonByok jobId req conversation) :
    new.fanoutStatus = some .completed := by
  cases h with
  | resumed | claimed | reclaimed | succeeded => exact hcompleted
  | retryable | deadLettered | replayed | replayedLease => exact hcompleted
  | fenced _ _ hfanout | fanoutFenced _ _ _ hfanout | fanoutLeased _ _ _ hfanout
  | fanoutDelivered _ _ hfanout => exact absurd hcompleted hfanout
  | abandoned req conversation => exact absurd rfl (hcall req conversation)
  | abandonedLease req conversation => exact absurd rfl (hcall req conversation)

end steps

section store
variable {s : FinalizationStore} {jobId : String}

theorem fanoutStatus_eq_some {status : FanoutStatus} (h : s.fanoutStatus jobId = some status) :
    ∃ job, s.jobs.get jobId = some job ∧ job.fanoutStatus = some status :=
  Option.bind_eq_some_iff.1 h

/-- An abandonment whose guards refuse leaves the collections as they are. -/
theorem step_abandon_refused {job : FinalizationJob} (hjob : s.jobs.get jobId = some job)
    {req : AbandonRequest} (hrefused : req.admits job = false)
    (conversation : Option Conversation) :
    (finalizationStep hashes s (.abandonByok jobId req conversation)).1 = s := by
  have hwrite := abandonByokFinalizationJob_eq jobId job req conversation
  rw [hrefused, if_neg Bool.false_ne_true] at hwrite
  simp [finalizationStep, FinalizationCall.txn, FinalizationStore.commit, hjob, hwrite]

theorem step_abandon_admitted {job : FinalizationJob} (hjob : s.jobs.get jobId = some job)
    {req : AbandonRequest} (hadmitted : req.admits job = true)
    (conversation : Option Conversation) :
    (finalizationStep hashes s (.abandonByok jobId req conversation)).1.fanoutStatus jobId =
      some .fenced := by
  have hwrite := abandonByokFinalizationJob_eq jobId job req conversation
  rw [hadmitted, if_pos rfl] at hwrite
  simp [finalizationStep, FinalizationCall.txn, FinalizationStore.commit, hjob, hwrite,
    FinalizationStore.fanoutStatus, FinalizationJob.abandoned]

/-- A completed fan-out survives every step but an abandonment that is admitted. -/
theorem fanoutStatus_step (hcompleted : s.fanoutStatus jobId = some .completed)
    (call : FinalizationCall)
    (hcall : ∀ req conversation, call = .abandonByok jobId req conversation →
      ∀ job, s.jobs.get jobId = some job → req.admits job = false) :
    (finalizationStep hashes s call).1.fanoutStatus jobId = some .completed := by
  obtain ⟨job, hjob, hstatus⟩ := fanoutStatus_eq_some hcompleted
  by_cases habandon : ∃ req conversation, call = .abandonByok jobId req conversation
  · obtain ⟨req, conversation, rfl⟩ := habandon
    rw [step_abandon_refused hashes hjob (hcall req conversation rfl job hjob)]
    exact hcompleted
  · have hstep := finalizationStep_jobStep hashes s call jobId
    rw [hjob] at hstep
    unfold FinalizationStore.fanoutStatus
    generalize (finalizationStep hashes s call).1.jobs.get jobId = after at hstep ⊢
    cases hstep with
    | same => exact hstatus
    | wrote _ new deltas hwrite =>
      refine hwrite.fanoutStatus hstatus ?_
      intro req conversation heq
      exact habandon ⟨req, conversation, heq⟩

/-- Nothing claims a completed fan-out. -/
theorem fanoutClaimed_step (hcompleted : s.fanoutStatus jobId = some .completed)
    (call : FinalizationCall) :
    fanoutClaimed jobId (call, (finalizationStep hashes s call).2) = false := by
  obtain ⟨job, hjob, hstatus⟩ := fanoutStatus_eq_some hcompleted
  cases call with
  | claimFanout id lease now conversation =>
    by_cases hid : id = jobId
    · subst hid
      simp [fanoutClaimed, finalizationStep, FinalizationCall.txn, claimFinalizationFanout, hjob,
        hstatus]
    · simp [fanoutClaimed, finalizationStep, FinalizationCall.txn, hid]
  | _ => rfl

/-- A successful record leaves the fan-out completed. -/
theorem fanoutStatus_recorded {lease : LeaseProof} {now : ℤ}
    (hrecorded : (finalizationStep hashes s (.markFanoutCompleted jobId lease now)).2 =
      .flag true) :
    (finalizationStep hashes s (.markFanoutCompleted jobId lease now)).1.fanoutStatus jobId =
      some .completed := by
  simp only [finalizationStep, FinalizationCall.txn] at hrecorded ⊢
  cases hjob : s.jobs.get jobId with
  | none =>
    simp [hjob, markFinalizationFanoutCompleted] at hrecorded
  | some job =>
    simp only [hjob, JobTxn.map_reply, markFinalizationFanoutCompleted] at hrecorded
    simp only [FinalizationStore.commit, JobTxn.map_write, hjob, markFinalizationFanoutCompleted]
    split_ifs at hrecorded ⊢ with hcompleted howns
    · simpa [FinalizationStore.fanoutStatus, hjob] using hcompleted
    · simp at hrecorded
    · simp [FinalizationStore.fanoutStatus, FinalizationJob.fanoutDelivered]

end store

section runs
variable {s : FinalizationStore} {jobId : String}

theorem fanoutRecorded_concat {calls : List FinalizationCall} {call : FinalizationCall}
    (h : FanoutRecorded hashes s (calls ++ [call]) jobId) :
    FanoutRecorded hashes s calls jobId ∨
      ∃ lease now, call = .markFanoutCompleted jobId lease now ∧
        (finalizationStep hashes ((finalization hashes).state s calls) call).2 = .flag true := by
  obtain ⟨lease, now, hmem⟩ := h
  rw [Machine.trace_append, List.mem_append] at hmem
  rcases hmem with hold | hlast
  · exact .inl ⟨lease, now, hold⟩
  · obtain ⟨hcall, hreply⟩ := Prod.mk.inj (List.mem_singleton.1 hlast)
    exact .inr ⟨lease, now, hcall.symm, hreply.symm⟩

theorem FanoutRecorded.append {calls : List FinalizationCall}
    (h : FanoutRecorded hashes s calls jobId) (more : List FinalizationCall) :
    FanoutRecorded hashes s (calls ++ more) jobId := by
  obtain ⟨lease, now, hmem⟩ := h
  refine ⟨lease, now, ?_⟩
  rw [Machine.trace_append]
  exact List.mem_append_left _ hmem

/-- Without a late abandonment the recorded fan-out is completed after every part of the run. -/
theorem fanoutStatus_run {calls : List FinalizationCall}
    (h : NoLateAbandonment hashes s calls jobId) (before after : List FinalizationCall)
    (hsplit : calls = before ++ after) (hrecorded : FanoutRecorded hashes s before jobId) :
    ((finalization hashes).state s before).fanoutStatus jobId = some .completed := by
  induction before using List.reverseRecOn generalizing after with
  | nil =>
    obtain ⟨lease, now, hmem⟩ := hrecorded
    exact absurd hmem List.not_mem_nil
  | append_singleton before call ih =>
    rw [List.append_assoc] at hsplit
    rw [Machine.state_append]
    rcases fanoutRecorded_concat hashes hrecorded with hearlier | ⟨lease, now, rfl, hreply⟩
    · refine fanoutStatus_step hashes (ih (call :: after) hsplit hearlier) call ?_
      rintro req conversation rfl job hjob
      exact h before req conversation after hsplit hearlier job hjob
    · exact fanoutStatus_recorded hashes hreply

/-- **The completed fan-out is absorbing exactly where no abandonment comes late**: from any
collections, a run of the job transactions keeps every recorded delivery, and grants no claim
after it, if and only if no BYOK abandonment finds its guards satisfied after the record. -/
theorem fanoutAbsorbing_iff (s : FinalizationStore) (calls : List FinalizationCall)
    (jobId : String) :
    FanoutAbsorbing hashes s calls jobId ↔ NoLateAbandonment hashes s calls jobId := by
  constructor
  · intro h before req conversation after hsplit hrecorded job hjob
    by_contra hadmitted
    have hnext : calls =
        (before ++ [FinalizationCall.abandonByok jobId req conversation]) ++ after := by
      rw [hsplit, List.append_assoc]
      rfl
    obtain ⟨hcompleted, -⟩ := h _ after hnext (hrecorded.append hashes _)
    rw [Machine.state_append] at hcompleted
    have hfenced := step_abandon_admitted hashes hjob (Bool.not_eq_false _ ▸ hadmitted)
      conversation
    exact absurd (hcompleted.symm.trans hfenced) (by decide)
  · intro h before after hsplit hrecorded
    refine ⟨fanoutStatus_run hashes h before after hsplit hrecorded, fun event hevent => ?_⟩
    obtain ⟨middle, rest, hafter, hreply, -⟩ :=
      Machine.sublist_trace_cons (List.singleton_sublist.2 hevent)
    have hlater : calls = (before ++ middle) ++ event.1 :: rest := by
      rw [hsplit, hafter, List.append_assoc]
    have hcompleted := fanoutStatus_run hashes h (before ++ middle) _ hlater
      (hrecorded.append hashes _)
    rw [Machine.state_append] at hcompleted
    have hrefused := fanoutClaimed_step hashes hcompleted event.1
    rw [finalization_step] at hreply
    rwa [← hreply] at hrefused

end runs

/-- A worker records the delivery of a BYOK finalization and dies before it completes the job;
weeks later the job is abandoned. -/
def abandonedDelivery : List FinalizationCall :=
  let conversation : Conversation := { status := some "processing", hasContent := true }
  let finished : Conversation :=
    { status := some "completed", hasContent := true, finalizationJobId := some "job",
      finalizationRevision := some 1 }
  [.createOrGet
      { uid := "u", conversationId := "c", conversation := some conversation,
        requiresByok := true, admission := fun _ => ⟨true, false, "accepted", some "key"⟩,
        reconcileStaleAfter := 600, now := 0 },
    .resumeByok "job" 1,
    .claim "job" { dispatchGeneration := 1, allowByok := true, now := 2 },
    .claimFanout "job" ⟨1, 1⟩ 3 (some finished),
    .markFanoutCompleted "job" ⟨1, 1⟩ 4,
    .abandonByok "job"
      { expectedStatus := some .leased, expectedDispatchGeneration := 1, expectedLeaseEpoch := 1,
        cutoff := 5000000000, now := 6000000000 } (some finished)]

theorem not_fanoutAbsorbing :
    ¬ ∀ hashes s calls jobId, FanoutAbsorbing hashes s calls jobId := by
  intro h
  have hrecorded : FanoutRecorded ⟨fun _ => "job", fun _ => 0⟩ .empty abandonedDelivery "job" := by
    refine ⟨⟨1, 1⟩, 4, ?_⟩
    unfold abandonedDelivery
    iterate 4 apply List.mem_cons_of_mem
    apply List.mem_cons.2
    left
    exact Prod.ext rfl (by decide +kernel)
  have hrun := h _ _ abandonedDelivery "job" abandonedDelivery [] (List.append_nil _).symm hrecorded
  exact absurd hrun.1 (by decide +kernel)

end Omi.Finalization
