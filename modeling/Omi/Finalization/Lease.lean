import Omi.Finalization.Store

/-! Leases of one finalization job along every run: generations and epochs only grow, a
worker's write needs the lease it presents, and a closed job is never written again. -/
namespace Omi.Finalization
open Omi.Foundation

variable (hashes : FinalizationHashes)

/-- The ownership fence a worker's call presents, with the job it is for. -/
def FinalizationCall.lease : FinalizationCall → Option (String × LeaseProof)
  | .markCompleted jobId lease _ => some (jobId, lease)
  | .markFenced jobId lease _ => some (jobId, lease)
  | .claimFanout jobId lease _ _ => some (jobId, lease)
  | .markFanoutCompleted jobId lease _ => some (jobId, lease)
  | .markRetryable jobId lease _ _ _ => some (jobId, lease)
  | .markDeadLetter jobId lease _ _ _ => some (jobId, lease)
  | _ => none

/-- What a step can do to one job: nothing, its creation, or one write. -/
inductive JobStep (jobId : String) (call : FinalizationCall) :
    Option FinalizationJob → Option FinalizationJob → Prop
  | same (job : Option FinalizationJob) : JobStep jobId call job job
  | created (req : IntentRequest) (conversation : Conversation) (revision : ℤ)
    (fanoutKey : String) (hcall : call = .createOrGet req) :
    JobStep jobId call none (some (req.newJob hashes conversation revision fanoutKey))
  | wrote (old new : FinalizationJob) (deltas : List (ProjectionCounter × ℤ))
    (hwrite : JobWrite jobId old call new deltas) : JobStep jobId call (some old) (some new)

theorem StepEffect.jobStep {s : FinalizationStore} {call : FinalizationCall}
    {next : FinalizationStore × FinalizationReply} (heffect : StepEffect hashes s call next)
    (jobId : String) : JobStep hashes jobId call (s.jobs.get jobId) (next.1.jobs.get jobId) := by
  cases heffect with
  | same => exact .same _
  | created req conversation revision fanoutKey _ hcall habsent =>
    dsimp only
    rw [Table.get_set]
    split_ifs with hid
    · subst hid
      rw [habsent]
      exact .created req conversation revision fanoutKey hcall
    · exact .same _
  | wrote key old new deltas _ hjob hwrite =>
    dsimp only
    rw [Table.get_set]
    split_ifs with hid
    · subst hid
      rw [hjob]
      exact .wrote old new deltas hwrite
    · exact .same _

theorem finalizationStep_jobStep (s : FinalizationStore) (call : FinalizationCall)
    (jobId : String) : JobStep hashes jobId call (s.jobs.get jobId)
      ((finalizationStep hashes s call).1.jobs.get jobId) :=
  (finalizationStep_effect hashes s call).jobStep hashes jobId

@[simp] theorem intOr_some_zero (n : ℤ) : intOr (some n) 0 = n := by
  simp +contextual [intOr]

theorem le_intOr_some (n : ℤ) : n ≤ intOr (some n) 1 := by
  simp only [intOr]
  split_ifs <;> omega

/-- The generation and epoch of a job, as stored and as the transactions read them, do not
fall from one version of it to another. -/
structure Advances (old new : FinalizationJob) : Prop where
  generation : old.generation ≤ new.generation
  epoch : old.epoch ≤ new.epoch
  dispatchGeneration : ∀ g ∈ old.dispatchGeneration, ∃ g' ∈ new.dispatchGeneration, g ≤ g'
  leaseEpoch : ∀ e ∈ old.leaseEpoch, ∃ e' ∈ new.leaseEpoch, e ≤ e'

theorem Advances.of_eq {old new : FinalizationJob}
    (hgeneration : new.dispatchGeneration = old.dispatchGeneration)
    (hepoch : new.leaseEpoch = old.leaseEpoch) : Advances old new where
  generation := by simp [FinalizationJob.generation, hgeneration]
  epoch := by simp [FinalizationJob.epoch, hepoch]
  dispatchGeneration g hg := ⟨g, hgeneration ▸ hg, le_rfl⟩
  leaseEpoch e he := ⟨e, hepoch ▸ he, le_rfl⟩

theorem Advances.trans {a b c : FinalizationJob} (hab : Advances a b) (hbc : Advances b c) :
    Advances a c where
  generation := hab.generation.trans hbc.generation
  epoch := hab.epoch.trans hbc.epoch
  dispatchGeneration g hg := by
    obtain ⟨g', hg', hle⟩ := hab.dispatchGeneration g hg
    obtain ⟨g'', hg'', hle'⟩ := hbc.dispatchGeneration g' hg'
    exact ⟨g'', hg'', hle.trans hle'⟩
  leaseEpoch e he := by
    obtain ⟨e', he', hle⟩ := hab.leaseEpoch e he
    obtain ⟨e'', he'', hle'⟩ := hbc.leaseEpoch e' he'
    exact ⟨e'', he'', hle.trans hle'⟩

theorem FinalizationJob.le_generation {job : FinalizationJob} {g : ℤ}
    (hg : g ∈ job.dispatchGeneration) : g ≤ job.generation := by
  rw [FinalizationJob.generation, Option.mem_def.mp hg]
  exact le_intOr_some g

theorem FinalizationJob.epoch_eq {job : FinalizationJob} {e : ℤ} (he : e ∈ job.leaseEpoch) :
    job.epoch = e := by
  rw [FinalizationJob.epoch, Option.mem_def.mp he, intOr_some_zero]

theorem advances_claimed (job : FinalizationJob) (req : ClaimRequest) :
    Advances job (job.claimed req) where
  generation := le_rfl
  epoch := by
    have hepoch : (job.claimed req).epoch = job.epoch + 1 := intOr_some_zero _
    omega
  dispatchGeneration g hg := ⟨g, hg, le_rfl⟩
  leaseEpoch e he := by
    have hread := FinalizationJob.epoch_eq he
    exact ⟨job.epoch + 1, rfl, by omega⟩

theorem advances_replayed (job : FinalizationJob) (staleAfter now : ℤ) :
    Advances job (job.replayed staleAfter now) where
  generation := by
    have hnext : job.generation + 1 ≤ (job.replayed staleAfter now).generation :=
      le_intOr_some _
    omega
  epoch := le_rfl
  dispatchGeneration g hg := by
    have hread := FinalizationJob.le_generation hg
    exact ⟨job.generation + 1, rfl, by omega⟩
  leaseEpoch e he := ⟨e, he, le_rfl⟩

section JobWrite
variable {jobId : String} {old new : FinalizationJob} {call : FinalizationCall}
  {deltas : List (ProjectionCounter × ℤ)}

theorem JobWrite.advances (h : JobWrite jobId old call new deltas) : Advances old new := by
  cases h with
  | claimed req => exact advances_claimed old req
  | reclaimed req => exact advances_claimed old req
  | replayed staleAfter now => exact advances_replayed old staleAfter now
  | replayedLease staleAfter now => exact advances_replayed old staleAfter now
  | _ => exact .of_eq rfl rfl

/-- A worker's write needs the job's current lease. -/
theorem JobWrite.owns_of_lease {lease : LeaseProof} (h : JobWrite jobId old call new deltas)
    (hcall : call.lease = some (jobId, lease)) : lease.owns old = true := by
  cases h with
  | succeeded _ howns | fenced _ howns | fanoutFenced _ _ howns | fanoutLeased _ _ howns
  | fanoutDelivered _ howns | retryable _ _ _ howns | deadLettered _ _ _ howns =>
    obtain ⟨-, rfl⟩ := Prod.mk.inj (Option.some.inj hcall)
    exact howns
  | _ => cases hcall

/-- A closed job is not written. -/
theorem JobWrite.not_isTerminal (h : JobWrite jobId old call new deltas) :
    old.isTerminal = false := by
  rcases h.status_open with hstatus | hstatus | hstatus <;>
    simp [FinalizationJob.isTerminal, hstatus]

/-- Recording an outcome closes the job. -/
theorem JobWrite.isTerminal_of_outcome (h : JobWrite jobId old call new deltas)
    (houtcome : new.terminalOutcome ≠ old.terminalOutcome) : new.isTerminal = true := by
  cases h with
  | succeeded | fenced | fanoutFenced => rfl
  | deadLettered | abandoned | abandonedLease => rfl
  | _ => exact absurd rfl houtcome

end JobWrite

theorem JobStep.advances {jobId : String} {call : FinalizationCall} {old : FinalizationJob}
    {next : Option FinalizationJob} (h : JobStep hashes jobId call (some old) next) :
    ∃ new, next = some new ∧ Advances old new ∧ (old.isTerminal = true → new = old) := by
  cases h with
  | same => exact ⟨old, rfl, .of_eq rfl rfl, fun _ => rfl⟩
  | wrote _ new deltas hwrite =>
    refine ⟨new, rfl, hwrite.advances, fun hterminal => ?_⟩
    simp [hwrite.not_isTerminal] at hterminal

/-- A job stays, advances, and once closed is the same document after every run. -/
theorem job_state (calls : List FinalizationCall) {s : FinalizationStore} {jobId : String}
    {old : FinalizationJob} (hold : s.jobs.get jobId = some old) :
    ∃ new, ((finalization hashes).state s calls).jobs.get jobId = some new ∧ Advances old new ∧
      (old.isTerminal = true → new = old) := by
  refine Machine.invariant (M := finalization hashes)
    (I := fun t => ∃ new, t.jobs.get jobId = some new ∧ Advances old new ∧
      (old.isTerminal = true → new = old)) ?_ ⟨old, hold, .of_eq rfl rfl, fun _ => rfl⟩ calls
  rintro t call ⟨mid, hmid, hadvances, hclosed⟩
  have hstep := finalizationStep_jobStep hashes t call jobId
  rw [hmid] at hstep
  obtain ⟨new, hnew, hnext, hsame⟩ := hstep.advances
  refine ⟨new, hnew, hadvances.trans hnext, fun hterminal => ?_⟩
  have hmideq := hclosed hterminal
  subst hmideq
  exact hsame hterminal

/-- The successful claims of a job. -/
def claimSucceeded (jobId : String) : FinalizationCall × FinalizationReply → Bool
  | (.claim id _, .claim reply) => id = jobId && reply.status = "claimed"
  | _ => false

/-- The epoch a reply reports. -/
def FinalizationReply.leaseEpoch : FinalizationReply → Option ℤ
  | .claim reply => reply.leaseEpoch
  | _ => none

def claimedEpoch (jobId : String) (event : FinalizationCall × FinalizationReply) : Option ℤ :=
  if claimSucceeded jobId event then event.2.leaseEpoch else none

def FinalizationStore.epoch (s : FinalizationStore) (jobId : String) : ℤ :=
  ((s.jobs.get jobId).map FinalizationJob.epoch).getD 0

theorem epoch_le_step (s : FinalizationStore) (call : FinalizationCall) (jobId : String) :
    s.epoch jobId ≤ (finalizationStep hashes s call).1.epoch jobId := by
  have hstep := finalizationStep_jobStep hashes s call jobId
  unfold FinalizationStore.epoch
  generalize s.jobs.get jobId = before at hstep ⊢
  generalize (finalizationStep hashes s call).1.jobs.get jobId = after at hstep ⊢
  cases hstep with
  | same => exact le_rfl
  | created => exact le_rfl
  | wrote old new _ hwrite => exact hwrite.advances.epoch

theorem FinalizationJobStatus.text_ne_claimed (status : Option FinalizationJobStatus) :
    (status.map FinalizationJobStatus.text).getD "" ≠ "claimed" := by
  cases status with
  | none => decide
  | some status => cases status <;> decide

theorem claimFinalizationJob_claimed {snapshot : Option FinalizationJob} {req : ClaimRequest}
    (hclaimed : (claimFinalizationJob snapshot req).reply.status = "claimed") :
    ∃ job, snapshot = some job ∧
      (claimFinalizationJob snapshot req).write = some (job.claimed req) ∧
      (claimFinalizationJob snapshot req).reply.leaseEpoch = some (job.epoch + 1) := by
  cases snapshot with
  | none =>
    have hmissing : (claimFinalizationJob none req).reply.status = "missing" := rfl
    rw [hmissing] at hclaimed
    exact absurd hclaimed (by decide)
  | some job =>
    refine ⟨job, rfl, ?_⟩
    obtain ⟨txn, htxn⟩ : ∃ txn, claimFinalizationJob (some job) req = txn := ⟨_, rfl⟩
    rw [htxn] at hclaimed ⊢
    -- every early return answers with another status
    have hearly : ∀ status : String, status ≠ "claimed" →
        ({ reply := { status := status } } : JobTxn FinalizationClaim) ≠ txn := by
      rintro status hstatus rfl
      exact hstatus hclaimed
    obtain ⟨-, htxn⟩ := past_guard htxn (hearly _ (by decide))
    obtain ⟨-, htxn⟩ := past_guard htxn (hearly _ (by decide))
    obtain ⟨-, htxn⟩ := past_guard htxn (hearly _ (by decide))
    obtain ⟨-, htxn⟩ := past_guard htxn (hearly _ (FinalizationJobStatus.text_ne_claimed _))
    obtain ⟨-, htxn⟩ := past_guard htxn (hearly _ (by decide))
    obtain ⟨-, htxn⟩ := past_guard htxn (hearly _ (by decide))
    obtain ⟨-, htxn⟩ := past_guard htxn (hearly _ (by decide))
    obtain ⟨-, htxn⟩ := past_guard htxn (hearly _ (by decide))
    obtain ⟨-, rfl⟩ := past_guard htxn (hearly _ (by decide))
    exact ⟨rfl, rfl⟩

/-- A successful claim returns the next epoch and stores it. -/
theorem claimSucceeded_step {s : FinalizationStore} {call : FinalizationCall} {jobId : String}
    (hclaimed : claimSucceeded jobId (call, (finalizationStep hashes s call).2) = true) :
    (finalizationStep hashes s call).2.leaseEpoch = some (s.epoch jobId + 1) ∧
      (finalizationStep hashes s call).1.epoch jobId = s.epoch jobId + 1 := by
  cases call with
  | claim id req =>
    have hparts : id = jobId ∧
        (claimFinalizationJob (s.jobs.get id) req).reply.status = "claimed" := by
      simpa [claimSucceeded, finalizationStep, FinalizationCall.txn] using hclaimed
    obtain ⟨rfl, hstatus⟩ := hparts
    obtain ⟨job, hjob, hwrite, hepoch⟩ := claimFinalizationJob_claimed hstatus
    have hread : s.epoch id = job.epoch := by simp [FinalizationStore.epoch, hjob]
    have hnext : (job.claimed req).epoch = job.epoch + 1 := intOr_some_zero _
    constructor
    · simpa [finalizationStep, FinalizationCall.txn, FinalizationReply.leaseEpoch, hread] using
        hepoch
    · have hcommit : (finalizationStep hashes s (.claim id req)).1.jobs.get id =
          some (job.claimed req) := by
        simp only [finalizationStep, FinalizationCall.txn, FinalizationStore.commit,
          JobTxn.map_write, hwrite, Table.get_set, if_true]
      rw [hread, ← hnext]
      simp [FinalizationStore.epoch, hcommit]
  | _ => simp [claimSucceeded] at hclaimed

/-- The epochs of the successful claims of a job, in the order of the run, increase. -/
theorem claimedEpochs_pairwise (s : FinalizationStore) (calls : List FinalizationCall)
    (jobId : String) :
    (((finalization hashes).trace s calls).filterMap (claimedEpoch jobId)).Pairwise (· < ·) := by
  refine (Machine.pairwise_lt_trace (I := fun _ => True) (fun t => t.epoch jobId)
    (fun _ _ _ => trivial) (fun t call _ => epoch_le_step hashes t call jobId) ?_ trivial calls).1
  intro t call epoch _ hemit
  rw [claimedEpoch, Option.ite_none_right_eq_some, finalization_step] at hemit
  obtain ⟨hclaimed, hemit⟩ := hemit
  obtain ⟨hreply, hnext⟩ := claimSucceeded_step hashes hclaimed
  have hepoch : t.epoch jobId + 1 = epoch := Option.some.inj (hreply.symm.trans hemit)
  rw [finalization_step]
  omega

theorem claimSucceeded_leaseEpoch {s : FinalizationStore} {calls : List FinalizationCall}
    {jobId : String} {event : FinalizationCall × FinalizationReply}
    (hevent : event ∈ (finalization hashes).trace s calls)
    (hclaimed : claimSucceeded jobId event = true) : (claimedEpoch jobId event).isSome = true := by
  induction calls generalizing s with
  | nil => simp at hevent
  | cons call calls ih =>
    rw [Machine.trace_cons, List.mem_cons] at hevent
    rcases hevent with rfl | hevent
    · rw [finalization_step] at hclaimed ⊢
      obtain ⟨hreply, -⟩ := claimSucceeded_step hashes hclaimed
      simp [claimedEpoch, hclaimed, hreply]
    · exact ih hevent

def FinalizationStore.outcome (s : FinalizationStore) (jobId : String) : Option TerminalOutcome :=
  (s.jobs.get jobId).bind (·.terminalOutcome)

/-- The step that records an outcome leaves a closed job. -/
theorem outcome_step {s : FinalizationStore} {call : FinalizationCall} {jobId : String}
    (houtcome : (finalizationStep hashes s call).1.outcome jobId ≠ s.outcome jobId) :
    ∃ job, (finalizationStep hashes s call).1.jobs.get jobId = some job ∧
      job.isTerminal = true := by
  have hstep := finalizationStep_jobStep hashes s call jobId
  unfold FinalizationStore.outcome at houtcome
  generalize s.jobs.get jobId = before at hstep houtcome
  generalize (finalizationStep hashes s call).1.jobs.get jobId = after at hstep houtcome ⊢
  cases hstep with
  | same => exact absurd rfl houtcome
  | created => exact absurd rfl houtcome
  | wrote old new _ hwrite => exact ⟨new, rfl, hwrite.isTerminal_of_outcome houtcome⟩

/-- Leases fence every run on a job, from any state of the collections: its generation and
epoch never fall and successful claims return increasing epochs; a worker's call that changes
a job presents its current lease; a closed job keeps its status and outcome, and what one
step records as the outcome stays. -/
theorem leaseFencing (s : FinalizationStore) (calls : List FinalizationCall) (jobId : String) :
    (∀ old, s.jobs.get jobId = some old →
      ∃ new, ((finalization hashes).state s calls).jobs.get jobId = some new ∧
        Advances old new ∧
        (old.status = some .completed ∨ old.status = some .deadLetter →
          new.status = old.status ∧ new.terminalOutcome = old.terminalOutcome)) ∧
    (∀ event ∈ (finalization hashes).trace s calls, claimSucceeded jobId event = true →
      (claimedEpoch jobId event).isSome = true) ∧
    (((finalization hashes).trace s calls).filterMap (claimedEpoch jobId)).Pairwise (· < ·) ∧
    (∀ call lease, call.lease = some (jobId, lease) →
      let t := (finalization hashes).state s calls
      (finalizationStep hashes t call).1.jobs.get jobId ≠ t.jobs.get jobId →
        ∃ job, t.jobs.get jobId = some job ∧
          isCurrentLease job lease.dispatchGeneration lease.leaseEpoch = true) ∧
    (∀ before call after, calls = before ++ call :: after →
      let t := (finalization hashes).state s before
      let u := (finalization hashes).state s (before ++ [call])
      u.outcome jobId ≠ t.outcome jobId →
        ((finalization hashes).state s calls).outcome jobId = u.outcome jobId) := by
  refine ⟨fun old hold => ?_, fun event => claimSucceeded_leaseEpoch hashes,
    claimedEpochs_pairwise hashes s calls jobId, ?_, ?_⟩
  · obtain ⟨new, hnew, hadvances, hclosed⟩ := job_state hashes calls hold
    refine ⟨new, hnew, hadvances, fun hstatus => ?_⟩
    have hsame : new = old := hclosed (by simpa [FinalizationJob.isTerminal] using hstatus)
    rw [hsame]
    exact ⟨rfl, rfl⟩
  · intro call lease hlease t hchanged
    have hstep := finalizationStep_jobStep hashes t call jobId
    generalize t.jobs.get jobId = before at hstep hchanged ⊢
    generalize (finalizationStep hashes t call).1.jobs.get jobId = after at hstep hchanged
    cases hstep with
    | same => exact absurd rfl hchanged
    | created req _ _ _ hcall =>
      subst hcall
      cases hlease
    | wrote old new _ hwrite => exact ⟨old, rfl, hwrite.owns_of_lease hlease⟩
  · rintro before call after rfl t u hrecorded
    have hu : u = (finalizationStep hashes t call).1 := by
      simp only [u, t, Machine.state_append, Machine.state_cons, Machine.state_nil,
        finalization_step]
    obtain ⟨job, hjob, hterminal⟩ := outcome_step hashes (hu ▸ hrecorded)
    rw [← hu] at hjob
    obtain ⟨new, hnew, -, hsame⟩ := job_state hashes after hjob
    have hrun : (finalization hashes).state s (before ++ call :: after) =
        (finalization hashes).state u after := by
      simp only [u, Machine.state_append, Machine.state_cons, Machine.state_nil]
    have hnewjob := hsame hterminal
    simp [hrun, FinalizationStore.outcome, hnew, hjob, hnewjob]

end Omi.Finalization
