import Omi.Finalization.Store

/-! The projection counters of every shard count the jobs: each write moves them by exactly
what it changes about its own job. -/
namespace Omi.Finalization
open Omi.Foundation

variable (hashes : FinalizationHashes)

/-- What a job adds to a counter of its shard. -/
def FinalizationJob.counts (job : FinalizationJob) : ProjectionCounter → Bool
  | .accepted => true
  | .status status => job.status = some status
  | .outcome outcome => job.terminalOutcome = some outcome

/-- The terminal outcomes a job may carry in its status. -/
def FinalizationJob.outcomeFits (job : FinalizationJob) : Prop :=
  match job.status with
  | some .completed =>
    job.terminalOutcome = some .success ∨ job.terminalOutcome = some .stale
  | some .deadLetter => job.terminalOutcome = some .failure
  | _ => job.terminalOutcome = none

def FinalizationJob.inShard (shard : Fin finalizationProjectionShardCount)
    (job : FinalizationJob) : Bool := projectionShardOf job = some shard

/-- The jobs of a shard that a counter of it should count. -/
def FinalizationStore.count (s : FinalizationStore)
    (shard : Fin finalizationProjectionShardCount) (counter : ProjectionCounter) : ℕ :=
  s.jobs.countP fun kv => kv.2.inShard shard && kv.2.counts counter

@[simp] theorem deltaOf_nil (counter : ProjectionCounter) : deltaOf [] counter = 0 := rfl

@[simp] theorem deltaOf_cons (c : ProjectionCounter) (n : ℤ) (deltas) (counter) :
    deltaOf ((c, n) :: deltas) counter = (if c = counter then n else 0) + deltaOf deltas counter := by
  unfold deltaOf
  by_cases h : c = counter <;> simp [h]

theorem recordProjectionDelta_apply (shards : Fin finalizationProjectionShardCount → ProjectionShard)
    (job : FinalizationJob) (deltas : List (ProjectionCounter × ℤ))
    (shard : Fin finalizationProjectionShardCount) (counter : ProjectionCounter) :
    recordProjectionDelta shards job deltas shard counter =
      shards shard counter + if job.inShard shard then deltaOf deltas counter else 0 := by
  unfold recordProjectionDelta FinalizationJob.inShard
  cases h : projectionShardOf job with
  | none => simp
  | some own =>
    by_cases hown : shard = own
    · subst hown
      simp
    · have hne : own ≠ shard := Ne.symm hown
      simp [Function.update_of_ne hown, hne]

section Delta
variable {a b : FinalizationJobStatus} {old : FinalizationJob} (new : FinalizationJob)

/-- What the counters must gain when a job changes from `old` to `new`. -/
def countsChange (old new : FinalizationJob) (counter : ProjectionCounter) : ℤ :=
  (if new.counts counter then 1 else 0) - (if old.counts counter then 1 else 0)

theorem countsChange_stay (hstatus : new.status = old.status)
    (houtcome : new.terminalOutcome = old.terminalOutcome) (counter : ProjectionCounter) :
    countsChange old new counter = 0 := by
  have hcounts : new.counts counter = old.counts counter := by
    cases counter <;> simp [FinalizationJob.counts, hstatus, houtcome]
  rw [countsChange, hcounts, sub_self]

theorem countsChange_move (hold : old.status = some a) (hnew : new.status = some b)
    (houtcome : new.terminalOutcome = old.terminalOutcome) (counter : ProjectionCounter) :
    countsChange old new counter = deltaOf [(.status a, -1), (.status b, 1)] counter := by
  unfold countsChange
  cases counter with
  | accepted => simp [FinalizationJob.counts]
  | status status =>
    simp only [FinalizationJob.counts, hold, hnew, deltaOf_cons, deltaOf_nil, decide_eq_true_eq,
      Option.some.injEq, ProjectionCounter.status.injEq]
    split_ifs <;> rfl
  | outcome => simp [FinalizationJob.counts, houtcome]

theorem countsChange_close {outcome : TerminalOutcome} (hold : old.status = some a)
    (hopen : old.terminalOutcome = none) (hnew : new.status = some b)
    (houtcome : new.terminalOutcome = some outcome) (counter : ProjectionCounter) :
    countsChange old new counter =
      deltaOf [(.status a, -1), (.status b, 1), (.outcome outcome, 1)] counter := by
  unfold countsChange
  cases counter with
  | accepted => simp [FinalizationJob.counts]
  | status status =>
    simp only [FinalizationJob.counts, hold, hnew, deltaOf_cons, deltaOf_nil, decide_eq_true_eq,
      Option.some.injEq, ProjectionCounter.status.injEq, reduceCtorEq, if_false]
    split_ifs <;> rfl
  | outcome => simp [FinalizationJob.counts, hopen, houtcome]

end Delta

section JobWrite
variable {jobId : String} {old new : FinalizationJob} {call : FinalizationCall}
  {deltas : List (ProjectionCounter × ℤ)}

theorem JobWrite.projectionShardOf_eq (h : JobWrite jobId old call new deltas) :
    projectionShardOf new = projectionShardOf old := by
  cases h <;> rfl

/-- A job that a transaction writes has no outcome yet. -/
theorem JobWrite.terminalOutcome_eq_none (h : JobWrite jobId old call new deltas)
    (hfits : old.outcomeFits) : old.terminalOutcome = none := by
  unfold FinalizationJob.outcomeFits at hfits
  rcases h.status_open with hstatus | hstatus | hstatus <;> rw [hstatus] at hfits <;> exact hfits

theorem JobWrite.outcomeFits (h : JobWrite jobId old call new deltas)
    (hfits : old.outcomeFits) : new.outcomeFits := by
  have hnone := h.terminalOutcome_eq_none hfits
  cases h with
  | fanoutLeased _ _ howns =>
    have hleased := LeaseProof.status_of_owns howns
    simpa [FinalizationJob.outcomeFits, FinalizationJob.fanoutLeased, hleased] using hnone
  | fanoutDelivered _ howns =>
    have hleased := LeaseProof.status_of_owns howns
    simpa [FinalizationJob.outcomeFits, FinalizationJob.fanoutDelivered, hleased] using hnone
  | succeeded => exact .inl rfl
  | fenced | fanoutFenced => exact .inr rfl
  | deadLettered | abandoned | abandonedLease => exact rfl
  | resumed | claimed | reclaimed | retryable | replayed | replayedLease => exact hnone

/-- The increments of a write are the change it makes to its job. -/
theorem JobWrite.deltaOf_eq (h : JobWrite jobId old call new deltas)
    (hfits : old.outcomeFits) (counter : ProjectionCounter) :
    deltaOf deltas counter = countsChange old new counter := by
  have hopen := h.terminalOutcome_eq_none hfits
  symm
  cases h with
  | resumed now hblocked => exact countsChange_move (old.resumed now) hblocked rfl rfl counter
  | claimed req hqueued => exact countsChange_move (old.claimed req) hqueued rfl rfl counter
  | reclaimed req hleased => exact countsChange_stay (old.claimed req) hleased.symm rfl counter
  | succeeded now howns =>
    have hleased := LeaseProof.status_of_owns howns
    exact countsChange_close (old.succeeded now) hleased hopen rfl rfl counter
  | fenced now howns | fanoutFenced now _ howns =>
    have hleased := LeaseProof.status_of_owns howns
    exact countsChange_close (old.fencedOff now) hleased hopen rfl rfl counter
  | @fanoutLeased lease now => exact countsChange_stay (old.fanoutLeased lease now) rfl rfl counter
  | fanoutDelivered now => exact countsChange_stay (old.fanoutDelivered now) rfl rfl counter
  | retryable code stale now howns =>
    have hleased := LeaseProof.status_of_owns howns
    exact countsChange_move (old.retryable code stale now) hleased rfl rfl counter
  | deadLettered retries now _ howns =>
    have hleased := LeaseProof.status_of_owns howns
    exact countsChange_close (old.deadLettered retries now) hleased hopen rfl rfl counter
  | replayed stale now hqueued =>
    exact countsChange_stay (old.replayed stale now) hqueued.symm rfl counter
  | replayedLease stale now hleased =>
    exact countsChange_move (old.replayed stale now) hleased rfl rfl counter
  | abandoned req _ hqueued =>
    simpa using countsChange_close (old.abandoned req.now) hqueued hopen rfl rfl counter
  | abandonedLease req _ hleased =>
    simpa using countsChange_close (old.abandoned req.now) hleased hopen rfl rfl counter

end JobWrite

section NewJob
variable (req : IntentRequest) (conversation : Conversation) (revision : ℤ) (fanoutKey : String)

theorem IntentRequest.newJob_outcomeFits :
    (req.newJob hashes conversation revision fanoutKey).outcomeFits := by
  cases hbyok : req.requiresByok <;>
    simp [FinalizationJob.outcomeFits, IntentRequest.newJob, hbyok]

theorem IntentRequest.newJob_deltaOf (counter : ProjectionCounter) :
    deltaOf [(.accepted, 1), (.status (if req.requiresByok then .blockedByok else .queued), 1)]
      counter = if (req.newJob hashes conversation revision fanoutKey).counts counter then 1
        else 0 := by
  cases counter <;> simp [FinalizationJob.counts, IntentRequest.newJob]

/-- A new job is counted in the shard of its id. -/
theorem IntentRequest.newJob_inShard (shard : Fin finalizationProjectionShardCount) :
    (req.newJob hashes conversation revision fanoutKey).inShard shard =
      decide (hashes.projectionShard (hashes.jobId req.uid req.conversationId revision) = shard) := by
  have hlow := Int.emod_nonneg
    (hashes.sha256Prefix (hashes.jobId req.uid req.conversationId revision) : ℤ)
    (b := finalizationProjectionShardCount) (by decide)
  have hhigh := Int.emod_lt_of_pos
    (hashes.sha256Prefix (hashes.jobId req.uid req.conversationId revision) : ℤ)
    (b := finalizationProjectionShardCount) (by decide)
  simp only [FinalizationJob.inShard, projectionShardOf, IntentRequest.newJob,
    FinalizationHashes.projectionShard, if_true, hlow, hhigh, and_self, dif_pos,
    Option.some.injEq, Fin.ext_iff]
  congr 1
  apply propext
  constructor <;> intro h <;> omega

end NewJob

/-- Every job carries an outcome that fits its status, and every counter is a count of jobs. -/
structure ProjectionExact (s : FinalizationStore) : Prop where
  fits : ∀ kv ∈ s.jobs, kv.2.outcomeFits
  exact : ∀ shard counter, s.shards shard counter = s.count shard counter

theorem projectionExact_empty : ProjectionExact .empty where
  fits := by simp [FinalizationStore.empty]
  exact := by simp [FinalizationStore.empty, FinalizationStore.count]

/-- A write moves every count by what its job counts for after and before it. -/
theorem count_set (s : FinalizationStore) (shards) (jobId : String) (new : FinalizationJob)
    (shard : Fin finalizationProjectionShardCount) (counter : ProjectionCounter) :
    ((FinalizationStore.mk (s.jobs.set jobId new) shards).count shard counter : ℤ) =
      s.count shard counter +
        (if new.inShard shard && new.counts counter then 1 else 0) -
        (if (s.jobs.get jobId).any fun old => old.inShard shard && old.counts counter
          then 1 else 0) :=
  Table.countP_set s.jobs jobId new fun job => job.inShard shard && job.counts counter

theorem ProjectionExact.of_effect {s : FinalizationStore} (h : ProjectionExact s)
    {call : FinalizationCall} {next : FinalizationStore × FinalizationReply}
    (heffect : StepEffect hashes s call next) : ProjectionExact next.1 := by
  cases heffect with
  | same => exact h
  | created req conversation revision fanoutKey _ _ habsent =>
    constructor
    · intro kv hkv
      rcases Table.mem_set hkv with rfl | hkv
      · exact req.newJob_outcomeFits hashes conversation revision fanoutKey
      · exact h.fits kv hkv
    · intro shard counter
      have hdelta := req.newJob_deltaOf hashes conversation revision fanoutKey counter
      dsimp only
      rw [recordProjectionDelta_apply, count_set, habsent, h.exact, hdelta]
      by_cases hshard : (req.newJob hashes conversation revision fanoutKey).inShard shard = true
      · simp [hshard]
      · simp [hshard]
  | wrote jobId old new deltas _ hjob hwrite =>
    have hfits : old.outcomeFits := h.fits _ (Table.mem_of_get hjob)
    constructor
    · intro kv hkv
      rcases Table.mem_set hkv with rfl | hkv
      · exact hwrite.outcomeFits hfits
      · exact h.fits kv hkv
    · intro shard counter
      have hsame : new.inShard shard = old.inShard shard := by
        simp [FinalizationJob.inShard, hwrite.projectionShardOf_eq]
      have hdelta := hwrite.deltaOf_eq hfits counter
      dsimp only
      rw [recordProjectionDelta_apply, count_set, hjob, h.exact, hdelta, hsame]
      by_cases hshard : old.inShard shard = true
      · simp only [hshard, if_true, Bool.true_and, countsChange, Option.any_some]
        omega
      · simp [hshard]

theorem projectionExact_state (calls : List FinalizationCall) :
    ProjectionExact ((finalization hashes).state .empty calls) :=
  Machine.invariant (fun s call h => h.of_effect hashes (finalizationStep_effect hashes s call))
    projectionExact_empty calls

/-- The jobs of a shard that a run reports as created. -/
def createdIn (shard : Fin finalizationProjectionShardCount)
    (event : FinalizationCall × FinalizationReply) : Bool :=
  event.2.created.any fun jobId => hashes.projectionShard jobId = shard

theorem StepEffect.accepted {s : FinalizationStore} {call : FinalizationCall}
    {next : FinalizationStore × FinalizationReply} (heffect : StepEffect hashes s call next)
    (hs : ∀ kv ∈ s.jobs, kv.2.outcomeFits) (shard : Fin finalizationProjectionShardCount) :
    next.1.shards shard .accepted = s.shards shard .accepted +
      if createdIn hashes shard (call, next.2) then 1 else 0 := by
  cases heffect with
  | same _ hcreated => simp [createdIn, hcreated]
  | created req conversation revision fanoutKey _ _ _ hcreated =>
    have hdelta := req.newJob_deltaOf hashes conversation revision fanoutKey .accepted
    dsimp only
    rw [recordProjectionDelta_apply, hdelta, req.newJob_inShard hashes]
    simp [createdIn, hcreated, FinalizationJob.counts]
  | wrote jobId old new deltas _ hjob hwrite hcreated =>
    have hdelta := hwrite.deltaOf_eq (hs _ (Table.mem_of_get hjob)) .accepted
    dsimp only
    rw [recordProjectionDelta_apply, hdelta]
    simp [createdIn, hcreated, countsChange, FinalizationJob.counts]

theorem accepted_state {s : FinalizationStore} (hs : ProjectionExact s)
    (calls : List FinalizationCall) (shard : Fin finalizationProjectionShardCount) :
    ((finalization hashes).state s calls).shards shard .accepted = s.shards shard .accepted +
      ((finalization hashes).trace s calls).countP (createdIn hashes shard) := by
  induction calls generalizing s with
  | nil => simp
  | cons call calls ih =>
    have heffect := finalizationStep_effect hashes s call
    have hhead := heffect.accepted hashes hs.fits shard
    rw [Machine.state_cons, Machine.trace_cons, finalization_step, List.countP_cons,
      ih (hs.of_effect hashes heffect), hhead]
    push_cast
    omega

theorem FinalizationJob.outcome_sum {job : FinalizationJob} (hfits : job.outcomeFits) :
    (job.counts (.outcome .success)).toNat + (job.counts (.outcome .failure)).toNat +
        (job.counts (.outcome .stale)).toNat =
      (job.counts (.status .completed)).toNat + (job.counts (.status .deadLetter)).toNat := by
  unfold FinalizationJob.outcomeFits at hfits
  split at hfits
  next hstatus => rcases hfits with houtcome | houtcome <;> simp [counts, hstatus, houtcome]
  next hstatus => simp [counts, hstatus, hfits]
  next hcompleted hdeadLetter =>
    have hcompleted : job.status ≠ some .completed := hcompleted
    have hdeadLetter : job.status ≠ some .deadLetter := hdeadLetter
    simp [counts, hcompleted, hdeadLetter, hfits]

/-- Jobs with an outcome are the closed jobs, in any part of the collection. -/
theorem countP_outcome {jobs : Table FinalizationJob} (hfits : ∀ kv ∈ jobs, kv.2.outcomeFits)
    (p : FinalizationJob → Bool) :
    jobs.countP (fun kv => p kv.2 && kv.2.counts (.outcome .success)) +
        jobs.countP (fun kv => p kv.2 && kv.2.counts (.outcome .failure)) +
        jobs.countP (fun kv => p kv.2 && kv.2.counts (.outcome .stale)) =
      jobs.countP (fun kv => p kv.2 && kv.2.counts (.status .completed)) +
        jobs.countP (fun kv => p kv.2 && kv.2.counts (.status .deadLetter)) := by
  induction jobs with
  | nil => rfl
  | cons kv jobs ih =>
    have htail := ih fun kv hkv => hfits kv (List.mem_cons_of_mem _ hkv)
    have hhead := FinalizationJob.outcome_sum (hfits kv List.mem_cons_self)
    simp only [List.countP_cons]
    cases p kv.2 with
    | false => simpa using htail
    | true =>
      simp only [Bool.true_and, Bool.toNat] at hhead htail ⊢
      simp only [Bool.cond_eq_ite] at hhead
      omega

/-- The projection equals the truth in every reachable state of the job collection: status
counters and `accepted` count the jobs of their shard, `accepted` is also the number of
creations reported along the run, the outcomes add up to the closed jobs, and no counter is
negative. -/
theorem projectionEqualsTruth (calls : List FinalizationCall)
    (shard : Fin finalizationProjectionShardCount) :
    let s := (finalization hashes).state .empty calls
    (∀ status, s.shards shard (.status status) =
      s.jobs.countP fun kv =>
        projectionShardOf kv.2 = some shard && kv.2.status = some status) ∧
    s.shards shard .accepted = s.jobs.countP (fun kv => projectionShardOf kv.2 = some shard) ∧
    s.shards shard .accepted =
      ((finalization hashes).trace .empty calls).countP (createdIn hashes shard) ∧
    s.shards shard (.outcome .success) + s.shards shard (.outcome .failure) +
        s.shards shard (.outcome .stale) =
      s.shards shard (.status .completed) + s.shards shard (.status .deadLetter) ∧
    ∀ counter, 0 ≤ s.shards shard counter := by
  intro s
  have h : ProjectionExact s := projectionExact_state hashes calls
  refine ⟨fun status => h.exact shard (.status status), ?_, ?_, ?_, fun counter => ?_⟩
  · rw [h.exact, FinalizationStore.count]
    simp [FinalizationJob.inShard, FinalizationJob.counts]
  · have haccepted := accepted_state hashes projectionExact_empty calls shard
    have hzero : FinalizationStore.empty.shards shard .accepted = 0 := rfl
    rw [hzero, zero_add] at haccepted
    exact haccepted
  · have houtcomes := countP_outcome h.fits fun job => job.inShard shard
    simp only [h.exact, FinalizationStore.count]
    exact_mod_cast houtcomes
  · rw [h.exact]
    exact Int.natCast_nonneg _

end Omi.Finalization
