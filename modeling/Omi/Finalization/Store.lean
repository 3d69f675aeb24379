import Omi.Finalization.Jobs

/-! The finalization collections under any interleaving of job transactions, and the one
lemma all their invariants come from: what a transaction can write. -/
namespace Omi.Finalization
open Omi.Foundation

/-- The job collection and the projection shards; an absent shard document reads zero. -/
structure FinalizationStore where
  jobs : Table FinalizationJob
  shards : Fin finalizationProjectionShardCount → ProjectionShard

def FinalizationStore.empty : FinalizationStore := ⟨[], fun _ _ => 0⟩

inductive FinalizationCall where
  | createOrGet (req : IntentRequest)
  | resumeByok (jobId : String) (now : ℤ)
  | claim (jobId : String) (req : ClaimRequest)
  | markCompleted (jobId : String) (lease : LeaseProof) (now : ℤ)
  | markFenced (jobId : String) (lease : LeaseProof) (now : ℤ)
  | claimFanout (jobId : String) (lease : LeaseProof) (now : ℤ)
    (conversation : Option Conversation)
  | markFanoutCompleted (jobId : String) (lease : LeaseProof) (now : ℤ)
  | markRetryable (jobId : String) (lease : LeaseProof) (failureCode : String)
    (reconcileStaleAfter now : ℤ)
  | markDeadLetter (jobId : String) (lease : LeaseProof) (retryCount now : ℤ)
    (conversation : Option Conversation)
  | claimReplay (jobId : String) (staleAfter now : ℤ)
  | abandonByok (jobId : String) (req : AbandonRequest) (conversation : Option Conversation)

inductive FinalizationReply where
  | intent (intent : FinalizationIntent)
  | claim (claim : FinalizationClaim)
  | flag (done : Bool)
  | fanout (claim : FinalizationFanoutClaim)
  | abandonment (abandonment : ByokAbandonment)
  deriving DecidableEq, Repr

def JobTxn.map {ρ ρ' : Type} (f : ρ → ρ') (txn : JobTxn ρ) : JobTxn ρ' :=
  { txn with reply := f txn.reply }

@[simp] theorem JobTxn.map_write {ρ ρ' : Type} (f : ρ → ρ') (txn : JobTxn ρ) :
    (txn.map f).write = txn.write := rfl

@[simp] theorem JobTxn.map_deltas {ρ ρ' : Type} (f : ρ → ρ') (txn : JobTxn ρ) :
    (txn.map f).deltas = txn.deltas := rfl

@[simp] theorem JobTxn.map_reply {ρ ρ' : Type} (f : ρ → ρ') (txn : JobTxn ρ) :
    (txn.map f).reply = f txn.reply := rfl

variable (hashes : FinalizationHashes)

/-- The job a call is about and what its transaction does there. -/
def FinalizationCall.txn (jobs : Table FinalizationJob) :
    FinalizationCall → String × JobTxn FinalizationReply
  | .createOrGet req =>
    let created := createOrGetFinalizationIntent hashes jobs req
    (created.1, created.2.map .intent)
  | .resumeByok jobId now => (jobId, (resumeBlockedByokJob jobId (jobs.get jobId) now).map .intent)
  | .claim jobId req => (jobId, (claimFinalizationJob (jobs.get jobId) req).map .claim)
  | .markCompleted jobId lease now =>
    (jobId, (markFinalizationCompleted (jobs.get jobId) lease now).map .flag)
  | .markFenced jobId lease now =>
    (jobId, (markFinalizationFenced (jobs.get jobId) lease now).map .flag)
  | .claimFanout jobId lease now conversation =>
    (jobId, (claimFinalizationFanout jobId (jobs.get jobId) lease now conversation).map .fanout)
  | .markFanoutCompleted jobId lease now =>
    (jobId, (markFinalizationFanoutCompleted (jobs.get jobId) lease now).map .flag)
  | .markRetryable jobId lease failureCode reconcileStaleAfter now =>
    (jobId, (markFinalizationRetryable (jobs.get jobId) lease failureCode reconcileStaleAfter
      now).map .flag)
  | .markDeadLetter jobId lease retryCount now conversation =>
    (jobId, (markFinalizationDeadLetter jobId (jobs.get jobId) lease retryCount now
      conversation).map .flag)
  | .claimReplay jobId staleAfter now =>
    (jobId, (claimFinalizationReplay jobId (jobs.get jobId) staleAfter now).map .intent)
  | .abandonByok jobId req conversation =>
    (jobId, (abandonByokFinalizationJob jobId (jobs.get jobId) req conversation).map .abandonment)

/-- Increments go to the shard of the job as read, or of the job just created. -/
def FinalizationStore.commit (s : FinalizationStore) (jobId : String)
    (txn : JobTxn FinalizationReply) : FinalizationStore :=
  match txn.write with
  | none => s
  | some job =>
    { jobs := s.jobs.set jobId job
      shards := recordProjectionDelta s.shards ((s.jobs.get jobId).getD job) txn.deltas }

def finalizationStep (s : FinalizationStore) (call : FinalizationCall) :
    FinalizationStore × FinalizationReply :=
  (s.commit (call.txn hashes s.jobs).1 (call.txn hashes s.jobs).2, (call.txn hashes s.jobs).2.reply)

def finalization : Machine FinalizationStore FinalizationCall FinalizationReply :=
  ⟨finalizationStep hashes⟩

@[simp] theorem finalization_step (s : FinalizationStore) (call : FinalizationCall) :
    (finalization hashes).step s call = finalizationStep hashes s call := rfl

/-- Every write a transaction can make to a job that exists, with its guards. -/
inductive JobWrite (jobId : String) (old : FinalizationJob) :
    FinalizationCall → FinalizationJob → List (ProjectionCounter × ℤ) → Prop
  | resumed (now : ℤ) (hstatus : old.status = some .blockedByok)
    (hbyok : old.requiresByok = true) :
    JobWrite jobId old (.resumeByok jobId now) (old.resumed now)
      [(.status .blockedByok, -1), (.status .queued, 1)]
  | claimed (req : ClaimRequest) (hstatus : old.status = some .queued)
    (hgeneration : old.generation = req.dispatchGeneration)
    (hbyok : old.requiresByok = true → req.allowByok = true) :
    JobWrite jobId old (.claim jobId req) (old.claimed req)
      [(.status .queued, -1), (.status .leased, 1)]
  | reclaimed (req : ClaimRequest) (hstatus : old.status = some .leased)
    (hexpired : old.leaseLive req.now = false)
    (hgeneration : old.generation = req.dispatchGeneration)
    (hbyok : old.requiresByok = true → req.allowByok = true) :
    JobWrite jobId old (.claim jobId req) (old.claimed req) []
  | succeeded {lease : LeaseProof} (now : ℤ) (howns : lease.owns old = true)
    (hfanout : old.fanoutStatus = some .completed) :
    JobWrite jobId old (.markCompleted jobId lease now) (old.succeeded now)
      [(.status .leased, -1), (.status .completed, 1), (.outcome .success, 1)]
  | fenced {lease : LeaseProof} (now : ℤ) (howns : lease.owns old = true)
    (hfanout : old.fanoutStatus ≠ some .completed) :
    JobWrite jobId old (.markFenced jobId lease now) (old.fencedOff now) fencedDeltas
  | fanoutFenced {lease : LeaseProof} (now : ℤ) (conversation : Option Conversation)
    (howns : lease.owns old = true) (hfanout : old.fanoutStatus ≠ some .completed) :
    JobWrite jobId old (.claimFanout jobId lease now conversation) (old.fencedOff now) fencedDeltas
  | fanoutLeased {lease : LeaseProof} (now : ℤ) (conversation : Option Conversation)
    (howns : lease.owns old = true) (hfanout : old.fanoutStatus ≠ some .completed) :
    JobWrite jobId old (.claimFanout jobId lease now conversation) (old.fanoutLeased lease now) []
  | fanoutDelivered {lease : LeaseProof} (now : ℤ) (howns : lease.owns old = true)
    (hfanout : old.fanoutStatus ≠ some .completed) :
    JobWrite jobId old (.markFanoutCompleted jobId lease now) (old.fanoutDelivered now) []
  | retryable {lease : LeaseProof} (failureCode : String) (reconcileStaleAfter now : ℤ)
    (howns : lease.owns old = true) :
    JobWrite jobId old (.markRetryable jobId lease failureCode reconcileStaleAfter now)
      (old.retryable failureCode reconcileStaleAfter now)
      [(.status .leased, -1), (.status .queued, 1)]
  | deadLettered {lease : LeaseProof} (retryCount now : ℤ) (conversation : Option Conversation)
    (howns : lease.owns old = true) :
    JobWrite jobId old (.markDeadLetter jobId lease retryCount now conversation)
      (old.deadLettered retryCount now)
      [(.status .leased, -1), (.status .deadLetter, 1), (.outcome .failure, 1)]
  | replayed (staleAfter now : ℤ) (hstatus : old.status = some .queued) :
    JobWrite jobId old (.claimReplay jobId staleAfter now) (old.replayed staleAfter now) []
  | replayedLease (staleAfter now : ℤ) (hstatus : old.status = some .leased)
    (hexpired : old.leaseLive now = false) :
    JobWrite jobId old (.claimReplay jobId staleAfter now) (old.replayed staleAfter now)
      [(.status .leased, -1), (.status .queued, 1)]
  | abandoned (req : AbandonRequest) (conversation : Option Conversation)
    (hstatus : old.status = some .queued) (hbyok : old.requiresByok = true) :
    JobWrite jobId old (.abandonByok jobId req conversation) (old.abandoned req.now)
      [(.status .queued, -1), (.status .leased, 0), (.status .deadLetter, 1),
        (.outcome .failure, 1)]
  | abandonedLease (req : AbandonRequest) (conversation : Option Conversation)
    (hstatus : old.status = some .leased) (hbyok : old.requiresByok = true)
    (hexpired : old.leaseLive req.now = false) :
    JobWrite jobId old (.abandonByok jobId req conversation) (old.abandoned req.now)
      [(.status .queued, 0), (.status .leased, -1), (.status .deadLetter, 1),
        (.outcome .failure, 1)]

theorem LeaseProof.status_of_owns {lease : LeaseProof} {job : FinalizationJob}
    (howns : lease.owns job = true) : job.status = some .leased := by
  simp only [LeaseProof.owns, isCurrentLease, Bool.and_eq_true, decide_eq_true_eq] at howns
  exact howns.1.1

/-- Only a blocked, queued or leased job is ever written. -/
theorem JobWrite.status_open {jobId : String} {old new : FinalizationJob}
    {call : FinalizationCall} {deltas : List (ProjectionCounter × ℤ)}
    (h : JobWrite jobId old call new deltas) :
    old.status = some .blockedByok ∨ old.status = some .queued ∨ old.status = some .leased := by
  cases h with
  | resumed _ hstatus => exact .inl hstatus
  | claimed _ hstatus | replayed _ _ hstatus | abandoned _ _ hstatus => exact .inr (.inl hstatus)
  | reclaimed _ hstatus | replayedLease _ _ hstatus | abandonedLease _ _ hstatus =>
    exact .inr (.inr hstatus)
  | succeeded _ howns | fenced _ howns | fanoutFenced _ _ howns | fanoutLeased _ _ howns
  | fanoutDelivered _ howns | retryable _ _ _ howns | deadLettered _ _ _ howns =>
    exact .inr (.inr (LeaseProof.status_of_owns howns))

section Txn
variable {jobId : String} {snapshot : Option FinalizationJob} {new : FinalizationJob}

/-- Past a guard whose answer is not the one given. -/
theorem past_guard {ρ : Type} {condition : Prop} [Decidable condition] {answer rest txn : JobTxn ρ}
    (htxn : (if condition then answer else rest) = txn) (hanswer : answer ≠ txn) :
    ¬condition ∧ rest = txn := by
  split_ifs at htxn with hcondition
  · exact absurd htxn hanswer
  · exact ⟨hcondition, htxn⟩

theorem JobTxn.ne_of_write {ρ : Type} {txn : JobTxn ρ} (hwrite : txn.write = some new) (reply : ρ) :
    ({ reply := reply } : JobTxn ρ) ≠ txn := by
  rintro rfl
  cases hwrite

theorem resumeBlockedByokJob_write {now : ℤ} {txn : JobTxn FinalizationIntent}
    (htxn : resumeBlockedByokJob jobId snapshot now = txn) (hwrite : txn.write = some new) :
    ∃ old, snapshot = some old ∧ JobWrite jobId old (.resumeByok jobId now) new txn.deltas := by
  cases snapshot with
  | none => subst htxn; cases hwrite
  | some old =>
    simp only [resumeBlockedByokJob] at htxn
    split_ifs at htxn with hblocked <;> subst htxn <;> cases hwrite
    exact ⟨old, rfl, .resumed now hblocked.1 hblocked.2⟩

theorem claimFinalizationJob_write {req : ClaimRequest} {txn : JobTxn FinalizationClaim}
    (htxn : claimFinalizationJob snapshot req = txn) (hwrite : txn.write = some new) :
    ∃ old, snapshot = some old ∧ JobWrite jobId old (.claim jobId req) new txn.deltas := by
  cases snapshot with
  | none => subst htxn; cases hwrite
  | some old =>
    have hreads := JobTxn.ne_of_write hwrite
    obtain ⟨-, htxn⟩ := past_guard htxn (hreads _)
    obtain ⟨-, htxn⟩ := past_guard htxn (hreads _)
    obtain ⟨-, htxn⟩ := past_guard htxn (hreads _)
    obtain ⟨-, htxn⟩ := past_guard htxn (hreads _)
    obtain ⟨hbyok, htxn⟩ := past_guard htxn (hreads _)
    obtain ⟨-, htxn⟩ := past_guard htxn (hreads _)
    obtain ⟨hgeneration, htxn⟩ := past_guard htxn (hreads _)
    obtain ⟨hlive, htxn⟩ := past_guard htxn (hreads _)
    obtain ⟨haction, rfl⟩ := past_guard htxn (hreads _)
    cases hwrite
    have hallow : old.requiresByok = true → req.allowByok = true := by simpa using hbyok
    push Not at hgeneration
    by_cases hqueued : old.status = some .queued
    · rw [if_pos hqueued]
      exact ⟨old, rfl, .claimed req hqueued hgeneration hallow⟩
    · have hleased : old.status = some .leased := by tauto
      have hexpired : old.leaseLive req.now = false := by simpa [hleased] using hlive
      rw [if_neg hqueued]
      exact ⟨old, rfl, .reclaimed req hleased hexpired hgeneration hallow⟩

theorem markFinalizationCompleted_write {lease : LeaseProof} {now : ℤ} {txn : JobTxn Bool}
    (htxn : markFinalizationCompleted snapshot lease now = txn) (hwrite : txn.write = some new) :
    ∃ old, snapshot = some old ∧
      JobWrite jobId old (.markCompleted jobId lease now) new txn.deltas := by
  cases snapshot with
  | none => subst htxn; cases hwrite
  | some old =>
    simp only [markFinalizationCompleted] at htxn
    split_ifs at htxn with hdone howns hfanout <;> subst htxn <;> cases hwrite
    exact ⟨old, rfl, .succeeded now (by simpa using howns) (by simpa using hfanout)⟩

theorem markFinalizationFenced_write {lease : LeaseProof} {now : ℤ} {txn : JobTxn Bool}
    (htxn : markFinalizationFenced snapshot lease now = txn) (hwrite : txn.write = some new) :
    ∃ old, snapshot = some old ∧
      JobWrite jobId old (.markFenced jobId lease now) new txn.deltas := by
  cases snapshot with
  | none => subst htxn; cases hwrite
  | some old =>
    simp only [markFinalizationFenced] at htxn
    split_ifs at htxn with hdone howns hfanout <;> subst htxn <;> cases hwrite
    refine ⟨old, rfl, .fenced now (by simpa using howns) fun hcompleted => hfanout ?_⟩
    simp [hcompleted]

theorem claimFinalizationFanout_write {lease : LeaseProof} {now : ℤ}
    {conversation : Option Conversation} {txn : JobTxn FinalizationFanoutClaim}
    (htxn : claimFinalizationFanout jobId snapshot lease now conversation = txn)
    (hwrite : txn.write = some new) :
    ∃ old, snapshot = some old ∧
      JobWrite jobId old (.claimFanout jobId lease now conversation) new txn.deltas := by
  cases snapshot with
  | none => subst htxn; cases hwrite
  | some old =>
    simp only [claimFinalizationFanout] at htxn
    split_ifs at htxn with hdelivered howns hfence <;> subst htxn <;> cases hwrite
    · exact ⟨old, rfl, .fanoutFenced now conversation (by simpa using howns) hdelivered⟩
    · exact ⟨old, rfl, .fanoutLeased now conversation (by simpa using howns) hdelivered⟩

theorem markFinalizationFanoutCompleted_write {lease : LeaseProof} {now : ℤ} {txn : JobTxn Bool}
    (htxn : markFinalizationFanoutCompleted snapshot lease now = txn)
    (hwrite : txn.write = some new) :
    ∃ old, snapshot = some old ∧
      JobWrite jobId old (.markFanoutCompleted jobId lease now) new txn.deltas := by
  cases snapshot with
  | none => subst htxn; cases hwrite
  | some old =>
    simp only [markFinalizationFanoutCompleted] at htxn
    split_ifs at htxn with hdelivered howns <;> subst htxn <;> cases hwrite
    exact ⟨old, rfl, .fanoutDelivered now (by simpa using howns) hdelivered⟩

theorem markFinalizationRetryable_write {lease : LeaseProof} {failureCode : String}
    {reconcileStaleAfter now : ℤ} {txn : JobTxn Bool}
    (htxn : markFinalizationRetryable snapshot lease failureCode reconcileStaleAfter now = txn)
    (hwrite : txn.write = some new) :
    ∃ old, snapshot = some old ∧ JobWrite jobId old
      (.markRetryable jobId lease failureCode reconcileStaleAfter now) new txn.deltas := by
  cases snapshot with
  | none => subst htxn; cases hwrite
  | some old =>
    simp only [markFinalizationRetryable] at htxn
    split_ifs at htxn with howns <;> subst htxn <;> cases hwrite
    exact ⟨old, rfl, .retryable failureCode reconcileStaleAfter now (by simpa using howns)⟩

theorem markFinalizationDeadLetter_write {lease : LeaseProof} {retryCount now : ℤ}
    {conversation : Option Conversation} {txn : JobTxn Bool}
    (htxn : markFinalizationDeadLetter jobId snapshot lease retryCount now conversation = txn)
    (hwrite : txn.write = some new) :
    ∃ old, snapshot = some old ∧ JobWrite jobId old
      (.markDeadLetter jobId lease retryCount now conversation) new txn.deltas := by
  cases snapshot with
  | none => subst htxn; cases hwrite
  | some old =>
    simp only [markFinalizationDeadLetter] at htxn
    by_cases howns : lease.owns old = true
    · simp only [howns, Bool.not_true, Bool.false_eq_true, if_false] at htxn
      subst htxn
      cases hwrite
      exact ⟨old, rfl, .deadLettered retryCount now conversation howns⟩
    · simp only [howns, Bool.not_false, if_true] at htxn
      subst htxn
      cases hwrite

theorem claimFinalizationReplay_write {staleAfter now : ℤ} {txn : JobTxn FinalizationIntent}
    (htxn : claimFinalizationReplay jobId snapshot staleAfter now = txn)
    (hwrite : txn.write = some new) :
    ∃ old, snapshot = some old ∧
      JobWrite jobId old (.claimReplay jobId staleAfter now) new txn.deltas := by
  cases snapshot with
  | none => subst htxn; cases hwrite
  | some old =>
    simp only [claimFinalizationReplay] at htxn
    split_ifs at htxn with hclosed hlive hrecent haction hleased <;> subst htxn <;> cases hwrite
    · have hexpired : old.leaseLive now = false := by simpa [hleased] using hlive
      exact ⟨old, rfl, .replayedLease staleAfter now hleased hexpired⟩
    · have hqueued : old.status = some .queued := by tauto
      exact ⟨old, rfl, .replayed staleAfter now hqueued⟩

theorem abandonByokFinalizationJob_write {req : AbandonRequest}
    {conversation : Option Conversation} {txn : JobTxn ByokAbandonment}
    (htxn : abandonByokFinalizationJob jobId snapshot req conversation = txn)
    (hwrite : txn.write = some new) :
    ∃ old, snapshot = some old ∧
      JobWrite jobId old (.abandonByok jobId req conversation) new txn.deltas := by
  cases snapshot with
  | none => subst htxn; cases hwrite
  | some old =>
    have hreads := JobTxn.ne_of_write hwrite
    obtain ⟨hbyok, htxn⟩ := past_guard htxn (hreads _)
    obtain ⟨hstatus, htxn⟩ := past_guard htxn (hreads _)
    obtain ⟨-, htxn⟩ := past_guard htxn (hreads _)
    obtain ⟨-, htxn⟩ := past_guard htxn (hreads _)
    obtain ⟨hlive, htxn⟩ := past_guard htxn (hreads _)
    obtain ⟨-, rfl⟩ := past_guard htxn (hreads _)
    cases hwrite
    have hrequires : old.requiresByok = true := by simpa using hbyok
    by_cases hqueued : old.status = some .queued
    · simp only [hqueued, Option.some.injEq, reduceCtorEq, if_true, if_false]
      exact ⟨old, rfl, .abandoned req conversation hqueued hrequires⟩
    · have hleased : old.status = some .leased := by tauto
      have hexpired : old.leaseLive req.now = false := by simpa [hleased] using hlive
      simp only [hleased, Option.some.injEq, reduceCtorEq, if_true, if_false]
      exact ⟨old, rfl, .abandonedLease req conversation hleased hrequires hexpired⟩

end Txn

/-- What an intent transaction can do: read, or create a job that is not there yet. -/
inductive IntentTxn (jobs : Table FinalizationJob) (req : IntentRequest) :
    String → JobTxn FinalizationIntent → Prop
  | read (jobId : String) (intent : FinalizationIntent) (updates : Option PyDict)
    (hcreated : intent.created = false) :
    IntentTxn jobs req jobId { reply := intent, conversation := updates }
  | create (conversation : Conversation) (revision : ℤ) (fanoutKey : String)
    (updates : Option PyDict)
    (habsent : jobs.get (hashes.jobId req.uid req.conversationId revision) = none) :
    IntentTxn jobs req (hashes.jobId req.uid req.conversationId revision)
      { reply := intentFromJob (hashes.jobId req.uid req.conversationId revision)
          (req.newJob hashes conversation revision fanoutKey) true
        write := some (req.newJob hashes conversation revision fanoutKey)
        deltas := [(.accepted, 1),
          (.status (if req.requiresByok then .blockedByok else .queued), 1)]
        conversation := updates }

theorem admitFinalizationIntent_cases (jobs : Table FinalizationJob) (req : IntentRequest)
    (conversation : Conversation) :
    IntentTxn hashes jobs req
      (hashes.jobId req.uid req.conversationId (intOr conversation.finalizationRevision 0 + 1))
      (admitFinalizationIntent hashes jobs req conversation
        (hashes.jobId req.uid req.conversationId
          (intOr conversation.finalizationRevision 0 + 1))) := by
  generalize hid : hashes.jobId req.uid req.conversationId
    (intOr conversation.finalizationRevision 0 + 1) = jobId
  simp only [admitFinalizationIntent]
  split
  next fanoutKey _ _ =>
    cases hjob : jobs.get jobId with
    | some job =>
      refine .read jobId (intentFromJob jobId job) _ ?_
      rfl
    | none =>
      subst hid
      exact .create conversation _ fanoutKey _ hjob
  next =>
    refine .read jobId (noFinalizationIntent _) none ?_
    rfl

theorem createOrGetFinalizationIntent_cases (jobs : Table FinalizationJob) (req : IntentRequest) :
    IntentTxn hashes jobs req (createOrGetFinalizationIntent hashes jobs req).1
      (createOrGetFinalizationIntent hashes jobs req).2 := by
  have hnone (jobId reason) :
      IntentTxn hashes jobs req jobId { reply := noFinalizationIntent reason } := by
    refine .read jobId _ none ?_
    rfl
  unfold createOrGetFinalizationIntent
  cases req.conversation with
  | none => exact hnone "" "missing"
  | some conversation =>
    by_cases hdeferred : conversation.deferred = true
    · simp only [hdeferred, if_true]
      exact hnone _ "deferred"
    by_cases hcontent : (!conversation.hasContent) = true
    · simp only [hdeferred, hcontent, if_true]
      exact hnone _ "no_content"
    by_cases hterminal : (req.admission conversation).terminal = true
    · simp only [hdeferred, hcontent, hterminal, if_true]
      exact hnone _ _
    simp only [hdeferred, hcontent, hterminal]
    cases hexisting : (conversation.finalizationJobId.filter (· ≠ "")).bind fun existingJobId =>
      (jobs.get existingJobId).map (intentFromJob existingJobId ·) with
    | some intent =>
      obtain ⟨existingJobId, -, hjob⟩ := Option.bind_eq_some_iff.mp hexisting
      obtain ⟨job, -, rfl⟩ := Option.map_eq_some_iff.mp hjob
      refine .read _ _ none ?_
      rfl
    | none => exact admitFinalizationIntent_cases hashes jobs req conversation

/-- The job a reply reports as newly created. -/
def FinalizationReply.created : FinalizationReply → Option String
  | .intent reply => if reply.created then reply.jobId else none
  | _ => none

theorem resumeBlockedByokJob_created (jobId : String) (snapshot : Option FinalizationJob)
    (now : ℤ) : (resumeBlockedByokJob jobId snapshot now).reply.created = false := by
  cases snapshot with
  | none => rfl
  | some job =>
    simp only [resumeBlockedByokJob]
    split_ifs <;> rfl

theorem claimFinalizationReplay_created (jobId : String) (snapshot : Option FinalizationJob)
    (staleAfter now : ℤ) :
    (claimFinalizationReplay jobId snapshot staleAfter now).reply.created = false := by
  cases snapshot with
  | none => rfl
  | some job =>
    simp only [claimFinalizationReplay]
    split_ifs <;> rfl

/-- What a step does to the store: nothing, the creation of one job, or one write to a job
that is there. -/
inductive StepEffect (s : FinalizationStore) (call : FinalizationCall) :
    FinalizationStore × FinalizationReply → Prop
  | same (reply : FinalizationReply) (hcreated : reply.created = none) :
    StepEffect s call (s, reply)
  | created (req : IntentRequest) (conversation : Conversation) (revision : ℤ)
    (fanoutKey : String) (reply : FinalizationReply)
    (hcall : call = .createOrGet req)
    (habsent : s.jobs.get (hashes.jobId req.uid req.conversationId revision) = none)
    (hcreated : reply.created = some (hashes.jobId req.uid req.conversationId revision)) :
    StepEffect s call
      ({ jobs := s.jobs.set (hashes.jobId req.uid req.conversationId revision)
          (req.newJob hashes conversation revision fanoutKey)
         shards := recordProjectionDelta s.shards
          (req.newJob hashes conversation revision fanoutKey)
          [(.accepted, 1), (.status (if req.requiresByok then .blockedByok else .queued), 1)] },
        reply)
  | wrote (jobId : String) (old new : FinalizationJob) (deltas : List (ProjectionCounter × ℤ))
    (reply : FinalizationReply)
    (hjob : s.jobs.get jobId = some old) (hwrite : JobWrite jobId old call new deltas)
    (hcreated : reply.created = none) :
    StepEffect s call
      ({ jobs := s.jobs.set jobId new, shards := recordProjectionDelta s.shards old deltas }, reply)

theorem commit_effect {ρ : Type} {s : FinalizationStore} {call : FinalizationCall}
    {jobId : String} {txn : JobTxn ρ} (f : ρ → FinalizationReply)
    (hcreated : (f txn.reply).created = none)
    (hwrites : ∀ new, txn.write = some new → ∃ old, s.jobs.get jobId = some old ∧
      JobWrite jobId old call new txn.deltas) :
    StepEffect hashes s call (s.commit jobId (txn.map f), f txn.reply) := by
  cases hwrite : txn.write with
  | none =>
    have hsame : s.commit jobId (txn.map f) = s := by simp [FinalizationStore.commit, hwrite]
    rw [hsame]
    exact .same _ hcreated
  | some new =>
    obtain ⟨old, hold, hjob⟩ := hwrites new hwrite
    have hcommit : s.commit jobId (txn.map f) =
        { jobs := s.jobs.set jobId new
          shards := recordProjectionDelta s.shards old txn.deltas } := by
      simp [FinalizationStore.commit, hwrite, hold]
    rw [hcommit]
    exact .wrote jobId old new txn.deltas _ hold hjob hcreated

theorem IntentTxn.effect {s : FinalizationStore} {req : IntentRequest} {jobId : String}
    {txn : JobTxn FinalizationIntent} (h : IntentTxn hashes s.jobs req jobId txn) :
    StepEffect hashes s (.createOrGet req)
      (s.commit jobId (txn.map .intent), .intent txn.reply) := by
  cases h with
  | read _ intent updates hread =>
    refine .same _ ?_
    simp [FinalizationReply.created, hread]
  | create conversation revision fanoutKey updates habsent =>
    simp only [FinalizationStore.commit, JobTxn.map_write, JobTxn.map_deltas, habsent,
      Option.getD_none]
    exact .created req conversation revision fanoutKey _ rfl habsent rfl

/-- Everything one transaction can do to the store. -/
theorem finalizationStep_effect (s : FinalizationStore) (call : FinalizationCall) :
    StepEffect hashes s call (finalizationStep hashes s call) := by
  cases call with
  | createOrGet req => exact (createOrGetFinalizationIntent_cases hashes s.jobs req).effect
  | resumeByok =>
    exact commit_effect hashes .intent
      (by simp [FinalizationReply.created, resumeBlockedByokJob_created])
      fun _ => resumeBlockedByokJob_write rfl
  | claim => exact commit_effect hashes .claim rfl fun _ => claimFinalizationJob_write rfl
  | markCompleted =>
    exact commit_effect hashes .flag rfl fun _ => markFinalizationCompleted_write rfl
  | markFenced => exact commit_effect hashes .flag rfl fun _ => markFinalizationFenced_write rfl
  | claimFanout =>
    exact commit_effect hashes .fanout rfl fun _ => claimFinalizationFanout_write rfl
  | markFanoutCompleted =>
    exact commit_effect hashes .flag rfl fun _ => markFinalizationFanoutCompleted_write rfl
  | markRetryable =>
    exact commit_effect hashes .flag rfl fun _ => markFinalizationRetryable_write rfl
  | markDeadLetter =>
    exact commit_effect hashes .flag rfl fun _ => markFinalizationDeadLetter_write rfl
  | claimReplay =>
    exact commit_effect hashes .intent
      (by simp [FinalizationReply.created, claimFinalizationReplay_created])
      fun _ => claimFinalizationReplay_write rfl
  | abandonByok =>
    exact commit_effect hashes .abandonment rfl fun _ => abandonByokFinalizationJob_write rfl

end Omi.Finalization
