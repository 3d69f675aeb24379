import Omi.Finalization.Lease

/-! What `mark_finalization_completed` answers along every run of the job transactions, among
the receipts of meetings, which create closed jobs. -/
namespace Omi.Finalization
open Omi.Foundation

variable (hashes : FinalizationHashes)

/-! ### Meeting receipts -/

/-- The arguments of `record_meeting_receipt` that bear on the job, with the instant and the
conversation its transaction reads. -/
structure ReceiptRequest where
  uid : String
  conversationId : String
  conversation : Option Conversation
  finalizationJobId : Option String
  now : ℤ

namespace ReceiptRequest

/-- The job the receipt is put on: the one given, the conversation's, or the next revision's. -/
def jobId (req : ReceiptRequest) (conversation : Conversation) : String :=
  match req.finalizationJobId.filter (· ≠ ""), conversation.finalizationJobId.filter (· ≠ "") with
  | some given, _ => given
  | none, some existing => existing
  | none, none => hashes.jobId req.uid req.conversationId
      (intOr conversation.finalizationRevision 0 + 1)

/-- The closed job of a conversation that was finalized without one. -/
def job (req : ReceiptRequest) (conversation : Conversation) : FinalizationJob where
  uid := some req.uid
  conversationId := some req.conversationId
  finalizationRevision := some (intOr conversation.finalizationRevision 0 + 1)
  status := some .completed
  requiresByok := false
  forceProcess := false
  fanoutKey := some ("conversation:" ++ req.conversationId ++ ":finalization")
  fanoutStatus := some .completed
  fanoutCompletedAt := some req.now
  finalizationOutcome := some "success"
  terminalOutcome := some .success
  terminalAt := some req.now
  dispatchGeneration := some 1
  attemptCount := some 1
  taskRetryCount := some 0
  createdAt := some req.now
  updatedAt := some req.now

end ReceiptRequest

/-- `_record_meeting_receipt_txn`; of a job that is there it writes receipt fields only, which no
other transaction reads. -/
def recordMeetingReceipt (jobs : Table FinalizationJob) (req : ReceiptRequest) :
    Table FinalizationJob × String :=
  match req.conversation with
  | none => (jobs, "missing")
  | some conversation =>
    let jobId := req.jobId hashes conversation
    match jobs.get jobId with
    | some job =>
      if job.uid ≠ some req.uid ∨ job.conversationId ≠ some req.conversationId then
        (jobs, "identity_mismatch")
      else (jobs, "recorded")
    | none => (jobs.set jobId (req.job conversation), "recorded")

/-! ### Runs -/

/-- A transaction of the job collection. -/
inductive FinalizationEvent where
  | call (call : FinalizationCall)
  | receipt (req : ReceiptRequest)

inductive FinalizationAnswer where
  | reply (reply : FinalizationReply)
  | receipt (status : String)
  deriving DecidableEq, Repr

def finalizationLogStep (s : FinalizationStore) :
    FinalizationEvent → FinalizationStore × FinalizationAnswer
  | .call call => ((finalizationStep hashes s call).1, .reply (finalizationStep hashes s call).2)
  | .receipt req =>
    ({ s with jobs := (recordMeetingReceipt hashes s.jobs req).1 },
      .receipt (recordMeetingReceipt hashes s.jobs req).2)

def finalizationLog : Machine FinalizationStore FinalizationEvent FinalizationAnswer :=
  ⟨finalizationLogStep hashes⟩

/-- The collections after a run. -/
def storeAfter (events : List FinalizationEvent) : FinalizationStore :=
  (finalizationLog hashes).state .empty events

theorem storeAfter_concat (events : List FinalizationEvent) (event : FinalizationEvent) :
    storeAfter hashes (events ++ [event]) =
      (finalizationLogStep hashes (storeAfter hashes events) event).1 :=
  Machine.state_append _ _ _ _

/-- The event closes the job as a success: the report of a worker that owns its lease and has
delivered the fan-out, or the receipt of a meeting that was finalized without a job. -/
inductive ClosesAsSuccess (s : FinalizationStore) (jobId : String) : FinalizationEvent → Prop
  | reported (lease : LeaseProof) (now : ℤ) (job : FinalizationJob)
    (hjob : s.jobs.get jobId = some job) (howns : lease.owns job = true)
    (hfanout : job.fanoutStatus = some .completed) :
    ClosesAsSuccess s jobId (.call (.markCompleted jobId lease now))
  | receipt (req : ReceiptRequest) (conversation : Conversation)
    (hconversation : req.conversation = some conversation)
    (hid : req.jobId hashes conversation = jobId) (habsent : s.jobs.get jobId = none) :
    ClosesAsSuccess s jobId (.receipt req)

/-- Some event of the run closed the job as a success. -/
def ClosedAsSuccess (events : List FinalizationEvent) (jobId : String) : Prop :=
  ∃ before event after, events = before ++ event :: after ∧
    ClosesAsSuccess hashes (storeAfter hashes before) jobId event

def FinalizationJob.ClosedAsFenced (job : FinalizationJob) : Prop :=
  job.status = some .completed ∧ job.finalizationOutcome = some "fenced"

/-- `mark_finalization_completed` called behind the run answers true only where the job is then
completed with success, by an event that closed it so, and never for a job that was fenced off or
dead-lettered. -/
structure TellsTruth (events : List FinalizationEvent) (jobId : String) (lease : LeaseProof)
    (now : ℤ) : Prop where
  success : (finalizationLogStep hashes (storeAfter hashes events)
      (.call (.markCompleted jobId lease now))).2 = .reply (.flag true) →
    ClosedAsSuccess hashes (events ++ [.call (.markCompleted jobId lease now)]) jobId ∧
      ∃ job, (storeAfter hashes (events ++ [.call (.markCompleted jobId lease now)])).jobs.get
        jobId = some job ∧ job.status = some .completed ∧ job.terminalOutcome = some .success
  refuses : ∀ job, (storeAfter hashes events).jobs.get jobId = some job →
    job.ClosedAsFenced ∨ job.status = some .deadLetter →
      (finalizationLogStep hashes (storeAfter hashes events)
        (.call (.markCompleted jobId lease now))).2 = .reply (.flag false)

/-- The job was fenced off under the epoch that is presented. -/
def FencedUnder (s : FinalizationStore) (jobId : String) (lease : LeaseProof) : Prop :=
  ∃ job, s.jobs.get jobId = some job ∧ job.ClosedAsFenced ∧ job.epoch = lease.leaseEpoch

/-! ### How a job is closed -/

/-- The two ways in which a job becomes completed. -/
theorem JobWrite.completed {jobId : String} {old new : FinalizationJob} {call : FinalizationCall}
    {deltas : List (ProjectionCounter × ℤ)} (h : JobWrite jobId old call new deltas)
    (hstatus : new.status = some .completed) :
    new.ClosedAsFenced ∨ ∃ lease now, call = .markCompleted jobId lease now ∧
      lease.owns old = true ∧ old.fanoutStatus = some .completed ∧
        new.terminalOutcome = some .success := by
  cases h with
  | succeeded now howns hfanout => exact .inr ⟨_, now, rfl, howns, hfanout, rfl⟩
  | fenced | fanoutFenced => exact .inl ⟨rfl, rfl⟩
  | fanoutLeased _ _ howns | fanoutDelivered _ howns =>
    have hleased := LeaseProof.status_of_owns howns
    exact absurd (hleased.symm.trans hstatus) (by decide)
  | resumed | claimed | reclaimed | retryable | deadLettered | replayed | replayedLease | abandoned
  | abandonedLease => cases hstatus

/-- A completed job was fenced off, or closed as a success. -/
def CompletionsExplained (events : List FinalizationEvent) : Prop :=
  ∀ jobId job, (storeAfter hashes events).jobs.get jobId = some job →
    job.status = some .completed → job.ClosedAsFenced ∨
      job.terminalOutcome = some .success ∧ ClosedAsSuccess hashes events jobId

section runs
variable {hashes} {events : List FinalizationEvent} {jobId : String}

theorem ClosedAsSuccess.concat (h : ClosedAsSuccess hashes events jobId)
    (event : FinalizationEvent) : ClosedAsSuccess hashes (events ++ [event]) jobId := by
  obtain ⟨before, first, after, rfl, hcloses⟩ := h
  exact ⟨before, first, after ++ [event], by simp, hcloses⟩

theorem ClosesAsSuccess.closed {event : FinalizationEvent}
    (h : ClosesAsSuccess hashes (storeAfter hashes events) jobId event) :
    ClosedAsSuccess hashes (events ++ [event]) jobId := ⟨events, event, [], rfl, h⟩

theorem CompletionsExplained.call (h : CompletionsExplained hashes events)
    (call : FinalizationCall) : CompletionsExplained hashes (events ++ [.call call]) := by
  intro jobId job hjob hstatus
  have hstep := finalizationStep_jobStep hashes (storeAfter hashes events) call jobId
  rw [storeAfter_concat] at hjob
  change (finalizationStep hashes (storeAfter hashes events) call).1.jobs.get jobId = some job
    at hjob
  rw [hjob] at hstep
  generalize hold : (storeAfter hashes events).jobs.get jobId = old at hstep
  cases hstep with
  | same =>
    rcases h jobId job hold hstatus with hfenced | ⟨hsuccess, hclosed⟩
    · exact .inl hfenced
    · exact .inr ⟨hsuccess, hclosed.concat _⟩
  | created req conversation revision fanoutKey hcall =>
    rw [IntentRequest.newJob] at hstatus
    by_cases hbyok : req.requiresByok = true <;> simp [hbyok] at hstatus
  | wrote old new deltas hwrite =>
    rcases hwrite.completed hstatus with hfenced | ⟨lease, now, rfl, howns, hfanout, hsuccess⟩
    · exact .inl hfenced
    · exact .inr ⟨hsuccess, (ClosesAsSuccess.reported lease now old hold howns hfanout).closed⟩

theorem CompletionsExplained.receipt (h : CompletionsExplained hashes events)
    (req : ReceiptRequest) : CompletionsExplained hashes (events ++ [.receipt req]) := by
  have hkept : ∀ jobId job, (storeAfter hashes events).jobs.get jobId = some job →
      job.status = some .completed → job.ClosedAsFenced ∨
        job.terminalOutcome = some .success ∧
          ClosedAsSuccess hashes (events ++ [.receipt req]) jobId := by
    intro jobId job hjob hstatus
    exact (h jobId job hjob hstatus).imp_right fun hsuccess =>
      ⟨hsuccess.1, hsuccess.2.concat _⟩
  intro jobId job hjob hstatus
  rw [storeAfter_concat] at hjob
  change (recordMeetingReceipt hashes (storeAfter hashes events).jobs req).1.get jobId = some job
    at hjob
  unfold recordMeetingReceipt at hjob
  cases hconversation : req.conversation with
  | none =>
    rw [hconversation] at hjob
    exact hkept jobId job hjob hstatus
  | some conversation =>
    rw [hconversation] at hjob
    dsimp only at hjob
    cases hold : (storeAfter hashes events).jobs.get (req.jobId hashes conversation) with
    | some old =>
      rw [hold] at hjob
      dsimp only at hjob
      split_ifs at hjob
      · exact hkept jobId job hjob hstatus
      · exact hkept jobId job hjob hstatus
    | none =>
      rw [hold] at hjob
      dsimp only at hjob
      rw [Table.get_set] at hjob
      split_ifs at hjob with hid
      · have hnew : req.job conversation = job := Option.some.inj hjob
        rw [hid, ← hnew]
        have hcloses := ClosesAsSuccess.receipt req conversation hconversation rfl hold
        exact .inr ⟨rfl, hcloses.closed⟩
      · exact hkept jobId job hjob hstatus

variable (hashes events) in
theorem completionsExplained : CompletionsExplained hashes events := by
  induction events using List.reverseRecOn with
  | nil =>
    intro jobId job hjob
    cases hjob
  | append_singleton events event ih =>
    cases event with
    | call call => exact ih.call call
    | receipt req => exact ih.receipt req

/-! ### The answer -/

variable {lease : LeaseProof} {now : ℤ}

theorem markCompleted_reply : (finalizationLogStep hashes (storeAfter hashes events)
    (.call (.markCompleted jobId lease now))).2 = .reply (.flag
      (markFinalizationCompleted ((storeAfter hashes events).jobs.get jobId) lease now).reply) :=
  rfl

/-- When the transaction answers true. -/
theorem markFinalizationCompleted_true {job : FinalizationJob}
    (h : (markFinalizationCompleted (some job) lease now).reply = true) :
    (job.status = some .completed ∧ job.epoch = lease.leaseEpoch) ∨
      (job.status ≠ some .completed ∧ lease.owns job = true ∧
        job.fanoutStatus = some .completed) := by
  unfold markFinalizationCompleted at h
  dsimp only at h
  split_ifs at h with hdone howns hfanout
  · exact .inl ⟨hdone, by simpa using h⟩
  · exact .inr ⟨hdone, by simpa using howns, not_not.mp hfanout⟩

/-- A job that is completed already is answered for by its epoch alone. -/
theorem markFinalizationCompleted_done {job : FinalizationJob}
    (hdone : job.status = some .completed) :
    markFinalizationCompleted (some job) lease now =
      { reply := job.epoch = lease.leaseEpoch } := by
  rw [markFinalizationCompleted, if_pos hdone]

/-- The answer for a job that was fenced off under the epoch is no truth. -/
theorem not_tellsTruth_of_fenced (h : FencedUnder (storeAfter hashes events) jobId lease) :
    ¬ TellsTruth hashes events jobId lease now := by
  intro htruth
  obtain ⟨job, hjob, hfenced, hepoch⟩ := h
  have hrefused := htruth.refuses job hjob (.inl hfenced)
  rw [markCompleted_reply, hjob, markFinalizationCompleted_done hfenced.1] at hrefused
  simp [hepoch] at hrefused

theorem markCompleted_store : storeAfter hashes
    (events ++ [.call (.markCompleted jobId lease now)]) =
      (storeAfter hashes events).commit jobId
        ((markFinalizationCompleted ((storeAfter hashes events).jobs.get jobId) lease now).map
          .flag) := storeAfter_concat hashes _ _

/-- A true answer is a success where the job was not fenced off under the epoch. -/
theorem success_of_not_fenced (h : ¬ FencedUnder (storeAfter hashes events) jobId lease)
    {job : FinalizationJob} (hjob : (storeAfter hashes events).jobs.get jobId = some job)
    (hreply : (markFinalizationCompleted (some job) lease now).reply = true) :
    ClosedAsSuccess hashes (events ++ [.call (.markCompleted jobId lease now)]) jobId ∧
      ∃ job, (storeAfter hashes (events ++ [.call (.markCompleted jobId lease now)])).jobs.get
        jobId = some job ∧ job.status = some .completed ∧
          job.terminalOutcome = some .success := by
  rw [markCompleted_store, hjob]
  rcases markFinalizationCompleted_true hreply with ⟨hdone, hepoch⟩ | ⟨hopen, howns, hfanout⟩
  · rw [markFinalizationCompleted_done hdone]
    have hexplained := completionsExplained hashes events jobId job hjob hdone
    rcases hexplained with hfenced | ⟨hsuccess, hclosed⟩
    · exact absurd ⟨job, hjob, hfenced, hepoch⟩ h
    · exact ⟨hclosed.concat _, job, hjob, hdone, hsuccess⟩
  · have hcloses : ClosesAsSuccess hashes (storeAfter hashes events) jobId
        (.call (.markCompleted jobId lease now)) :=
      .reported lease now job hjob howns hfanout
    have hwrite : (markFinalizationCompleted (some job) lease now).write =
        some (job.succeeded now) := by
      simp [markFinalizationCompleted, hopen, howns, hfanout]
    refine ⟨hcloses.closed, job.succeeded now, ?_, rfl, rfl⟩
    simp [FinalizationStore.commit, hwrite]

/-- A job that was fenced off under another epoch, or dead-lettered, is not answered for. -/
theorem refused_of_not_fenced (h : ¬ FencedUnder (storeAfter hashes events) jobId lease)
    {job : FinalizationJob} (hjob : (storeAfter hashes events).jobs.get jobId = some job)
    (hclosed : job.ClosedAsFenced ∨ job.status = some .deadLetter) :
    (markFinalizationCompleted (some job) lease now).reply = false := by
  rcases hclosed with hfenced | hdead
  · have hepoch : job.epoch ≠ lease.leaseEpoch := fun hepoch => h ⟨job, hjob, hfenced, hepoch⟩
    rw [markFinalizationCompleted_done hfenced.1]
    exact decide_eq_false hepoch
  · have hopen : job.status ≠ some .completed := by
      rw [hdead]
      decide
    have hlost : lease.owns job = false := by
      simp [LeaseProof.owns, isCurrentLease, hdead]
    simp [markFinalizationCompleted, hopen, hlost]

end runs

/-- A success report is answered truly exactly where the job was not fenced off under the epoch
it presents. -/
theorem tellsTruth_iff (events : List FinalizationEvent) (jobId : String) (lease : LeaseProof)
    (now : ℤ) : TellsTruth hashes events jobId lease now ↔
      ¬ FencedUnder (storeAfter hashes events) jobId lease := by
  constructor
  · intro htruth hfenced
    exact not_tellsTruth_of_fenced hfenced htruth
  · intro hfenced
    constructor
    case success =>
      intro hreply
      rw [markCompleted_reply] at hreply
      cases hjob : (storeAfter hashes events).jobs.get jobId with
      | none =>
        rw [hjob] at hreply
        cases hreply
      | some job =>
        rw [hjob] at hreply
        injection hreply with hreply
        injection hreply with hreply
        exact success_of_not_fenced hfenced hjob hreply
    case refuses =>
      intro job hjob hclosed
      rw [markCompleted_reply, hjob, refused_of_not_fenced hfenced hjob hclosed]

/-- A job is claimed, its worker finds its fan-out fenced and closes it so, and then reports a
success under the same lease. -/
def fencedRun : List FinalizationEvent :=
  let conversation : Conversation := { status := some "in_progress", hasContent := true }
  [.call (.createOrGet
      { uid := "u"
        conversationId := "c"
        conversation := some conversation
        requiresByok := false
        admission := fun _ => ⟨true, false, "accepted", some "key"⟩
        reconcileStaleAfter := 300
        now := 0 }),
    .call (.claim "job" { dispatchGeneration := 1, now := 1 }),
    .call (.markFenced "job" ⟨1, 1⟩ 2)]

/-- The success is taken for delivered. -/
theorem not_tellsTruth_fenced :
    ¬ ∀ hashes events jobId lease now, TellsTruth hashes events jobId lease now := by
  intro htruth
  let hashes : FinalizationHashes := ⟨fun _ => "job", fun _ => 0⟩
  have hfenced : FencedUnder (storeAfter hashes fencedRun) "job" ⟨1, 1⟩ :=
    ⟨_, rfl, ⟨rfl, rfl⟩, rfl⟩
  exact not_tellsTruth_of_fenced hfenced (htruth hashes fencedRun "job" ⟨1, 1⟩ 3)

end Omi.Finalization
