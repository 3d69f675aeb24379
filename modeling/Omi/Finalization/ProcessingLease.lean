import Omi.Finalization.Sweep

/-! The admission lease of a conversation in processing. Its processor renews it, and the orphan sweep
closes the conversation once the lease has run out: what it scans it closes only later, among the
transactions of others. -/
namespace Omi.Finalization
open Omi.Foundation

/-- What the lease transactions read and write of a conversation document, and when the document was
last written. -/
structure ProcessingConversation where
  status : Option String
  deferred : Option Bool := none
  discarded : Bool := false
  finalizationJobId : Option String := none
  processingAdmittedAt : Option ℤ := none
  updateTime : ℤ := 0
  deriving DecidableEq

namespace ProcessingConversation
variable (conversation : ProcessingConversation)

/-- The sweep leaves the conversation to its owner. -/
def owned : Bool :=
  conversation.discarded || conversation.deferred = some true ||
    conversation.finalizationJobId.getD "" ≠ ""

/-! ### Transactions

Each gives what it writes, if it writes anything. -/

/-- `_stamp_processing_admission_if_absent_txn`. -/
def stampProcessingAdmissionIfAbsent (now : ℤ) : Option ProcessingConversation :=
  if conversation.status ≠ some "processing" then none
  else if conversation.processingAdmittedAt.isSome then none
  else some { conversation with processingAdmittedAt := some now }

/-- `_complete_unstampable_orphan_conversation_txn`. -/
def completeUnstampableOrphanConversation (staleBefore : ℤ) : Option ProcessingConversation :=
  if conversation.status ≠ some "processing" then none
  else if conversation.owned then none
  else if conversation.processingAdmittedAt.isSome then none
  else if staleBefore < conversation.updateTime then none
  else some { conversation with status := some "completed" }

/-- `_complete_orphan_conversation_txn`. -/
def completeOrphanConversation (expectedAdmittedAt : Option ℤ) : Option ProcessingConversation :=
  if conversation.status ≠ some "processing" then none
  else if conversation.owned then none
  else
    match conversation.processingAdmittedAt with
    | none => none
    | some admittedAt =>
      if some admittedAt ≠ expectedAdmittedAt then none
      else some { conversation with status := some "completed" }

/-- `_renew_processing_lease_txn`. -/
def renewProcessingLease (now : ℤ) : Option ProcessingConversation :=
  if conversation.status ≠ some "processing" ∨ conversation.discarded then none
  else some { conversation with processingAdmittedAt := some now }

/-- `_reacquire_deferred_processing_txn`. -/
def reacquireDeferredProcessing (now : ℤ) : Option ProcessingConversation :=
  if (conversation.status ≠ some "processing" ∧ conversation.status ≠ some "completed") ∨
      conversation.discarded ∨ conversation.deferred ≠ some true then none
  else
    some
      { conversation with
        status := some "processing"
        deferred := some false
        processingAdmittedAt := some now }

/-- `_recover_deferred_processing_failure_txn`. -/
def recoverDeferredProcessingFailure : Option ProcessingConversation :=
  if (conversation.status ≠ some "processing" ∧ conversation.status ≠ some "completed") ∨
      conversation.discarded ∨ conversation.deferred ≠ some false then none
  else some { conversation with status := some "completed", deferred := some true }

/-- `claim_conversation_status`, from one status to another; an admission to processing stamps the
lease. -/
def claimStatus (expected claimed : String) (admittedAt : Option ℤ) :
    Option ProcessingConversation :=
  if conversation.discarded ∨ conversation.status ≠ some expected then none
  else
    some
      { conversation with
        status := some claimed
        processingAdmittedAt := admittedAt.or conversation.processingAdmittedAt }

end ProcessingConversation

/-! ### The conversation and its sweepers -/

/-- One conversation, and the candidates that sweeps have made of it and not acted on yet. -/
structure LeaseSystem where
  now : ℤ
  conversation : Option ProcessingConversation
  found : List OrphanCandidate := []

/-- What can happen to the conversation. A caller reads its clock before its transaction, so the time
that it brings along may have passed for long when the transaction commits. A write of other code
leaves the lease as it is, and makes the conversation where it is not there. -/
inductive LeaseAction where
  | tick (duration : ℕ)
  | create (conversation : ProcessingConversation) (readAt : ℤ)
  | renew (readAt : ℤ)
  | admitProcessing (readAt : ℤ)
  | claim (expected claimed : String)
  | reacquire (readAt : ℤ)
  | recover
  | write (conversation : ProcessingConversation)
  | delete
  | scan (path : DocPath) (startedAt : ℤ)
  | stamp (readAt : ℤ)
  | complete (candidate : ℕ)
  | completeUnstampable (readAt : ℤ)

/-- The time from which on the action leases the conversation. -/
def LeaseAction.leasedFrom : LeaseAction → Option ℤ
  | .create _ readAt | .renew readAt | .admitProcessing readAt | .reacquire readAt
  | .stamp readAt => some readAt
  | _ => none

/-- The action closes the conversation for a sweep. -/
def LeaseAction.sweeps : LeaseAction → Bool
  | .complete _ | .completeUnstampable _ => true
  | _ => false

namespace LeaseSystem
variable (staleAfter : ℤ) (s : LeaseSystem)

/-- Commit what a transaction on the conversation writes, and answer whether it has. -/
def commit (txn : ProcessingConversation → Option ProcessingConversation) : LeaseSystem × Bool :=
  match s.conversation.bind txn with
  | none => (s, false)
  | some written => ({ s with conversation := some { written with updateTime := s.now } }, true)

/-- No clock has been read in the future. -/
def afterReading (readAt : ℤ) (next : LeaseSystem × Bool) : LeaseSystem × Bool :=
  if readAt ≤ s.now then next else (s, false)

/-- The candidate that a sweep makes of the conversation; its clock was read when it began. -/
def scanned (path : DocPath) (startedAt : ℤ) : Option OrphanCandidate :=
  s.conversation.bind fun conversation =>
    if conversation.status = some "processing" then
      orphanCandidate (startedAt - staleAfter)
        { path := path
          deferred := conversation.deferred = some true
          finalizationJobId := conversation.finalizationJobId
          processingAdmittedAt := conversation.processingAdmittedAt }
    else none

def step : LeaseAction → LeaseSystem × Bool
  | .tick duration => ({ s with now := s.now + duration }, true)
  | .create conversation readAt =>
    s.afterReading readAt
      ({ s with
          conversation := some
            { conversation with
              status := some "processing"
              processingAdmittedAt := some readAt
              updateTime := s.now } }, true)
  | .renew readAt => s.afterReading readAt (s.commit (·.renewProcessingLease readAt))
  | .admitProcessing readAt =>
    s.afterReading readAt (s.commit (·.claimStatus "in_progress" "processing" (some readAt)))
  | .claim expected claimed => s.commit (·.claimStatus expected claimed none)
  | .reacquire readAt => s.afterReading readAt (s.commit (·.reacquireDeferredProcessing readAt))
  | .recover => s.commit (·.recoverDeferredProcessingFailure)
  | .write conversation =>
    ({ s with
        conversation := some
          { conversation with
            processingAdmittedAt := s.conversation.bind (·.processingAdmittedAt)
            updateTime := s.now } }, true)
  | .delete => ({ s with conversation := none }, true)
  | .scan path startedAt =>
    s.afterReading startedAt
      ({ s with found := s.found ++ (s.scanned staleAfter path startedAt).toList }, true)
  | .stamp readAt => s.afterReading readAt (s.commit (·.stampProcessingAdmissionIfAbsent readAt))
  | .complete candidate =>
    match s.found[candidate]? with
    | none => (s, false)
    | some found => s.commit (·.completeOrphanConversation found.processingAdmittedAt)
  | .completeUnstampable readAt =>
    s.afterReading readAt
      (s.commit (·.completeUnstampableOrphanConversation (readAt - staleAfter)))

end LeaseSystem

def leaseMachine (staleAfter : ℤ) : Machine LeaseSystem LeaseAction Bool where
  step := fun s action => s.step staleAfter action

/-! ### One step -/

section
variable {staleAfter : ℤ} {s : LeaseSystem} {action : LeaseAction} {since : ℤ}
  {conversation written : ProcessingConversation}
  {txn : ProcessingConversation → Option ProcessingConversation}

/-- What a transaction makes of the lease: it leaves it, or sets it to a time from then on. -/
def KeepsLease (since : ℤ) (txn : ProcessingConversation → Option ProcessingConversation) : Prop :=
  ∀ conversation written, txn conversation = some written →
    written.processingAdmittedAt = conversation.processingAdmittedAt ∨
      ∃ readAt, since ≤ readAt ∧ written.processingAdmittedAt = some readAt

/-- The conversation has not been without a lease, or a write, since. -/
structure HeldSince (since : ℤ) (conversation : ProcessingConversation) : Prop where
  leased : ∀ admittedAt ∈ conversation.processingAdmittedAt, since ≤ admittedAt
  written : since ≤ conversation.updateTime

/-- The time has come to that, and the conversation is held since then. -/
structure LeaseSystem.Held (since : ℤ) (s : LeaseSystem) : Prop where
  reached : since ≤ s.now
  held : ∀ conversation ∈ s.conversation, HeldSince since conversation

/-- Every lease that sweeps have found had run out when they began. -/
def LeaseSystem.Expired (staleAfter : ℤ) (s : LeaseSystem) : Prop :=
  ∀ candidate ∈ s.found, ∀ admittedAt ∈ candidate.processingAdmittedAt,
    admittedAt + staleAfter ≤ s.now

theorem commit_cases (s : LeaseSystem)
    (txn : ProcessingConversation → Option ProcessingConversation) :
    s.commit txn = (s, false) ∨ ∃ conversation written,
      s.conversation = some conversation ∧ txn conversation = some written ∧
        s.commit txn = ({ s with conversation := some { written with updateTime := s.now } },
          true) := by
  unfold LeaseSystem.commit
  cases hwritten : s.conversation.bind txn with
  | none => exact .inl rfl
  | some written =>
    obtain ⟨conversation, hconversation, htxn⟩ := Option.bind_eq_some_iff.mp hwritten
    exact .inr ⟨conversation, written, hconversation, htxn, rfl⟩

theorem afterReading_cases (s : LeaseSystem) (readAt : ℤ) (next : LeaseSystem × Bool) :
    s.afterReading readAt next = (s, false) ∨
      readAt ≤ s.now ∧ s.afterReading readAt next = next := by
  unfold LeaseSystem.afterReading
  by_cases hread : readAt ≤ s.now
  · exact .inr ⟨hread, if_pos hread⟩
  · exact .inl (if_neg hread)

/-! ### What keeps a lease -/

theorem stamp_keepsLease {readAt : ℤ} (hread : since ≤ readAt) :
    KeepsLease since (·.stampProcessingAdmissionIfAbsent readAt) := by
  intro conversation written h
  simp only [ProcessingConversation.stampProcessingAdmissionIfAbsent] at h
  split_ifs at h
  exact .inr ⟨readAt, hread, by rw [← Option.some.inj h]⟩

theorem renew_keepsLease {readAt : ℤ} (hread : since ≤ readAt) :
    KeepsLease since (·.renewProcessingLease readAt) := by
  intro conversation written h
  simp only [ProcessingConversation.renewProcessingLease] at h
  split_ifs at h
  exact .inr ⟨readAt, hread, by rw [← Option.some.inj h]⟩

theorem reacquire_keepsLease {readAt : ℤ} (hread : since ≤ readAt) :
    KeepsLease since (·.reacquireDeferredProcessing readAt) := by
  intro conversation written h
  simp only [ProcessingConversation.reacquireDeferredProcessing] at h
  split_ifs at h
  exact .inr ⟨readAt, hread, by rw [← Option.some.inj h]⟩

theorem recover_keepsLease : KeepsLease since (·.recoverDeferredProcessingFailure) := by
  intro conversation written h
  simp only [ProcessingConversation.recoverDeferredProcessingFailure] at h
  split_ifs at h
  exact .inl (by rw [← Option.some.inj h])

theorem claim_keepsLease {expected claimed : String} {admittedAt : Option ℤ}
    (hadmitted : ∀ readAt ∈ admittedAt, since ≤ readAt) :
    KeepsLease since (·.claimStatus expected claimed admittedAt) := by
  intro conversation written h
  simp only [ProcessingConversation.claimStatus] at h
  split_ifs at h
  rw [← Option.some.inj h]
  cases admittedAt with
  | none => exact .inl rfl
  | some readAt => exact .inr ⟨readAt, hadmitted readAt rfl, rfl⟩

/-- What a sweep closes is left to nobody, and has the lease that the sweep has found. -/
theorem completeOrphan_some {expected : Option ℤ}
    (h : conversation.completeOrphanConversation expected = some written) :
    (∃ admittedAt, conversation.processingAdmittedAt = some admittedAt ∧
      expected = some admittedAt) ∧
        written = { conversation with status := some "completed" } := by
  simp only [ProcessingConversation.completeOrphanConversation] at h
  split_ifs at h
  cases hadmitted : conversation.processingAdmittedAt with
  | none =>
    rw [hadmitted] at h
    cases h
  | some admittedAt =>
    simp only [hadmitted] at h
    split_ifs at h with hexpected
    exact ⟨⟨admittedAt, rfl, (not_not.mp hexpected).symm⟩, (Option.some.inj h).symm⟩

theorem completeUnstampable_some {staleBefore : ℤ}
    (h : conversation.completeUnstampableOrphanConversation staleBefore = some written) :
    conversation.updateTime ≤ staleBefore ∧
      written = { conversation with status := some "completed" } := by
  simp only [ProcessingConversation.completeUnstampableOrphanConversation] at h
  split_ifs at h with _ _ _ hstale
  exact ⟨not_lt.mp hstale, (Option.some.inj h).symm⟩

theorem complete_keepsLease {expected : Option ℤ} :
    KeepsLease since (·.completeOrphanConversation expected) := by
  intro conversation written h
  exact .inl (by rw [(completeOrphan_some h).2])

theorem completeUnstampable_keepsLease {staleBefore : ℤ} :
    KeepsLease since (·.completeUnstampableOrphanConversation staleBefore) := by
  intro conversation written h
  exact .inl (by rw [(completeUnstampable_some h).2])

theorem held_commit (h : s.Held since) (htxn : KeepsLease since txn) :
    (s.commit txn).1.Held since := by
  obtain hsame | ⟨conversation, written, hconversation, hwritten, hnext⟩ := commit_cases s txn
  · rw [hsame]
    exact h
  · rw [hnext]
    refine ⟨h.reached, ?_⟩
    rintro _ ⟨⟩
    refine ⟨fun admittedAt hadmitted => ?_, h.reached⟩
    obtain hkept | ⟨readAt, hread, hset⟩ := htxn conversation written hwritten
    · exact (h.held conversation hconversation).leased admittedAt (hkept ▸ hadmitted)
    · have hstamp : some readAt = some admittedAt := hset.symm.trans hadmitted
      rw [← Option.some.inj hstamp]
      exact hread

theorem held_afterReading {readAt : ℤ} {next : LeaseSystem × Bool} (h : s.Held since)
    (hnext : next.1.Held since) : (s.afterReading readAt next).1.Held since := by
  obtain hsame | ⟨-, hcommitted⟩ := afterReading_cases s readAt next
  · rw [hsame]
    exact h
  · rw [hcommitted]
    exact hnext

theorem commit_found (s : LeaseSystem)
    (txn : ProcessingConversation → Option ProcessingConversation) :
    (s.commit txn).1.found = s.found ∧ (s.commit txn).1.now = s.now := by
  obtain hsame | ⟨_, _, -, -, hnext⟩ := commit_cases s txn
  · rw [hsame]
    exact ⟨rfl, rfl⟩
  · rw [hnext]
    exact ⟨rfl, rfl⟩

/-- Once held, a conversation stays held as long as no older stamp is written. -/
theorem held_step (h : s.Held since) (action : LeaseAction)
    (hlater : ∀ readAt ∈ action.leasedFrom, since ≤ readAt) :
    (s.step staleAfter action).1.Held since := by
  cases action with
  | tick duration => exact ⟨by simp only [LeaseSystem.step]; have := h.reached; omega, h.held⟩
  | create conversation readAt =>
    refine held_afterReading h ⟨h.reached, ?_⟩
    rintro _ ⟨⟩
    refine ⟨?_, h.reached⟩
    rintro _ ⟨⟩
    exact hlater readAt rfl
  | renew readAt =>
    exact held_afterReading h (held_commit h (renew_keepsLease (hlater readAt rfl)))
  | admitProcessing readAt =>
    refine held_afterReading h (held_commit h (claim_keepsLease ?_))
    exact hlater
  | claim expected claimed => exact held_commit h (claim_keepsLease (by simp))
  | reacquire readAt =>
    exact held_afterReading h (held_commit h (reacquire_keepsLease (hlater readAt rfl)))
  | recover => exact held_commit h recover_keepsLease
  | write conversation =>
    refine ⟨h.reached, ?_⟩
    rintro _ ⟨⟩
    refine ⟨fun admittedAt hadmitted => ?_, h.reached⟩
    obtain ⟨old, hold, hkept⟩ := Option.bind_eq_some_iff.mp hadmitted
    exact (h.held old hold).leased admittedAt hkept
  | delete => exact ⟨h.reached, by rintro _ ⟨⟩⟩
  | scan path startedAt => exact held_afterReading h ⟨h.reached, h.held⟩
  | stamp readAt =>
    exact held_afterReading h (held_commit h (stamp_keepsLease (hlater readAt rfl)))
  | complete candidate =>
    simp only [LeaseSystem.step]
    cases s.found[candidate]? with
    | none => exact h
    | some found => exact held_commit h complete_keepsLease
  | completeUnstampable readAt =>
    exact held_afterReading h (held_commit h completeUnstampable_keepsLease)

theorem orphanCandidate_expired {cutoff : ℤ} {row : ProcessingRow} {candidate : OrphanCandidate}
    (h : orphanCandidate cutoff row = some candidate) :
    ∀ admittedAt ∈ candidate.processingAdmittedAt, admittedAt ≤ cutoff := by
  simp only [orphanCandidate] at h
  cases huid : uidFromConversationPath row.path with
  | none =>
    rw [huid] at h
    cases h
  | some uid =>
    simp only [huid] at h
    split_ifs at h
    cases hadmitted : row.processingAdmittedAt with
    | none =>
      rw [hadmitted] at h
      cases h
      rintro _ ⟨⟩
    | some admittedAt =>
      simp only [hadmitted] at h
      split_ifs at h with hfresh
      cases h
      rintro _ ⟨⟩
      exact not_lt.mp hfresh

theorem expired_commit (h : s.Expired staleAfter) : (s.commit txn).1.Expired staleAfter := by
  obtain ⟨hfound, hnow⟩ := commit_found s txn
  intro candidate hcandidate
  rw [hfound] at hcandidate
  rw [hnow]
  exact h candidate hcandidate

theorem expired_afterReading {readAt : ℤ} {next : LeaseSystem × Bool} (h : s.Expired staleAfter)
    (hnext : readAt ≤ s.now → next.1.Expired staleAfter) :
    (s.afterReading readAt next).1.Expired staleAfter := by
  obtain hsame | ⟨hread, hcommitted⟩ := afterReading_cases s readAt next
  · rw [hsame]
    exact h
  · rw [hcommitted]
    exact hnext hread

theorem expired_step (h : s.Expired staleAfter) (action : LeaseAction) :
    (s.step staleAfter action).1.Expired staleAfter := by
  cases action with
  | tick duration =>
    intro candidate hcandidate admittedAt hadmitted
    have hexpired := h candidate hcandidate admittedAt hadmitted
    simp only [LeaseSystem.step]
    omega
  | create conversation readAt => exact expired_afterReading h fun _ => h
  | renew readAt => exact expired_afterReading h fun _ => expired_commit h
  | admitProcessing readAt => exact expired_afterReading h fun _ => expired_commit h
  | claim expected claimed => exact expired_commit h
  | reacquire readAt => exact expired_afterReading h fun _ => expired_commit h
  | recover => exact expired_commit h
  | write conversation => exact h
  | delete => exact h
  | stamp readAt => exact expired_afterReading h fun _ => expired_commit h
  | completeUnstampable readAt => exact expired_afterReading h fun _ => expired_commit h
  | complete candidate =>
    simp only [LeaseSystem.step]
    cases s.found[candidate]? with
    | none => exact h
    | some found => exact expired_commit h
  | scan path startedAt =>
    refine expired_afterReading h fun hstarted => ?_
    intro candidate hcandidate admittedAt hadmitted
    obtain hold | hnew := List.mem_append.mp hcandidate
    · exact h candidate hold admittedAt hadmitted
    · obtain ⟨conversation, -, hscanned⟩ :=
        Option.bind_eq_some_iff.mp (Option.mem_toList.mp hnew)
      obtain ⟨-, hscanned⟩ := Option.ite_none_right_eq_some.mp hscanned
      have hcutoff := orphanCandidate_expired hscanned admittedAt hadmitted
      change admittedAt + staleAfter ≤ s.now
      omega

/-- What a caller commits that has read its clock. -/
theorem answered_afterReading {readAt : ℤ} {next : LeaseSystem × Bool}
    (hanswer : (s.afterReading readAt next).2 = true) :
    readAt ≤ s.now ∧ s.afterReading readAt next = next := by
  obtain hsame | hcommitted := afterReading_cases s readAt next
  · rw [hsame] at hanswer
    cases hanswer
  · exact hcommitted

/-- A transaction that sets the lease holds the conversation from the time that it brings along. -/
theorem held_of_set {readAt : ℤ}
    (hset : ∀ conversation written, txn conversation = some written →
      written.processingAdmittedAt = some readAt)
    (hanswer : (s.afterReading readAt (s.commit txn)).2 = true) :
    (s.afterReading readAt (s.commit txn)).1.Held readAt := by
  obtain ⟨hread, hcommitted⟩ := answered_afterReading hanswer
  rw [hcommitted] at hanswer ⊢
  obtain hsame | ⟨conversation, written, -, hwritten, hnext⟩ := commit_cases s txn
  · rw [hsame] at hanswer
    cases hanswer
  · rw [hnext]
    refine ⟨hread, ?_⟩
    rintro _ ⟨⟩
    refine ⟨fun admittedAt hadmitted => ?_, hread⟩
    have hstamp : some readAt = some admittedAt :=
      (hset conversation written hwritten).symm.trans hadmitted
    exact (Option.some.inj hstamp).le

/-- A lease that is given holds from the time that its caller had read. -/
theorem held_of_lease {readAt : ℤ} (hlease : action.leasedFrom = some readAt)
    (hanswer : (s.step staleAfter action).2 = true) :
    (s.step staleAfter action).1.Held readAt := by
  cases action with
  | create conversation time =>
    obtain rfl := Option.some.inj hlease
    obtain ⟨hread, hcommitted⟩ := answered_afterReading hanswer
    simp only [LeaseSystem.step]
    rw [hcommitted]
    refine ⟨hread, ?_⟩
    rintro _ ⟨⟩
    refine ⟨?_, hread⟩
    rintro _ ⟨⟩
    exact le_rfl
  | renew time =>
    obtain rfl := Option.some.inj hlease
    refine held_of_set (fun conversation written h => ?_) hanswer
    simp only [ProcessingConversation.renewProcessingLease] at h
    split_ifs at h
    rw [← Option.some.inj h]
  | admitProcessing time =>
    obtain rfl := Option.some.inj hlease
    refine held_of_set (fun conversation written h => ?_) hanswer
    simp only [ProcessingConversation.claimStatus] at h
    split_ifs at h
    rw [← Option.some.inj h]
    rfl
  | reacquire time =>
    obtain rfl := Option.some.inj hlease
    refine held_of_set (fun conversation written h => ?_) hanswer
    simp only [ProcessingConversation.reacquireDeferredProcessing] at h
    split_ifs at h
    rw [← Option.some.inj h]
  | stamp time =>
    obtain rfl := Option.some.inj hlease
    refine held_of_set (fun conversation written h => ?_) hanswer
    simp only [ProcessingConversation.stampProcessingAdmissionIfAbsent] at h
    split_ifs at h
    rw [← Option.some.inj h]
  | _ => cases hlease

/-- No sweep closes a conversation that is held since less than the age of an orphan. -/
theorem held_kept (hheld : s.Held since) (hexpired : s.Expired staleAfter)
    (hsoon : s.now < since + staleAfter) (hsweeps : action.sweeps = true) :
    s.step staleAfter action = (s, false) := by
  cases action with
  | complete candidate =>
    simp only [LeaseSystem.step]
    cases hfound : s.found[candidate]? with
    | none => rfl
    | some found =>
      obtain hsame | ⟨conversation, written, hconversation, hwritten, -⟩ :=
        commit_cases s (·.completeOrphanConversation found.processingAdmittedAt)
      · exact hsame
      · obtain ⟨⟨admittedAt, hadmitted, hexpected⟩, -⟩ := completeOrphan_some hwritten
        have hlease := (hheld.held conversation hconversation).leased admittedAt hadmitted
        have hold := hexpired found (List.mem_of_getElem? hfound) admittedAt hexpected
        omega
  | completeUnstampable readAt =>
    simp only [LeaseSystem.step]
    obtain hsame | ⟨hread, hcommitted⟩ := afterReading_cases s readAt
      (s.commit (·.completeUnstampableOrphanConversation (readAt - staleAfter)))
    · exact hsame
    · rw [hcommitted]
      obtain hsame | ⟨conversation, written, hconversation, hwritten, -⟩ :=
        commit_cases s (·.completeUnstampableOrphanConversation (readAt - staleAfter))
      · exact hsame
      · have hstale := (completeUnstampable_some hwritten).1
        have hlast := (hheld.held conversation hconversation).written
        omega
  | _ => cases hsweeps

/-- A processor that has been given a lease, or has renewed it, keeps its conversation for the age of
an orphan from the time that it has read for the lease: whatever others do meanwhile that write no
older stamp, and whenever a sweep scanned the conversation, no sweep closes it. -/
theorem lease_kept {lease close : LeaseAction} {before middle : List LeaseAction} {since : ℤ}
    (hstart : s.found = []) (hlease : lease.leasedFrom = some since)
    (hgiven : ((leaseMachine staleAfter).step ((leaseMachine staleAfter).state s before) lease).2 =
      true)
    (hlater : ∀ action ∈ middle, ∀ readAt ∈ action.leasedFrom, since ≤ readAt)
    (hsoon : ((leaseMachine staleAfter).state s (before ++ lease :: middle)).now <
      since + staleAfter)
    (hclose : close.sweeps = true) :
    (leaseMachine staleAfter).step ((leaseMachine staleAfter).state s (before ++ lease :: middle))
      close = ((leaseMachine staleAfter).state s (before ++ lease :: middle), false) := by
  have hexpires : ∀ later action, LeaseSystem.Expired staleAfter later →
      ((leaseMachine staleAfter).step later action).1.Expired staleAfter :=
    fun _ action h => expired_step h action
  have hholds : ∀ later action, LeaseSystem.Held since later →
      (∀ readAt ∈ action.leasedFrom, since ≤ readAt) →
        ((leaseMachine staleAfter).step later action).1.Held since :=
    fun _ action h hread => held_step h action hread
  have hfirst : s.Expired staleAfter := by
    intro candidate hcandidate
    rw [hstart] at hcandidate
    cases hcandidate
  have hexpired := Machine.invariant hexpires hfirst (before ++ lease :: middle)
  have hheld : ((leaseMachine staleAfter).state s (before ++ lease :: middle)).Held since := by
    rw [Machine.state_append, Machine.state_cons]
    exact Machine.invariant_of_mem _ hholds (held_of_lease hlease hgiven) middle hlater
  exact held_kept hheld hexpired hsoon hclose

/-- A sweep finds the lease of time 0. It is renewed with the time 395, late, and again while the
conversation is written to. -/
theorem lease_kept_renewed :
    (leaseMachine 300).step
        ((leaseMachine 300).state ⟨0, some { status := some "processing" }, []⟩
          ([.stamp 0, .tick 400, .scan ["users", "joy", "conversations", "b"] 350, .tick 100] ++
            .renew 395 ::
              [.write { status := some "processing" }, .tick 100, .renew 420, .tick 94]))
        (.complete 0) =
      ((leaseMachine 300).state ⟨0, some { status := some "processing" }, []⟩
        ([.stamp 0, .tick 400, .scan ["users", "joy", "conversations", "b"] 350, .tick 100] ++
          .renew 395 ::
            [.write { status := some "processing" }, .tick 100, .renew 420, .tick 94]), false) :=
  lease_kept rfl rfl (by decide) (by decide) (by decide) rfl

end

end Omi.Finalization
