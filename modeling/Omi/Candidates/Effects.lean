import Omi.Candidates.Store

/-! What each transaction of the candidates does to the documents, guards included. -/
namespace Omi.Candidates
open Omi.Foundation
namespace CandidateStore
variable {ids : IdScheme} {store next : CandidateStore}

/-! ### Loading -/

theorem parseStrict_eq_ok_iff {stored record : CandidateRecord} :
    parseStrict stored = .ok record ↔ stored.valid = true ∧ stored = record := by
  unfold parseStrict
  split_ifs with hvalid
  · simp [hvalid]
  · simp [hvalid]

theorem validateWriteControl_eq_ok_iff {accountGeneration : ℤ} {u : Unit} :
    store.validateWriteControl accountGeneration = .ok u ↔
      store.controlGeneration = accountGeneration := by
  unfold validateWriteControl
  rw [check_eq_ok_iff, beq_iff_eq]

/-- A candidate that is loaded is there and of the account's generation. -/
theorem loadCandidate_ok {candidateId : String} {accountGeneration : ℤ} {record : CandidateRecord}
    (h : store.loadCandidate candidateId accountGeneration = .ok record) :
    store.controlGeneration = accountGeneration ∧
      store.candidates.get candidateId = some record := by
  unfold loadCandidate at h
  obtain ⟨_, hcontrol, h⟩ := bind_eq_ok_iff.mp h
  refine ⟨validateWriteControl_eq_ok_iff.mp hcontrol, ?_⟩
  cases hget : store.candidates.get candidateId with
  | none => simp [hget] at h
  | some stored =>
    simp only [hget] at h
    obtain ⟨candidate, hparse, h⟩ := bind_eq_ok_iff.mp h
    obtain ⟨_, hcheck, h⟩ := bind_eq_ok_iff.mp h
    obtain ⟨-, rfl⟩ := parseStrict_eq_ok_iff.mp hparse
    cases h
    rfl

/-! ### Creation -/

/-- What a creation that answers does: return the candidate that the key stands for, note one that
is there for the key, coalesce with the candidate of the semantic claim, or write a new one, where
no pending candidate stands for the claim or its window has closed. -/
inductive Creation (ids : IdScheme) (store : CandidateStore) (proposal : CandidateCreate)
    (idempotencyKey : String) (accountGeneration : ℤ) (now : ℚ) :
    CandidateStore → CandidateRecord → Prop where
  | known {known : IdempotencyAlias} {record : CandidateRecord}
      (halias : store.aliases.get (ids.keyHash accountGeneration idempotencyKey) = some known)
      (htarget : store.candidates.get known.candidateId = some record) :
      Creation ids store proposal idempotencyKey accountGeneration now store record
  | linked {record : CandidateRecord} (known : IdempotencyAlias)
      (hnew : store.aliases.get (ids.keyHash accountGeneration idempotencyKey) = none)
      (hthere : store.candidates.get
        (ids.candidateIdForIdempotency accountGeneration idempotencyKey) = some record)
      (hknown : known.candidateId = record.candidateId) :
      Creation ids store proposal idempotencyKey accountGeneration now
        { store with
          aliases := store.aliases.set (ids.keyHash accountGeneration idempotencyKey) known } record
  | coalesced {claimId : String} {claim : PendingClaim} {candidate : CandidateRecord}
      (tasks : Table TaskDoc)
      (hnew : store.aliases.get (ids.keyHash accountGeneration idempotencyKey) = none)
      (hclaimId : ids.pendingSemanticClaimId accountGeneration proposal = some claimId)
      (hclaim : store.pendingClaims.get claimId = some claim)
      (hcandidate : store.candidates.get claim.candidateId = some candidate) :
      Creation ids store proposal idempotencyKey accountGeneration now
        { store.putCandidate claim.candidateId (candidate.mergeAnnotations proposal)
            (ids.keyHash accountGeneration idempotencyKey)
            (ids.proposalRequestHash accountGeneration proposal) (some claimId) accountGeneration
            now with tasks }
        (candidate.mergeAnnotations proposal)
  | fresh (hnew : store.aliases.get (ids.keyHash accountGeneration idempotencyKey) = none)
      (hfree : store.candidates.get
        (ids.candidateIdForIdempotency accountGeneration idempotencyKey) = none)
      (hlapsed : ∀ claimId claim candidate,
        ids.pendingSemanticClaimId accountGeneration proposal = some claimId →
          store.pendingClaims.get claimId = some claim →
            claim.accountGeneration = accountGeneration →
              store.candidates.get claim.candidateId = some candidate →
                candidate.accountGeneration = accountGeneration → candidate.status = .pending →
                  candidate.hasLapsed now = true) :
      Creation ids store proposal idempotencyKey accountGeneration now
        (store.putCandidate (ids.candidateIdForIdempotency accountGeneration idempotencyKey)
          (newRecord ids proposal idempotencyKey accountGeneration now)
          (ids.keyHash accountGeneration idempotencyKey)
          (ids.proposalRequestHash accountGeneration proposal)
          (ids.pendingSemanticClaimId accountGeneration proposal) accountGeneration now)
        (newRecord ids proposal idempotencyKey accountGeneration now)

variable {proposal : CandidateCreate} {idempotencyKey candidateId : String}
  {accountGeneration : ℤ} {now : ℚ} {record : CandidateRecord}

theorem aliasedCandidate_ok {known : IdempotencyAlias} {requestHash : String}
    (h : store.aliasedCandidate known requestHash accountGeneration = .ok record) :
    store.candidates.get known.candidateId = some record := by
  unfold aliasedCandidate at h
  obtain ⟨_, -, h⟩ := bind_eq_ok_iff.mp h
  cases hget : store.candidates.get known.candidateId with
  | none => simp [hget] at h
  | some stored =>
    simp only [hget] at h
    obtain ⟨aliased, hparse, h⟩ := bind_eq_ok_iff.mp h
    obtain ⟨_, -, h⟩ := bind_eq_ok_iff.mp h
    obtain ⟨-, rfl⟩ := parseStrict_eq_ok_iff.mp hparse
    cases h
    rfl

/-- The candidate that stands for a claim is there. -/
theorem claimedCandidate_some {semanticClaimId : Option String} {claimedId : String}
    {candidate : CandidateRecord}
    (h : store.claimedCandidate semanticClaimId accountGeneration =
      .ok (some (claimedId, candidate))) :
    ∃ claimId claim, semanticClaimId = some claimId ∧
      store.pendingClaims.get claimId = some claim ∧ claimedId = claim.candidateId ∧
      store.candidates.get claim.candidateId = some candidate := by
  unfold claimedCandidate at h
  cases semanticClaimId with
  | none => cases h
  | some claimId =>
    rw [Option.bind_some] at h
    cases hclaim : store.pendingClaims.get claimId with
    | none => simp [hclaim] at h
    | some claim =>
      simp only [hclaim] at h
      split_ifs at h
      · cases h
      · cases hget : store.candidates.get claim.candidateId with
        | none => simp [hget] at h
        | some stored =>
          simp only [hget] at h
          obtain ⟨parsed, hparse, h⟩ := bind_eq_ok_iff.mp h
          obtain ⟨-, rfl⟩ := parseStrict_eq_ok_iff.mp hparse
          split_ifs at h
          · cases h
            exact ⟨claimId, claim, rfl, hclaim, rfl, hget⟩
          · cases h

/-- A candidate of the caller's generation that stands for a claim is found. -/
theorem claimedCandidate_of_claim {claimId : String} {claim : PendingClaim}
    {candidate : CandidateRecord} {claimed : Option (String × CandidateRecord)}
    (hclaim : store.pendingClaims.get claimId = some claim)
    (hgeneration : claim.accountGeneration = accountGeneration)
    (hcandidate : store.candidates.get claim.candidateId = some candidate)
    (hown : candidate.accountGeneration = accountGeneration)
    (h : store.claimedCandidate (some claimId) accountGeneration = .ok claimed) :
    claimed = some (claim.candidateId, candidate) := by
  unfold claimedCandidate at h
  simp only [Option.bind_some, hclaim, hgeneration, ne_eq, not_true_eq_false, if_false,
    hcandidate] at h
  obtain ⟨parsed, hparse, h⟩ := bind_eq_ok_iff.mp h
  obtain ⟨-, rfl⟩ := parseStrict_eq_ok_iff.mp hparse
  rw [if_pos hown] at h
  cases h
  rfl

theorem coalesceOrCreate_ok
    (hnew : store.aliases.get (ids.keyHash accountGeneration idempotencyKey) = none)
    (hfree : store.candidates.get
      (ids.candidateIdForIdempotency accountGeneration idempotencyKey) = none)
    (h : store.coalesceOrCreate ids proposal idempotencyKey accountGeneration now =
      .ok (next, record)) :
    Creation ids store proposal idempotencyKey accountGeneration now next record := by
  unfold coalesceOrCreate at h
  obtain ⟨claimed, hclaimed, h⟩ := bind_eq_ok_iff.mp h
  cases claimed with
  | none =>
    cases h
    refine .fresh hnew hfree ?_
    intro claimId claim candidate hclaimId hclaim hgeneration hcandidate hown
    rw [hclaimId] at hclaimed
    cases claimedCandidate_of_claim hclaim hgeneration hcandidate hown hclaimed
  | some claimed =>
    obtain ⟨claimedId, candidate⟩ := claimed
    obtain ⟨claimId, claim, hclaimId, hclaim, rfl, hcandidate⟩ := claimedCandidate_some hclaimed
    rw [hclaimId] at h hclaimed
    simp only at h
    split at h
    · cases h
      exact .coalesced _ hnew hclaimId hclaim hcandidate
    · split_ifs at h with hreusable
      · cases h
        exact .coalesced _ hnew hclaimId hclaim hcandidate
      · cases h
        rw [← hclaimId]
        refine .fresh hnew hfree ?_
        intro claimId' claim' candidate' hclaimId' hclaim' hgeneration hcandidate' hown hpending
        cases hclaimId.symm.trans hclaimId'
        obtain rfl : claim = claim' := Option.some.inj (hclaim.symm.trans hclaim')
        cases claimedCandidate_of_claim hclaim' hgeneration hcandidate' hown hclaimed
        simpa [reusablePending, hpending] using hreusable

theorem createCandidate_ok
    (h : store.createCandidate ids proposal idempotencyKey accountGeneration now =
      .ok (next, record)) :
    store.controlGeneration = accountGeneration ∧
      Creation ids store proposal idempotencyKey accountGeneration now next record := by
  unfold createCandidate at h
  obtain ⟨_, -, h⟩ := bind_eq_ok_iff.mp h
  obtain ⟨_, -, h⟩ := bind_eq_ok_iff.mp h
  obtain ⟨_, hcontrol, h⟩ := bind_eq_ok_iff.mp h
  refine ⟨validateWriteControl_eq_ok_iff.mp hcontrol, ?_⟩
  cases halias : store.aliases.get (ids.keyHash accountGeneration idempotencyKey) with
  | some known =>
    simp only [halias] at h
    obtain ⟨aliased, haliased, h⟩ := bind_eq_ok_iff.mp h
    cases h
    exact .known halias (aliasedCandidate_ok haliased)
  | none =>
    simp only [halias] at h
    cases hthere : store.candidates.get
        (ids.candidateIdForIdempotency accountGeneration idempotencyKey) with
    | none =>
      simp only [hthere] at h
      exact coalesceOrCreate_ok halias hthere h
    | some stored =>
      simp only [hthere] at h
      obtain ⟨existing, hparse, h⟩ := bind_eq_ok_iff.mp h
      obtain ⟨_, -, h⟩ := bind_eq_ok_iff.mp h
      obtain ⟨_, -, h⟩ := bind_eq_ok_iff.mp h
      obtain ⟨-, rfl⟩ := parseStrict_eq_ok_iff.mp hparse
      cases h
      exact .linked _ halias hthere rfl

/-! ### Resolution -/

theorem not_blocks_of_checkUnclaimed {u : Unit} (h : store.checkUnclaimed candidateId now = .ok u)
    {claim : ResolutionClaim} (hclaim : store.resolutionClaims.get candidateId = some claim) :
    claim.blocksResolution now = false := by
  unfold checkUnclaimed at h
  rw [check_eq_ok_iff, hclaim] at h
  simpa using h

/-- A lease whose promotion has begun keeps others from resolving the candidate. -/
theorem blocksResolution_of_begun {claim : ResolutionClaim} (hactive : claim.status = .active)
    (hbegun : claim.phase = .mutationStarted) : claim.blocksResolution now = true := by
  simp [ResolutionClaim.blocksResolution, hactive, hbegun]

/-- The task that an acceptance creates: the one of the candidate's id, unless it is there. -/
theorem createdTask_ok {candidate : CandidateRecord} {taskChange : TaskCreatePayload}
    {taskId : String}
    (h : store.createdTask ids candidate taskChange candidateId accountGeneration now =
      .ok (next, taskId)) :
    taskId = ids.taskIdForCandidate accountGeneration candidateId ∧
      ((next = store ∧ ∃ task, store.tasks.get taskId = some task ∧
          task.candidateId = some candidateId) ∨
        next = { store with
          tasks := store.tasks.set taskId (taskCreateStorage candidate taskChange now) }) := by
  unfold createdTask at h
  obtain ⟨_, -, h⟩ := bind_eq_ok_iff.mp h
  cases hget : store.tasks.get (ids.taskIdForCandidate accountGeneration candidateId) with
  | none =>
    simp only [hget] at h
    cases h
    exact ⟨rfl, .inr rfl⟩
  | some task =>
    simp only [hget] at h
    obtain ⟨_, hcheck, h⟩ := bind_eq_ok_iff.mp h
    cases h
    rw [check_eq_ok_iff, beq_iff_eq] at hcheck
    exact ⟨rfl, .inl ⟨rfl, task, hget, hcheck⟩⟩

theorem changedTask_ok {candidate : CandidateRecord} {action : MutationAction} {taskId : String}
    {taskChange : TaskChangePayload}
    {expectedTaskLinks : Option (Option String × Option String)} {written : String}
    (h : store.changedTask candidate action taskId taskChange expectedTaskLinks accountGeneration
      now = .ok (next, written)) :
    ∃ task, next = { store with tasks := store.tasks.set taskId task } := by
  unfold changedTask at h
  cases hget : store.tasks.get taskId with
  | none => simp [hget] at h
  | some currentTask =>
    simp only [hget] at h
    obtain ⟨_, -, h⟩ := bind_eq_ok_iff.mp h
    obtain ⟨_, -, h⟩ := bind_eq_ok_iff.mp h
    obtain ⟨_, -, h⟩ := bind_eq_ok_iff.mp h
    cases h
    exact ⟨_, rfl⟩

/-- What accepting a candidate writes of its task. -/
def TaskWritten (ids : IdScheme) (store : CandidateStore) (candidate : CandidateRecord)
    (candidateId : String) (accountGeneration : ℤ) (taskId : String) (tasks : Table TaskDoc) :
    Prop :=
  ∀ taskChange, candidate.proposal.change = .createTask taskChange →
    taskId = ids.taskIdForCandidate accountGeneration candidateId ∧
      ((tasks = store.tasks ∧ ∃ task, store.tasks.get taskId = some task ∧
          task.candidateId = some candidateId) ∨
        ∃ now, tasks = store.tasks.set taskId (taskCreateStorage candidate taskChange now))

/-- Accepting a candidate returns the receipt that is there, or resolves a pending one. -/
theorem resolveTaskCandidate_ok {expectedTaskLinks : Option (Option String × Option String)}
    {receipt : CandidateResolutionReceipt}
    (h : store.resolveTaskCandidate ids candidateId accountGeneration expectedTaskLinks now =
      .ok (next, receipt)) :
    store.controlGeneration = accountGeneration ∧
      ((next = store ∧ receipt.newlyResolved = false) ∨
        ∃ candidate taskId tasks, store.candidates.get candidateId = some candidate ∧
          candidate.status = .pending ∧ store.checkUnclaimed candidateId now = .ok () ∧
          TaskWritten ids store candidate candidateId accountGeneration taskId tasks ∧
          next = { store with tasks }.accept candidate candidateId taskId accountGeneration now ∧
          receipt = newReceipt ids candidateId accountGeneration .accepted (some taskId) now) := by
  unfold resolveTaskCandidate at h
  obtain ⟨candidate, hload, h⟩ := bind_eq_ok_iff.mp h
  obtain ⟨hcontrol, hcandidate⟩ := loadCandidate_ok hload
  refine ⟨hcontrol, ?_⟩
  split_ifs at h with haccepted
  · obtain ⟨known, hknown, h⟩ := bind_eq_ok_iff.mp h
    cases h
    refine .inl ⟨rfl, ?_⟩
    unfold knownReceipt at hknown
    cases hresolved : candidate.resolvedAt with
    | none => simp [hresolved] at hknown
    | some resolvedAt =>
      simp only [hresolved] at hknown
      cases hknown
      rfl
  · obtain ⟨_, hpending, h⟩ := bind_eq_ok_iff.mp h
    rw [check_eq_ok_iff, beq_iff_eq] at hpending
    obtain ⟨_, hunclaimed, h⟩ := bind_eq_ok_iff.mp h
    obtain ⟨⟨written, taskId⟩, hwritten, h⟩ := bind_eq_ok_iff.mp h
    cases h
    refine .inr ?_
    unfold acceptedTask at hwritten
    cases hchange : candidate.proposal.change with
    | createWorkstream workstreamProposal => simp [hchange] at hwritten
    | createTask taskChange =>
      simp only [hchange] at hwritten
      obtain ⟨htaskId, hstore⟩ := createdTask_ok hwritten
      have hstored : written = { store with tasks := written.tasks } := by
        rcases hstore with ⟨rfl, -⟩ | rfl <;> rfl
      refine ⟨candidate, taskId, written.tasks, hcandidate, hpending, hunclaimed, ?_, ?_, rfl⟩
      · intro taskChange' hchange'
        obtain rfl : taskChange = taskChange' := by simpa [hchange] using hchange'
        refine ⟨htaskId, ?_⟩
        rcases hstore with ⟨rfl, hthere⟩ | rfl
        · exact .inl ⟨rfl, hthere⟩
        · exact .inr ⟨now, rfl⟩
      · rw [← hstored]
    | changeTask action changedId taskChange =>
      simp only [hchange] at hwritten
      obtain ⟨task, rfl⟩ := changedTask_ok hwritten
      refine ⟨candidate, taskId, _, hcandidate, hpending, hunclaimed, ?_, rfl, rfl⟩
      intro taskChange' hchange'
      rw [hchange] at hchange'
      cases hchange'

theorem resolveCandidateWithoutMutation_ok {status : CandidateStatus} {reason : Option String}
    {receipt : CandidateResolutionReceipt}
    (h : store.resolveCandidateWithoutMutation ids candidateId status reason accountGeneration now =
      .ok (next, receipt)) :
    next = store ∨
      ∃ candidate, store.candidates.get candidateId = some candidate ∧
        candidate.status = .pending ∧ status ≠ .pending ∧
        store.checkUnclaimed candidateId now = .ok () ∧
        next = { store with
          candidates := store.candidates.set candidateId
            (settle candidate status (reasonOr reason status.value) now) } := by
  unfold resolveCandidateWithoutMutation at h
  obtain ⟨_, hstatus, h⟩ := bind_eq_ok_iff.mp h
  obtain ⟨candidate, hload, h⟩ := bind_eq_ok_iff.mp h
  obtain ⟨-, hcandidate⟩ := loadCandidate_ok hload
  split_ifs at h with hsame
  · obtain ⟨known, -, h⟩ := bind_eq_ok_iff.mp h
    cases h
    exact .inl rfl
  · obtain ⟨_, hpending, h⟩ := bind_eq_ok_iff.mp h
    rw [check_eq_ok_iff, beq_iff_eq] at hpending
    obtain ⟨_, hunclaimed, h⟩ := bind_eq_ok_iff.mp h
    cases h
    refine .inr ⟨candidate, hcandidate, hpending, ?_, hunclaimed, rfl⟩
    rintro rfl
    exact hsame hpending

/-- What a lease lets its holder reconcile: the acceptance with the reserved task. -/
theorem checkClaimedReconcile_ok {claim : ResolutionClaim} {status : CandidateStatus}
    {resultTaskId claimToken : Option String} {u : Unit}
    (h : checkClaimedReconcile claim status resultTaskId claimToken now = .ok u) :
    claimToken = some claim.claimToken ∧ status = .accepted ∧ claim.resultTaskId = resultTaskId := by
  unfold checkClaimedReconcile at h
  obtain ⟨_, htoken, h⟩ := bind_eq_ok_iff.mp h
  obtain ⟨_, -, h⟩ := bind_eq_ok_iff.mp h
  obtain ⟨_, -, h⟩ := bind_eq_ok_iff.mp h
  rw [check_eq_ok_iff, beq_iff_eq] at htoken
  rw [check_eq_ok_iff, Bool.and_eq_true, beq_iff_eq, beq_iff_eq] at h
  exact ⟨htoken, h⟩

/-- Reconciling leaves a candidate of that status as it is, or settles a pending one as its lease
permits. -/
theorem reconcileMigratedCandidate_ok {status : CandidateStatus}
    {resultTaskId reason claimToken : Option String}
    (h : store.reconcileMigratedCandidate candidateId status accountGeneration resultTaskId reason
      now claimToken = .ok (next, record)) :
    next = store ∨
      ∃ candidate claims, store.candidates.get candidateId = some candidate ∧
        candidate.status = .pending ∧ status ≠ .pending ∧ record.status = status ∧
        record.proposal = candidate.proposal ∧ record.candidateId = candidate.candidateId ∧
        record.accountGeneration = candidate.accountGeneration ∧
        (claims = store.resolutionClaims ∨
          ∃ claim, store.resolutionClaims.get candidateId = some claim ∧
            claims = store.resolutionClaims.set candidateId { claim with status := .consumed }) ∧
        (∀ claim, store.resolutionClaims.get candidateId = some claim →
          claim.blocksResolution now = true →
            claimToken = some claim.claimToken ∧ status = .accepted ∧
              claim.resultTaskId = resultTaskId) ∧
        next = { store with
          candidates := store.candidates.set candidateId record
          resolutionClaims := claims } := by
  unfold reconcileMigratedCandidate at h
  obtain ⟨_, hstatus, h⟩ := bind_eq_ok_iff.mp h
  rw [check_eq_ok_iff, bne_iff_ne] at hstatus
  obtain ⟨_, -, h⟩ := bind_eq_ok_iff.mp h
  obtain ⟨candidate, hload, h⟩ := bind_eq_ok_iff.mp h
  obtain ⟨-, hcandidate⟩ := loadCandidate_ok hload
  split_ifs at h with hsame
  · cases h
    exact .inl rfl
  · obtain ⟨_, hpending, h⟩ := bind_eq_ok_iff.mp h
    rw [check_eq_ok_iff, beq_iff_eq] at hpending
    obtain ⟨_, hclaimed, h⟩ := bind_eq_ok_iff.mp h
    obtain ⟨reconciled, hparse, h⟩ := bind_eq_ok_iff.mp h
    obtain ⟨-, rfl⟩ := parseStrict_eq_ok_iff.mp hparse
    cases h
    refine .inr ⟨candidate, _, hcandidate, hpending, hstatus, rfl, rfl, rfl, rfl, ?_, ?_, rfl⟩
    · cases claimToken with
      | none => exact .inl rfl
      | some token =>
        cases hclaim : store.resolutionClaims.get candidateId with
        | none => exact .inl rfl
        | some claim => exact .inr ⟨claim, rfl, rfl⟩
    · intro claim hclaim hblocks
      have hblocking : store.blockingClaim candidateId now = some claim := by
        unfold blockingClaim
        rw [hclaim, Option.filter_some, if_pos hblocks]
      unfold checkReconcile at hclaimed
      rw [hblocking] at hclaimed
      exact checkClaimedReconcile_ok hclaimed

/-! ### Leases -/

/-- A claim on a promotion that has begun changes hands without losing the task it reserved. -/
def KeepsReservation (store : CandidateStore) (candidateId : String) (claim : ResolutionClaim) :
    Prop :=
  ∀ old, store.resolutionClaims.get candidateId = some old → old.status = .active →
    old.phase = .mutationStarted →
      claim.phase = .mutationStarted ∧ claim.resultTaskId = old.resultTaskId

theorem claimCandidateForLegacyPromotion_ok {leaseSeconds : ℤ} {resumeActiveClaim : Bool}
    {token result : String}
    (h : store.claimCandidateForLegacyPromotion candidateId accountGeneration now leaseSeconds
      resumeActiveClaim token = .ok (next, result)) :
    next = store ∨
      ∃ candidate claim, store.candidates.get candidateId = some candidate ∧
        candidate.status = .pending ∧ claim.status = .active ∧
        store.KeepsReservation candidateId claim ∧
        next = { store with
          resolutionClaims := store.resolutionClaims.set candidateId claim } := by
  unfold claimCandidateForLegacyPromotion at h
  obtain ⟨candidate, hload, h⟩ := bind_eq_ok_iff.mp h
  obtain ⟨-, hcandidate⟩ := loadCandidate_ok hload
  obtain ⟨_, hpending, h⟩ := bind_eq_ok_iff.mp h
  rw [check_eq_ok_iff, beq_iff_eq] at hpending
  cases hclaim : store.resolutionClaims.get candidateId with
  | none =>
    simp only [hclaim] at h
    cases h
    refine .inr ⟨candidate, _, hcandidate, hpending, ?_, ?_, rfl⟩
    · rfl
    · intro old hold
      rw [hclaim] at hold
      cases hold
  | some claim =>
    simp only [hclaim] at h
    split_ifs at h with hactive hresume hbegun
    · cases h
      exact .inl rfl
    · obtain ⟨_, -, h⟩ := bind_eq_ok_iff.mp h
      cases h
      refine .inr ⟨candidate, _, hcandidate, hpending, ?_, ?_, rfl⟩
      · exact hbegun.1
      · intro old hold _ _
        obtain rfl : claim = old := Option.some.inj (hclaim.symm.trans hold)
        exact ⟨hbegun.2, rfl⟩
    · cases h
      refine .inr ⟨candidate, _, hcandidate, hpending, ?_, ?_, rfl⟩
      · rfl
      · intro old hold hactive' hphase
        obtain rfl : claim = old := Option.some.inj (hclaim.symm.trans hold)
        exact absurd ⟨hactive', hphase⟩ hbegun

/-- The candidate's lease is that of a promotion that has begun with the task. -/
def Begun (store : CandidateStore) (candidateId taskId : String) : Prop :=
  ∃ claim, store.resolutionClaims.get candidateId = some claim ∧
    claim.phase = .mutationStarted ∧ claim.resultTaskId = some taskId

theorem beginCandidateLegacyPromotion_ok {claimToken resultTaskId : String}
    {preferredExistingTaskId : Option String} {legacyMutationAlreadyCommitted : Bool}
    {leaseSeconds : ℤ} {reserved : LegacyPromotionReservation}
    (h : store.beginCandidateLegacyPromotion candidateId accountGeneration claimToken resultTaskId
      preferredExistingTaskId legacyMutationAlreadyCommitted now leaseSeconds =
        .ok (next, reserved)) :
    next.Begun candidateId reserved.taskId ∧
      (next = store ∨
        ∃ candidate claim, store.candidates.get candidateId = some candidate ∧
          candidate.status = .pending ∧ claim.status = .active ∧
          store.KeepsReservation candidateId claim ∧
          next = { store with
            resolutionClaims := store.resolutionClaims.set candidateId claim }) := by
  unfold beginCandidateLegacyPromotion at h
  obtain ⟨_, -, h⟩ := bind_eq_ok_iff.mp h
  obtain ⟨candidate, hload, h⟩ := bind_eq_ok_iff.mp h
  obtain ⟨-, hcandidate⟩ := loadCandidate_ok hload
  obtain ⟨_, hpending, h⟩ := bind_eq_ok_iff.mp h
  rw [check_eq_ok_iff, beq_iff_eq] at hpending
  cases hclaim : store.resolutionClaims.get candidateId with
  | none => simp [hclaim] at h
  | some claim =>
    simp only [hclaim] at h
    obtain ⟨_, hheld, h⟩ := bind_eq_ok_iff.mp h
    rw [check_eq_ok_iff, Bool.and_eq_true, beq_iff_eq, beq_iff_eq] at hheld
    obtain ⟨_, -, h⟩ := bind_eq_ok_iff.mp h
    cases hphase : claim.phase with
    | mutationStarted =>
      simp only [hphase] at h
      cases htask : claim.resultTaskId.filter (· != "") with
      | none => simp [htask] at h
      | some taskId =>
        simp only [htask] at h
        cases hkind : claim.reservationKind with
        | none => simp [hkind] at h
        | some kind =>
          simp only [hkind] at h
          cases h
          obtain ⟨hsome, -⟩ := Option.filter_eq_some_iff.mp htask
          exact ⟨⟨claim, hclaim, hphase, hsome⟩, .inl rfl⟩
    | preMutation =>
      simp only [hphase] at h
      cases h
      refine ⟨⟨_, by rw [Table.get_set, if_pos rfl], rfl, rfl⟩, ?_⟩
      refine .inr ⟨candidate, _, hcandidate, hpending, ?_, ?_, rfl⟩
      · exact hheld.1
      intro old hold _ hbegun
      obtain rfl : claim = old := Option.some.inj (hclaim.symm.trans hold)
      rw [hphase] at hbegun
      cases hbegun

end CandidateStore
end Omi.Candidates
