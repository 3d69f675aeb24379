import Omi.Candidates.Effects

/-! Over every run of the calls: one candidate for a key, one open suggestion for a task, one
resolution for a candidate, and a promotion that has begun ends with the task it reserved. -/
namespace Omi.Candidates
open Omi.Foundation
namespace CandidateStore
variable {ids : IdScheme} {store next : CandidateStore} {call : CandidateCall}

/-! ### What a call does to the documents -/

/-- Where a promotion has begun on the candidate, the call is the one that may resolve it. -/
def Permitted (store : CandidateStore) (candidateId : String) (call : CandidateCall) : Prop :=
  ∀ claim, store.resolutionClaims.get candidateId = some claim → claim.status = .active →
    claim.phase = .mutationStarted → ∃ accountGeneration reason resolvedAt,
      call = .reconcileMigrated candidateId .accepted accountGeneration claim.resultTaskId reason
        resolvedAt (some claim.claimToken)

/-- What a call does: nothing to candidates and claims, create a candidate, settle a pending one,
or lease a pending one. -/
inductive Effect (ids : IdScheme) (store : CandidateStore) (call : CandidateCall) :
    CandidateStore → Prop where
  | rest (tasks : Table TaskDoc) (goals : Table GoalDoc) (workstreams : Table WorkstreamDoc) :
      Effect ids store call { store with tasks, goals, workstreams }
  | create {proposal : CandidateCreate} {idempotencyKey : String} {accountGeneration : ℤ} {now : ℚ}
      {next : CandidateStore} {record : CandidateRecord}
      (hcall : call = .create proposal idempotencyKey accountGeneration now)
      (hcontrol : store.controlGeneration = accountGeneration)
      (hcreation : Creation ids store proposal idempotencyKey accountGeneration now next record) :
      Effect ids store call next
  | settle {candidateId : String} {candidate settled : CandidateRecord}
      (claims : Table ResolutionClaim) (tasks : Table TaskDoc) (outbox : Table OutboxRow)
      (hcandidate : store.candidates.get candidateId = some candidate)
      (hpending : candidate.status = .pending) (hproposal : settled.proposal = candidate.proposal)
      (hid : settled.candidateId = candidate.candidateId)
      (hgeneration : settled.accountGeneration = candidate.accountGeneration)
      (hsettled : settled.status ≠ .pending)
      (hclaims : claims = store.resolutionClaims ∨
        ∃ claim, store.resolutionClaims.get candidateId = some claim ∧
          claims = store.resolutionClaims.set candidateId { claim with status := .consumed })
      (hpermitted : store.Permitted candidateId call) :
      Effect ids store call
        { store with
          candidates := store.candidates.set candidateId settled
          resolutionClaims := claims
          tasks
          outbox }
  | lease {candidateId : String} {candidate : CandidateRecord} {claim : ResolutionClaim}
      (hcandidate : store.candidates.get candidateId = some candidate)
      (hpending : candidate.status = .pending) (hactive : claim.status = .active)
      (hkept : store.KeepsReservation candidateId claim) :
      Effect ids store call
        { store with resolutionClaims := store.resolutionClaims.set candidateId claim }

theorem Effect.idle : Effect ids store call store :=
  .rest store.tasks store.goals store.workstreams

/-- A candidate that the caller finds unclaimed is one that no promotion has begun on. -/
theorem permitted_of_checkUnclaimed {candidateId : String} {now : ℚ}
    (h : store.checkUnclaimed candidateId now = .ok ()) : store.Permitted candidateId call := by
  intro claim hclaim hactive hbegun
  have hfree := not_blocks_of_checkUnclaimed h hclaim
  rw [blocksResolution_of_begun hactive hbegun] at hfree
  cases hfree

theorem effect_step (ids : IdScheme) (store : CandidateStore) (call : CandidateCall) :
    Effect ids store call ((candidateStore ids).step store call).1 := by
  cases call with
  | create proposal idempotencyKey accountGeneration now =>
    simp only [candidateStore]
    cases hresult : store.createCandidate ids proposal idempotencyKey accountGeneration now with
    | error error => exact .idle
    | ok result =>
      obtain ⟨hcontrol, hcreation⟩ := createCandidate_ok hresult
      exact .create rfl hcontrol hcreation
  | resolveTask candidateId accountGeneration expectedTaskLinks now =>
    simp only [candidateStore]
    cases hresult : store.resolveTaskCandidate ids candidateId accountGeneration expectedTaskLinks
        now with
    | error error => exact .idle
    | ok result =>
      obtain ⟨next, receipt⟩ := result
      obtain ⟨-, ⟨rfl, -⟩ | ⟨candidate, taskId, tasks, hcandidate, hpending, hunclaimed, -, rfl, -⟩⟩ :=
        resolveTaskCandidate_ok hresult
      · exact .idle
      · exact .settle _ tasks _ hcandidate hpending rfl rfl rfl (by simp [settle]) (.inl rfl)
          (permitted_of_checkUnclaimed hunclaimed)
  | resolveWithoutMutation candidateId status reason accountGeneration now =>
    simp only [candidateStore]
    cases hresult : store.resolveCandidateWithoutMutation ids candidateId status reason
        accountGeneration now with
    | error error => exact .idle
    | ok result =>
      obtain ⟨next, receipt⟩ := result
      rcases resolveCandidateWithoutMutation_ok hresult with
        rfl | ⟨candidate, hcandidate, hpending, hstatus, hunclaimed, rfl⟩
      · exact .idle
      · exact .settle _ store.tasks store.outbox hcandidate hpending rfl rfl rfl hstatus (.inl rfl)
          (permitted_of_checkUnclaimed hunclaimed)
  | reconcileMigrated candidateId status accountGeneration resultTaskId reason resolvedAt
      claimToken =>
    simp only [candidateStore]
    cases hresult : store.reconcileMigratedCandidate candidateId status accountGeneration
        resultTaskId reason resolvedAt claimToken with
    | error error => exact .idle
    | ok result =>
      obtain ⟨next, record⟩ := result
      rcases reconcileMigratedCandidate_ok hresult with
        rfl | ⟨candidate, claims, hcandidate, hpending, hstatus, hrecord, hproposal, hid,
          hgeneration, hclaims, hholder, rfl⟩
      · exact .idle
      · refine .settle claims store.tasks store.outbox hcandidate hpending hproposal hid hgeneration
          (by rw [hrecord]; exact hstatus) hclaims ?_
        intro claim hclaim hactive hbegun
        obtain ⟨rfl, rfl, rfl⟩ := hholder claim hclaim (blocksResolution_of_begun hactive hbegun)
        exact ⟨accountGeneration, reason, resolvedAt, rfl⟩
  | claimLegacyPromotion candidateId accountGeneration now leaseSeconds resumeActiveClaim token =>
    simp only [candidateStore]
    cases hresult : store.claimCandidateForLegacyPromotion candidateId accountGeneration now
        leaseSeconds resumeActiveClaim token with
    | error error => exact .idle
    | ok result =>
      obtain ⟨next, answer⟩ := result
      rcases claimCandidateForLegacyPromotion_ok hresult with
        rfl | ⟨candidate, claim, hcandidate, hpending, hactive, hkept, rfl⟩
      · exact .idle
      · exact .lease hcandidate hpending hactive hkept
  | beginLegacyPromotion candidateId accountGeneration claimToken resultTaskId
      preferredExistingTaskId legacyMutationAlreadyCommitted now leaseSeconds =>
    simp only [candidateStore]
    cases hresult : store.beginCandidateLegacyPromotion candidateId accountGeneration claimToken
        resultTaskId preferredExistingTaskId legacyMutationAlreadyCommitted now leaseSeconds with
    | error error => exact .idle
    | ok result =>
      obtain ⟨next, reserved⟩ := result
      rcases beginCandidateLegacyPromotion_ok hresult with
        ⟨-, rfl | ⟨candidate, claim, hcandidate, hpending, hactive, hkept, rfl⟩⟩
      · exact .idle
      · exact .lease hcandidate hpending hactive hkept
  | edit tasks goals workstreams => exact .rest tasks goals workstreams

/-! ### The invariant -/

/-- Candidates bear their ids and the account's generation, as do the claims on them, and a lease
that has been consumed is on a candidate that is resolved. -/
structure Sound (store : CandidateStore) : Prop where
  keyed : ∀ candidateId record, store.candidates.get candidateId = some record →
    record.candidateId = candidateId ∧ record.accountGeneration = store.controlGeneration
  claimed : ∀ claimId claim, store.pendingClaims.get claimId = some claim →
    claim.accountGeneration = store.controlGeneration
  consumed : ∀ candidateId claim, store.resolutionClaims.get candidateId = some claim →
    claim.status = .consumed → ∃ record, store.candidates.get candidateId = some record ∧
      record.status ≠ .pending

/-- What is written under an id and a claim when a candidate is put in their place. -/
theorem Sound.put (h : Sound store) (record : CandidateRecord)
    {candidateId keyHash requestHash : String} {claimId : Option String} {now : ℚ}
    (hid : record.candidateId = candidateId)
    (hgeneration : record.accountGeneration = store.controlGeneration)
    (hstatus : ∀ old, store.candidates.get candidateId = some old → record.status = old.status)
    (tasks : Table TaskDoc) :
    Sound { store.putCandidate candidateId record keyHash requestHash claimId
      store.controlGeneration now with tasks } where
  keyed := by
    intro otherId other hother
    simp only [putCandidate, Table.get_set] at hother
    split_ifs at hother with hsame
    · cases hother
      exact ⟨hid.trans hsame.symm, hgeneration⟩
    · exact h.keyed otherId other hother
  claimed := by
    intro otherId claim hclaim
    cases claimId with
    | none => exact h.claimed otherId claim hclaim
    | some claimId =>
      simp only [putCandidate, Table.get_set] at hclaim
      split_ifs at hclaim with hsame
      · cases hclaim
        rfl
      · exact h.claimed otherId claim hclaim
  consumed := by
    intro otherId claim hclaim hconsumed
    obtain ⟨other, hother, hresolved⟩ := h.consumed otherId claim hclaim hconsumed
    simp only [putCandidate, Table.get_set]
    split_ifs with hsame
    · subst hsame
      exact ⟨record, rfl, by rw [hstatus other hother]; exact hresolved⟩
    · exact ⟨other, hother, hresolved⟩

theorem Sound.effect (h : Sound store) (heffect : Effect ids store call next) : Sound next := by
  cases heffect with
  | rest tasks goals workstreams => exact ⟨h.keyed, h.claimed, h.consumed⟩
  | create hcall hcontrol hcreation =>
    subst hcontrol
    cases hcreation with
    | known halias htarget => exact h
    | linked known hnew hthere hknown => exact ⟨h.keyed, h.claimed, h.consumed⟩
    | @coalesced claimId claim candidate tasks hnew hclaimId hclaim hcandidate =>
      obtain ⟨hid, hgeneration⟩ := h.keyed _ _ hcandidate
      refine h.put (candidate.mergeAnnotations _) hid hgeneration ?_ tasks
      intro old hold
      cases hcandidate.symm.trans hold
      rfl
    | fresh hnew hfree hlapsed =>
      refine h.put (newRecord ids _ _ store.controlGeneration _) rfl rfl ?_ store.tasks
      intro old hold
      cases hfree.symm.trans hold
  | @settle candidateId candidate settled claims tasks outbox hcandidate hpending hproposal hid
      hgeneration hsettled hclaims hpermitted =>
    refine ⟨?_, h.claimed, ?_⟩
    · intro otherId other hother
      rw [Table.get_set] at hother
      split_ifs at hother with hsame
      · cases hother
        obtain ⟨hkeyed, hown⟩ := h.keyed _ _ hcandidate
        exact ⟨(hid.trans hkeyed).trans hsame.symm, hgeneration.trans hown⟩
      · exact h.keyed otherId other hother
    · intro otherId claim hclaim hconsumed
      simp only [Table.get_set]
      split_ifs with hsame
      · exact ⟨settled, rfl, hsettled⟩
      · rcases hclaims with rfl | ⟨old, hold, rfl⟩
        · exact h.consumed otherId claim hclaim hconsumed
        · simp only [Table.get_set, if_neg hsame] at hclaim
          exact h.consumed otherId claim hclaim hconsumed
  | @lease candidateId candidate claim hcandidate hpending hactive hkept =>
    refine ⟨h.keyed, h.claimed, ?_⟩
    intro otherId other hother hconsumed
    rw [Table.get_set] at hother
    split_ifs at hother with hsame
    · cases hother
      rw [hactive] at hconsumed
      cases hconsumed
    · exact h.consumed otherId other hother hconsumed

theorem Effect.control (heffect : Effect ids store call next) :
    next.controlGeneration = store.controlGeneration := by
  cases heffect with
  | rest tasks goals workstreams => rfl
  | create hcall hcontrol hcreation => cases hcreation <;> rfl
  | settle claims tasks outbox => rfl
  | lease hcandidate hpending hactive hkept => rfl

/-! ### Statuses -/

def statusOf (store : CandidateStore) (candidateId : String) : Option CandidateStatus :=
  (store.candidates.get candidateId).map (·.status)

/-- A call changes the status of a pending candidate alone, and where a promotion has begun on it
only as permitted. -/
theorem Effect.status (heffect : Effect ids store call next) (candidateId : String) :
    store.statusOf candidateId = none ∨
      next.statusOf candidateId = store.statusOf candidateId ∨
      (store.statusOf candidateId = some .pending ∧ store.Permitted candidateId call) := by
  unfold statusOf
  cases heffect with
  | rest tasks goals workstreams => exact .inr (.inl rfl)
  | create hcall hcontrol hcreation =>
    cases hcreation with
    | known halias htarget => exact .inr (.inl rfl)
    | linked known hnew hthere hknown => exact .inr (.inl rfl)
    | @coalesced claimId claim candidate tasks hnew hclaimId hclaim hcandidate =>
      refine .inr (.inl ?_)
      simp only [putCandidate, Table.get_set]
      split_ifs with hsame
      · rw [hsame, hcandidate]
        rfl
      · rfl
    | fresh hnew hfree hlapsed =>
      simp only [putCandidate, Table.get_set]
      split_ifs with hsame
      · rw [hsame, hfree]
        exact .inl rfl
      · exact .inr (.inl rfl)
  | @settle settledId candidate settled claims tasks outbox hcandidate hpending hproposal hid
      hgeneration hsettled hclaims hpermitted =>
    simp only [Table.get_set]
    split_ifs with hsame
    · rw [hsame, hcandidate, Option.map_some, hpending]
      exact .inr (.inr ⟨rfl, hpermitted⟩)
    · exact .inr (.inl rfl)
  | lease hcandidate hpending hactive hkept => exact .inr (.inl rfl)

theorem Effect.status_stays (heffect : Effect ids store call next) {candidateId : String}
    {status : CandidateStatus} (hstatus : store.statusOf candidateId = some status)
    (hresolved : status ≠ .pending) : next.statusOf candidateId = some status := by
  rcases heffect.status candidateId with hnone | hsame | ⟨hpending, -⟩
  · rw [hstatus] at hnone
    cases hnone
  · rw [hsame, hstatus]
  · rw [hstatus] at hpending
    exact absurd (Option.some.inj hpending) hresolved

/-! ### Keys -/

theorem Effect.alias_stays (heffect : Effect ids store call next) {keyHash : String}
    {known : IdempotencyAlias} (hknown : store.aliases.get keyHash = some known) :
    next.aliases.get keyHash = some known := by
  have hput : ∀ {key : String} (other : IdempotencyAlias), store.aliases.get key = none →
      (store.aliases.set key other).get keyHash = some known := by
    intro key other hnew
    rw [Table.get_set, if_neg]
    · exact hknown
    · rintro rfl
      rw [hnew] at hknown
      cases hknown
  cases heffect with
  | rest tasks goals workstreams => exact hknown
  | create hcall hcontrol hcreation =>
    cases hcreation with
    | known halias htarget => exact hknown
    | linked known' hnew hthere hknown' => exact hput known' hnew
    | coalesced tasks hnew hclaimId hclaim hcandidate => exact hput _ hnew
    | fresh hnew hfree hlapsed => exact hput _ hnew
  | settle claims tasks outbox => exact hknown
  | lease hcandidate hpending hactive hkept => exact hknown

/-- A creation that answers leaves an alias that leads from its key to its answer. -/
theorem Creation.alias {proposal : CandidateCreate} {idempotencyKey : String}
    {accountGeneration : ℤ} {now : ℚ} {record : CandidateRecord} (hsound : Sound store)
    (h : Creation ids store proposal idempotencyKey accountGeneration now next record) :
    ∃ known, next.aliases.get (ids.keyHash accountGeneration idempotencyKey) = some known ∧
      known.candidateId = record.candidateId := by
  have hset : ∀ known, (store.aliases.set (ids.keyHash accountGeneration idempotencyKey) known).get
      (ids.keyHash accountGeneration idempotencyKey) = some known := by
    intro known
    rw [Table.get_set, if_pos rfl]
  cases h with
  | @known known record halias htarget =>
    exact ⟨known, halias, (hsound.keyed _ _ htarget).1.symm⟩
  | linked known hnew hthere hknown =>
    exact ⟨known, hset known, hknown⟩
  | coalesced tasks hnew hclaimId hclaim hcandidate => exact ⟨_, hset _, rfl⟩
  | fresh hnew hfree hlapsed => exact ⟨_, hset _, rfl⟩

/-! ### Semantic claims -/

/-- The candidate is pending, its window is open and it proposes the task of the claim. -/
def Suggested (ids : IdScheme) (store : CandidateStore) (now : ℚ) (claimId candidateId : String) :
    Prop :=
  ∃ record, store.candidates.get candidateId = some record ∧ record.status = .pending ∧
    record.hasLapsed now = false ∧
    ids.pendingSemanticClaimId store.controlGeneration record.proposal = some claimId

/-- A pending candidate stands for its claim, or its window has closed. -/
def Sole (ids : IdScheme) (store : CandidateStore) (clock : ℚ) : Prop :=
  ∀ candidateId record claimId, store.candidates.get candidateId = some record →
    record.status = .pending →
      ids.pendingSemanticClaimId store.controlGeneration record.proposal = some claimId →
        record.hasLapsed clock = true ∨
          ∃ claim, store.pendingClaims.get claimId = some claim ∧ claim.candidateId = candidateId

theorem Sole.eq_of_suggested {clock : ℚ} (h : Sole ids store clock) {claimId a b : String}
    (ha : Suggested ids store clock claimId a) (hb : Suggested ids store clock claimId b) :
    a = b := by
  have hclaim : ∀ {candidateId : String}, Suggested ids store clock claimId candidateId →
      ∃ claim, store.pendingClaims.get claimId = some claim ∧ claim.candidateId = candidateId := by
    rintro candidateId ⟨record, hrecord, hpending, hopen, hid⟩
    rcases h candidateId record claimId hrecord hpending hid with hlapsed | hclaim
    · rw [hopen] at hlapsed
      cases hlapsed
    · exact hclaim
  obtain ⟨claim, hget, rfl⟩ := hclaim ha
  obtain ⟨claim', hget', rfl⟩ := hclaim hb
  rw [Option.some.inj (hget.symm.trans hget')]

/-- The call creates no candidate later than the clock. -/
def CreatesBy (clock : ℚ) : CandidateCall → Prop
  | .create _ _ _ now => now ≤ clock
  | _ => True

theorem Sole.creation {proposal : CandidateCreate} {idempotencyKey : String} {now clock : ℚ}
    {record : CandidateRecord} (h : Sole ids store clock) (hsound : Sound store)
    (hnow : now ≤ clock)
    (hcreation : Creation ids store proposal idempotencyKey store.controlGeneration now next
      record) : Sole ids next clock := by
  cases hcreation with
  | known halias htarget => exact h
  | linked known hnew hthere hknown => exact h
  | @coalesced claimId claim candidate tasks hnew hclaimId hclaim hcandidate =>
    have hkeyed := (hsound.keyed _ _ hcandidate).1
    -- The claim leads to the candidate as before, so only the annotations of that one change.
    have hlead : ∀ {otherId other : String},
        (∃ old, store.pendingClaims.get otherId = some old ∧ old.candidateId = other) →
          ∃ new, (store.putCandidate claim.candidateId (candidate.mergeAnnotations proposal)
            (ids.keyHash store.controlGeneration idempotencyKey)
            (ids.proposalRequestHash store.controlGeneration proposal) (some claimId)
            store.controlGeneration now).pendingClaims.get otherId = some new ∧
              new.candidateId = other := by
      rintro otherId other ⟨old, hold, rfl⟩
      simp only [putCandidate, Table.get_set]
      split_ifs with hsame
      · subst hsame
        obtain rfl : claim = old := Option.some.inj (hclaim.symm.trans hold)
        exact ⟨_, rfl, hkeyed⟩
      · exact ⟨old, hold, rfl⟩
    intro otherId other otherClaim hother hpending hid
    simp only [putCandidate, Table.get_set] at hother
    split_ifs at hother with hsame
    · cases hother
      subst hsame
      have hmerged : ids.pendingSemanticClaimId store.controlGeneration candidate.proposal =
          some otherClaim := by
        rw [← candidate.pendingSemanticClaimId_mergeAnnotations ids store.controlGeneration proposal]
        exact hid
      rcases h _ candidate otherClaim hcandidate hpending hmerged with hlapsed | hstands
      · exact .inl hlapsed
      · exact .inr (hlead hstands)
    · rcases h otherId other otherClaim hother hpending hid with hlapsed | hstands
      · exact .inl hlapsed
      · exact .inr (hlead hstands)
  | fresh hnew hfree hlapsed =>
    intro otherId other otherClaim hother hpending hid
    simp only [putCandidate, Table.get_set] at hother
    split_ifs at hother with hsame
    · cases hother
      have hclaimId : ids.pendingSemanticClaimId store.controlGeneration proposal =
          some otherClaim := hid
      refine .inr ⟨⟨ids.candidateIdForIdempotency store.controlGeneration idempotencyKey,
        store.controlGeneration, now⟩, ?_, hsame.symm⟩
      simp only [putCandidate, hclaimId, Table.get_set, if_true]
      rfl
    · have hid' : ids.pendingSemanticClaimId store.controlGeneration other.proposal =
          some otherClaim := hid
      rcases h otherId other otherClaim hother hpending hid' with hclosed | ⟨claim, hclaim, hstands⟩
      · exact .inl hclosed
      · by_cases hmine : ids.pendingSemanticClaimId store.controlGeneration proposal =
            some otherClaim
        · subst hstands
          have hclosed : other.hasLapsed now = true := hlapsed otherClaim claim other hmine hclaim
            (hsound.claimed _ _ hclaim) hother (hsound.keyed _ _ hother).2 hpending
          exact .inl (CandidateRecord.hasLapsed_mono hclosed hnow)
        · refine .inr ⟨claim, ?_, hstands⟩
          unfold putCandidate
          cases hclaimId : ids.pendingSemanticClaimId store.controlGeneration proposal with
          | none => exact hclaim
          | some claimId =>
            have hne : otherClaim ≠ claimId := by
              rintro rfl
              exact hmine hclaimId
            simp only [Table.get_set, if_neg hne]
            exact hclaim

theorem Sole.effect {clock : ℚ} (h : Sole ids store clock) (hsound : Sound store)
    (hclock : CreatesBy clock call) (heffect : Effect ids store call next) :
    Sole ids next clock := by
  cases heffect with
  | rest tasks goals workstreams => exact h
  | create hcall hcontrol hcreation =>
    subst hcall hcontrol
    exact h.creation hsound hclock hcreation
  | @settle settledId candidate settled claims tasks outbox hcandidate hpending hproposal hid
      hgeneration hsettled hclaims hpermitted =>
    intro otherId other otherClaim hother hopen hclaimId
    rw [Table.get_set] at hother
    split_ifs at hother with hsame
    · cases hother
      exact absurd hopen hsettled
    · exact h otherId other otherClaim hother hopen hclaimId
  | lease hcandidate hpending hactive hkept => exact h

/-! ### Promotions -/

/-- The lease on a pending candidate has not been consumed. -/
theorem Sound.active (h : Sound store) {candidateId : String} {claim : ResolutionClaim}
    (hclaim : store.resolutionClaims.get candidateId = some claim)
    (hpending : store.statusOf candidateId = some .pending) : claim.status = .active := by
  cases hstatus : claim.status with
  | active => rfl
  | consumed =>
    obtain ⟨record, hrecord, hresolved⟩ := h.consumed candidateId claim hclaim hstatus
    rw [statusOf, hrecord, Option.map_some] at hpending
    exact absurd (Option.some.inj hpending) hresolved

theorem Begun.effect {candidateId taskId : String} (h : Begun store candidateId taskId)
    (hsound : Sound store) (heffect : Effect ids store call next) :
    Begun next candidateId taskId := by
  obtain ⟨claim, hclaim, hphase, htask⟩ := h
  cases heffect with
  | rest tasks goals workstreams => exact ⟨claim, hclaim, hphase, htask⟩
  | create hcall hcontrol hcreation => cases hcreation <;> exact ⟨claim, hclaim, hphase, htask⟩
  | @settle settledId candidate settled claims tasks outbox hcandidate hpending hproposal hid
      hgeneration hsettled hclaims hpermitted =>
    rcases hclaims with rfl | ⟨old, hold, rfl⟩
    · exact ⟨claim, hclaim, hphase, htask⟩
    · unfold Begun
      simp only [Table.get_set]
      split_ifs with hsame
      · subst hsame
        obtain rfl : claim = old := Option.some.inj (hclaim.symm.trans hold)
        exact ⟨_, rfl, hphase, htask⟩
      · exact ⟨claim, hclaim, hphase, htask⟩
  | @lease leasedId candidate leased hcandidate hpending hactive hkept =>
    unfold Begun
    simp only [Table.get_set]
    split_ifs with hsame
    · subst hsame
      have hstatus : claim.status = .active := by
        apply hsound.active hclaim
        rw [statusOf, hcandidate, Option.map_some, hpending]
      obtain ⟨hbegun, hreserved⟩ := hkept claim hclaim hstatus hphase
      exact ⟨leased, rfl, hbegun, hreserved.trans htask⟩
    · exact ⟨claim, hclaim, hphase, htask⟩

/-! ### Acceptances -/

/-- A call accepted the candidate, as its receipt says. -/
def accepts (candidateId : String) : CandidateCall × CandidateReply → Bool
  | (.resolveTask resolvedId _ _ _, .resolved receipt) =>
    resolvedId == candidateId && receipt.newlyResolved
  | _ => false

/-- What a call to accept the candidate does to its task: nothing unless it accepts, and then,
where the candidate proposes a task, the task of the id alone is written or there already. -/
def WritesItsTask (ids : IdScheme) (store : CandidateStore) (candidateId taskId : String)
    (call : CandidateCall) : Prop :=
  let answer := (candidateStore ids).step store call
  (accepts candidateId (call, answer.2) = false → answer.1.tasks = store.tasks) ∧
    (accepts candidateId (call, answer.2) = true → ∀ candidate taskChange,
      store.candidates.get candidateId = some candidate →
        candidate.proposal.change = .createTask taskChange →
          (∃ receipt, answer.2 = .resolved receipt ∧ receipt.taskId = some taskId) ∧
          (∀ other, other ≠ taskId → answer.1.tasks.get other = store.tasks.get other) ∧
          ∃ task, answer.1.tasks.get taskId = some task ∧ task.candidateId = some candidateId)

/-- A call to accept the candidate leaves the store as it is, or accepts it from pending. -/
theorem resolveTask_step (ids : IdScheme) (store : CandidateStore) (candidateId : String)
    (accountGeneration : ℤ) (expectedTaskLinks : Option (Option String × Option String)) (now : ℚ) :
    let call := CandidateCall.resolveTask candidateId accountGeneration expectedTaskLinks now
    let answer := (candidateStore ids).step store call
    (accepts candidateId (call, answer.2) = false ∧ answer.1 = store) ∨
      ∃ candidate taskId receipt, accepts candidateId (call, answer.2) = true ∧
        store.candidates.get candidateId = some candidate ∧ candidate.status = .pending ∧
        answer.1.statusOf candidateId = some .accepted ∧
        TaskWritten ids store candidate candidateId store.controlGeneration taskId
          answer.1.tasks ∧
        answer.2 = .resolved receipt ∧ receipt.taskId = some taskId := by
  intro call answer
  have hanswer : answer = store.commit .resolved
    (store.resolveTaskCandidate ids candidateId accountGeneration expectedTaskLinks now) := rfl
  rw [hanswer]
  cases hresult : store.resolveTaskCandidate ids candidateId accountGeneration expectedTaskLinks
      now with
  | error error => exact .inl ⟨rfl, rfl⟩
  | ok result =>
    obtain ⟨next, receipt⟩ := result
    obtain ⟨rfl, ⟨rfl, hknown⟩ |
        ⟨candidate, taskId, tasks, hcandidate, hpending, -, hwritten, rfl, rfl⟩⟩ :=
      resolveTaskCandidate_ok hresult
    · refine .inl ⟨?_, rfl⟩
      simp [commit, accepts, call, hknown]
    · refine .inr ⟨candidate, taskId, _, ?_, hcandidate, hpending, ?_, hwritten, rfl, rfl⟩
      · simp [commit, accepts, call, newReceipt]
      · simp [commit, accept, statusOf, settle]

theorem writesItsTask (hsound : Sound store) (candidateId : String) (accountGeneration : ℤ)
    (expectedTaskLinks : Option (Option String × Option String)) (now : ℚ) :
    WritesItsTask ids store candidateId
      (ids.taskIdForCandidate store.controlGeneration candidateId)
      (.resolveTask candidateId accountGeneration expectedTaskLinks now) := by
  unfold WritesItsTask
  rcases resolveTask_step ids store candidateId accountGeneration expectedTaskLinks now with
    ⟨hquiet, hsame⟩ | ⟨candidate, taskId, receipt, haccepts, hcandidate, -, -, hwritten, hreply,
      htask⟩
  · refine ⟨fun _ => by rw [hsame], ?_⟩
    intro haccepts
    rw [hquiet] at haccepts
    cases haccepts
  · refine ⟨?_, ?_⟩
    · intro hquiet
      rw [haccepts] at hquiet
      cases hquiet
    · intro _ other taskChange hother hchange
      obtain rfl : candidate = other := Option.some.inj (hcandidate.symm.trans hother)
      obtain ⟨rfl, hstored⟩ := hwritten taskChange hchange
      refine ⟨⟨receipt, hreply, htask⟩, ?_⟩
      rcases hstored with ⟨hkept, task, hget, hid⟩ | ⟨resolvedAt, hset⟩
      · rw [hkept]
        exact ⟨fun _ _ => rfl, task, hget, hid⟩
      · rw [hset]
        refine ⟨fun _ hne => by rw [Table.get_set, if_neg hne], _,
          by rw [Table.get_set, if_pos rfl], ?_⟩
        rw [taskCreateStorage, (hsound.keyed _ _ hcandidate).1]

end CandidateStore

open CandidateStore

/-! ### Runs -/

section runs
variable {ids : IdScheme} {store : CandidateStore}

theorem sound_run (ids : IdScheme) (h : Sound store) (calls : List CandidateCall) :
    Sound ((candidateStore ids).state store calls) :=
  Machine.invariant (fun store call hsound => hsound.effect (effect_step ids store call)) h calls

theorem control_run (ids : IdScheme) (store : CandidateStore) (calls : List CandidateCall) :
    ((candidateStore ids).state store calls).controlGeneration = store.controlGeneration :=
  Machine.invariant (I := fun s => s.controlGeneration = store.controlGeneration)
    (fun s call hs => (effect_step ids s call).control.trans hs) rfl calls

theorem sole_run {clock : ℚ} (hsound : Sound store) (h : Sole ids store clock)
    (calls : List CandidateCall) (hclock : ∀ call ∈ calls, CreatesBy clock call) :
    Sole ids ((candidateStore ids).state store calls) clock :=
  (Machine.invariant_of_mem (I := fun s => Sound s ∧ Sole ids s clock) (CreatesBy clock)
    (fun s call hs hcall => ⟨hs.1.effect (effect_step ids s call),
      hs.2.effect hs.1 hcall (effect_step ids s call)⟩) ⟨hsound, h⟩ calls hclock).2

theorem status_run {candidateId : String} {status : CandidateStatus}
    (hstatus : store.statusOf candidateId = some status) (hresolved : status ≠ .pending)
    (calls : List CandidateCall) :
    ((candidateStore ids).state store calls).statusOf candidateId = some status :=
  Machine.invariant (I := fun s => s.statusOf candidateId = some status)
    (fun s call hs => (effect_step ids s call).status_stays hs hresolved) hstatus calls

theorem alias_run {keyHash : String} {known : IdempotencyAlias}
    (hknown : store.aliases.get keyHash = some known) (calls : List CandidateCall) :
    ((candidateStore ids).state store calls).aliases.get keyHash = some known :=
  Machine.invariant (I := fun s => s.aliases.get keyHash = some known)
    (fun s call hs => (effect_step ids s call).alias_stays hs) hknown calls

theorem begun_run {candidateId taskId : String} (hsound : Sound store)
    (h : Begun store candidateId taskId) (calls : List CandidateCall) :
    Begun ((candidateStore ids).state store calls) candidateId taskId :=
  (Machine.invariant (I := fun s => Sound s ∧ Begun s candidateId taskId)
    (fun s call hs => ⟨hs.1.effect (effect_step ids s call),
      hs.2.effect hs.1 (effect_step ids s call)⟩) ⟨hsound, h⟩ calls).2

/-- A creation that answered leaves an alias from its key to its answer for the rest of the run. -/
theorem created_run (hsound : Sound store) {proposal : CandidateCreate} {idempotencyKey : String}
    {accountGeneration : ℤ} {now : ℚ} {record : CandidateRecord} {calls : List CandidateCall}
    (h : (.create proposal idempotencyKey accountGeneration now, .created record) ∈
      (candidateStore ids).trace store calls) :
    accountGeneration = store.controlGeneration ∧
      ∃ known, ((candidateStore ids).state store calls).aliases.get
          (ids.keyHash store.controlGeneration idempotencyKey) = some known ∧
        known.candidateId = record.candidateId := by
  induction calls generalizing store with
  | nil => cases h
  | cons call calls ih =>
    have heffect := effect_step ids store call
    rw [Machine.trace_cons] at h
    rcases List.mem_cons.mp h with hhead | htail
    · obtain ⟨rfl, hreply⟩ := Prod.mk.inj hhead
      simp only [candidateStore] at hreply
      cases hresult : store.createCandidate ids proposal idempotencyKey accountGeneration now with
      | error error =>
        rw [hresult] at hreply
        cases hreply
      | ok result =>
        obtain ⟨next, answer⟩ := result
        rw [hresult] at hreply
        cases hreply
        obtain ⟨rfl, hcreation⟩ := createCandidate_ok hresult
        obtain ⟨known, hknown, hid⟩ := hcreation.alias hsound
        refine ⟨rfl, known, ?_, hid⟩
        have hnext : ((candidateStore ids).step store (.create proposal idempotencyKey
            store.controlGeneration now)).1 = next := by
          simp only [candidateStore, hresult]
          rfl
        rw [Machine.state_cons, hnext]
        exact alias_run hknown calls
    · obtain ⟨hgeneration, known, hknown, hid⟩ := ih (hsound.effect heffect) htail
      rw [heffect.control] at hgeneration hknown
      exact ⟨hgeneration, known, hknown, hid⟩

/-- A candidate that is resolved is not accepted again, and is accepted from pending once. -/
theorem countP_accepts_le_one (hsound : Sound store) (candidateId : String)
    (calls : List CandidateCall) :
    ((candidateStore ids).trace store calls).countP (accepts candidateId) ≤ 1 := by
  have hcases : ∀ s call, accepts candidateId (call, ((candidateStore ids).step s call).2) = true →
      s.statusOf candidateId = some .pending ∧
        ((candidateStore ids).step s call).1.statusOf candidateId = some .accepted := by
    intro s call haccepts
    cases call with
    | resolveTask resolvedId accountGeneration expectedTaskLinks now =>
      have hid : resolvedId = candidateId := by
        cases hreply : ((candidateStore ids).step s
            (.resolveTask resolvedId accountGeneration expectedTaskLinks now)).2 with
        | resolved receipt =>
          rw [hreply, accepts, Bool.and_eq_true, beq_iff_eq] at haccepts
          exact haccepts.1
        | created candidate => simp [hreply, accepts] at haccepts
        | reconciled candidate => simp [hreply, accepts] at haccepts
        | claimed token => simp [hreply, accepts] at haccepts
        | begun reservation => simp [hreply, accepts] at haccepts
        | edited => simp [hreply, accepts] at haccepts
        | failed error => simp [hreply, accepts] at haccepts
      subst hid
      rcases resolveTask_step ids s resolvedId accountGeneration expectedTaskLinks now with
        ⟨hquiet, -⟩ | ⟨candidate, -, -, -, hcandidate, hpending, haccepted, -⟩
      · rw [hquiet] at haccepts
        cases haccepts
      · refine ⟨?_, haccepted⟩
        rw [statusOf, hcandidate, Option.map_some, hpending]
    | create proposal idempotencyKey accountGeneration now => cases haccepts
    | resolveWithoutMutation resolvedId status reason accountGeneration now => cases haccepts
    | reconcileMigrated resolvedId status accountGeneration resultTaskId reason resolvedAt
        claimToken => cases haccepts
    | claimLegacyPromotion claimedId accountGeneration now leaseSeconds resumeActiveClaim token =>
      cases haccepts
    | beginLegacyPromotion claimedId accountGeneration claimToken resultTaskId
        preferredExistingTaskId legacyMutationAlreadyCommitted now leaseSeconds => cases haccepts
    | edit tasks goals workstreams => cases haccepts
  apply Machine.countP_trace_le_one (I := Sound)
    (fun s => s.statusOf candidateId = some .accepted)
  · exact fun s call hs => hs.effect (effect_step ids s call)
  · exact fun s call _ hs => (effect_step ids s call).status_stays hs (by decide)
  · exact fun s call _ haccepts => (hcases s call haccepts).2
  · intro s call _ hs
    cases haccepts : accepts candidateId (call, ((candidateStore ids).step s call).2) with
    | false => rfl
    | true =>
      rw [(hcases s call haccepts).1] at hs
      cases hs
  · exact hsound

/-- What a call that resolves a candidate is, where a promotion has begun on it. -/
theorem reconciles_of_begun (hsound : Sound store) {candidateId : String} {claim : ResolutionClaim}
    {taskId : String} {call : CandidateCall}
    (hclaim : store.resolutionClaims.get candidateId = some claim)
    (hbegun : claim.phase = .mutationStarted) (htask : claim.resultTaskId = some taskId)
    (hpending : store.statusOf candidateId = some .pending)
    (hresolved : ((candidateStore ids).step store call).1.statusOf candidateId ≠ some .pending) :
    ∃ accountGeneration reason resolvedAt,
      call = .reconcileMigrated candidateId .accepted accountGeneration (some taskId) reason
        resolvedAt (some claim.claimToken) := by
  rcases (effect_step ids store call).status candidateId with hnone | hsame | ⟨-, hpermitted⟩
  · rw [hpending] at hnone
    cases hnone
  · rw [hsame] at hresolved
    exact absurd hpending hresolved
  · rw [← htask]
    exact hpermitted claim hclaim (hsound.active hclaim hpending) hbegun

end runs

/-- What the calls of a run come to: a key names one candidate; no two open suggestions have one
semantic claim, at any clock value that no creation has passed; a candidate that is resolved stays
so; it is accepted once, and its task is written then under its own id; a promotion that has begun
keeps its task, and the call that resolves its candidate is the reconciliation with that task and
the token of the lease. -/
structure ResolvedOnce (ids : IdScheme) (start : CandidateStore) (calls : List CandidateCall) :
    Prop where
  oneCandidate : ∀ idempotencyKey proposal accountGeneration now record proposal'
    accountGeneration' now' record',
    (.create proposal idempotencyKey accountGeneration now, .created record) ∈
      (candidateStore ids).trace start calls →
    (.create proposal' idempotencyKey accountGeneration' now', .created record') ∈
      (candidateStore ids).trace start calls → record.candidateId = record'.candidateId
  oneSuggestion : ∀ before after clock claimId a b, calls = before ++ after →
    (∀ call ∈ before, CreatesBy clock call) →
    Suggested ids ((candidateStore ids).state start before) clock claimId a →
    Suggested ids ((candidateStore ids).state start before) clock claimId b → a = b
  resolvedStays : ∀ before after candidateId status, calls = before ++ after →
    ((candidateStore ids).state start before).statusOf candidateId = some status →
    status ≠ .pending →
    ((candidateStore ids).state start calls).statusOf candidateId = some status
  acceptedOnce : ∀ candidateId,
    ((candidateStore ids).trace start calls).countP (accepts candidateId) ≤ 1
  ownTask : ∀ before after candidateId accountGeneration expectedTaskLinks now,
    calls = before ++ .resolveTask candidateId accountGeneration expectedTaskLinks now :: after →
    WritesItsTask ids ((candidateStore ids).state start before) candidateId
      (ids.taskIdForCandidate start.controlGeneration candidateId)
      (.resolveTask candidateId accountGeneration expectedTaskLinks now)
  reserved : ∀ before call after candidateId accountGeneration claimToken resultTaskId
    preferredExistingTaskId legacyMutationAlreadyCommitted now leaseSeconds reservation,
    calls = before ++ call :: after →
    call = .beginLegacyPromotion candidateId accountGeneration claimToken resultTaskId
      preferredExistingTaskId legacyMutationAlreadyCommitted now leaseSeconds →
    ((candidateStore ids).step ((candidateStore ids).state start before) call).2 =
      .begun reservation →
    ∀ between rest, after = between ++ rest →
      Begun ((candidateStore ids).state start (before ++ call :: between)) candidateId
        reservation.taskId
  fenced : ∀ before call after candidateId claim taskId, calls = before ++ call :: after →
    ((candidateStore ids).state start before).resolutionClaims.get candidateId = some claim →
    claim.phase = .mutationStarted → claim.resultTaskId = some taskId →
    ((candidateStore ids).state start before).statusOf candidateId = some .pending →
    ((candidateStore ids).state start (before ++ [call])).statusOf candidateId ≠ some .pending →
    ∃ accountGeneration reason resolvedAt,
      call = .reconcileMigrated candidateId .accepted accountGeneration (some taskId) reason
        resolvedAt (some claim.claimToken)

/-- The user's documents before the first candidate. -/
def emptyStore (control : Option ℤ) (tasks : Table TaskDoc) (goals : Table GoalDoc)
    (workstreams : Table WorkstreamDoc) : CandidateStore :=
  { control, tasks, goals, workstreams }

theorem resolvedOnce (ids : IdScheme) (control : Option ℤ) (tasks : Table TaskDoc)
    (goals : Table GoalDoc) (workstreams : Table WorkstreamDoc) (calls : List CandidateCall) :
    ResolvedOnce ids (emptyStore control tasks goals workstreams) calls := by
  have hsound : Sound (emptyStore control tasks goals workstreams) := by
    constructor
    · intro candidateId record hrecord
      cases hrecord
    · intro claimId claim hclaim
      cases hclaim
    · intro candidateId claim hclaim
      cases hclaim
  have hsole : ∀ clock, Sole ids (emptyStore control tasks goals workstreams) clock := by
    intro clock candidateId record claimId hrecord
    cases hrecord
  constructor
  · intro idempotencyKey proposal accountGeneration now record proposal' accountGeneration' now'
      record' hfirst hsecond
    obtain ⟨-, known, hknown, hid⟩ := created_run hsound hfirst
    obtain ⟨-, known', hknown', hid'⟩ := created_run hsound hsecond
    obtain rfl : known = known' := Option.some.inj (hknown.symm.trans hknown')
    rw [← hid, ← hid']
  · intro before after clock claimId a b _ hclock ha hb
    exact (sole_run hsound (hsole clock) before hclock).eq_of_suggested ha hb
  · intro before after candidateId status hsplit hstatus hresolved
    rw [hsplit, Machine.state_append]
    exact status_run hstatus hresolved after
  · exact fun candidateId => countP_accepts_le_one hsound candidateId calls
  · intro before after candidateId accountGeneration expectedTaskLinks now _
    rw [← control_run ids _ before]
    exact writesItsTask (sound_run ids hsound before) candidateId accountGeneration
      expectedTaskLinks now
  · intro before call after candidateId accountGeneration claimToken resultTaskId
      preferredExistingTaskId legacyMutationAlreadyCommitted now leaseSeconds reservation _ hcall
      hreply between rest _
    have hreached := sound_run ids hsound before
    have hbegun : Begun ((candidateStore ids).step ((candidateStore ids).state
        (emptyStore control tasks goals workstreams) before) call).1 candidateId
          reservation.taskId := by
      subst hcall
      simp only [candidateStore] at hreply ⊢
      generalize hresult : CandidateStore.beginCandidateLegacyPromotion _ candidateId
        accountGeneration claimToken resultTaskId preferredExistingTaskId
        legacyMutationAlreadyCommitted now leaseSeconds = result at hreply ⊢
      cases result with
      | error error => cases hreply
      | ok result =>
        cases hreply
        exact (beginCandidateLegacyPromotion_ok hresult).1
    rw [Machine.state_append, Machine.state_cons]
    exact begun_run (hreached.effect (effect_step ids _ call)) hbegun between
  · intro before call after candidateId claim taskId _ hclaim hphase htask hpending hresolved
    rw [Machine.state_append] at hresolved
    exact reconciles_of_begun (sound_run ids hsound before) hclaim hphase htask hpending hresolved

end Omi.Candidates
