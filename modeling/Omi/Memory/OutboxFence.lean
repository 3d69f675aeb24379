import Omi.Memory.OutboxWorker

/-! Leases of the outbox and what a delivered event promises: epochs grow with every claim, a
lease settles at most once and only while it is the current one, and an event marked as
projected was re-read after its last provider write with an unchanged fence. -/
namespace Omi.Memory
open Omi.Foundation

/-! ### Epochs -/

/-- The epochs of the claims, in their order. -/
def claimedEpochs (log : List OutboxEntry) : List ℤ :=
  log.filterMap fun entry =>
    match entry with
    | .claimed _ epoch => some epoch
    | _ => none

/-- The epochs of the acknowledgements that took effect. -/
def settledEpochs (log : List OutboxEntry) : List ℤ :=
  log.filterMap fun entry =>
    match entry with
    | .settled _ epoch _ => some epoch
    | _ => none

namespace OutboxWorld

def currentEpoch (world : OutboxWorld) : ℤ := (world.document.map leaseEpochOf).getD 0

/-- Epochs in use lie at or below that of the document, which is unsettled while it is being
processed. -/
structure EpochSound (world : OutboxWorld) : Prop where
  increasing : (claimedEpochs world.log).Pairwise (· < ·)
  claimed_le : ∀ epoch ∈ claimedEpochs world.log, epoch ≤ world.currentEpoch
  once : (settledEpochs world.log).Nodup
  settled_le : ∀ epoch ∈ settledEpochs world.log, epoch ≤ world.currentEpoch
  unsettled : ∀ raw, world.document = some raw → raw.get "status" = .str "processing" →
    leaseEpochOf raw ∉ settledEpochs world.log

end OutboxWorld

section patches
variable {raw : PyDict}

theorem safeNonnegativeInt_nonneg (value : PyVal) : 0 ≤ safeNonnegativeInt value := by
  unfold safeNonnegativeInt
  cases hint : value.int?.filter (0 ≤ ·) with
  | none => exact le_rfl
  | some i =>
    obtain ⟨-, hpos⟩ := Option.filter_eq_some_iff.1 hint
    simpa using hpos

theorem safeNonnegativeInt_int {i : ℤ} (h : 0 ≤ i) : safeNonnegativeInt (.int i) = i := by
  simp [safeNonnegativeInt, PyVal.int?, Option.filter, h]

/-- A patch of the worker ends the processing and leaves the epoch. -/
inductive IsPatch : PyDict → Prop where
  | delivered (now : ℤ) (outcome : ProcessOutcome) : IsPatch (deliveredPatch now outcome)
  | failed (config : OutboxWorkerConfig) (now : ℤ) (lease : LeasedMemoryOutboxEvent)
      (errorCode : String) : IsPatch (failurePatch config now lease errorCode)

theorem status_delivered (now : ℤ) (outcome : ProcessOutcome) :
    (raw.update (deliveredPatch now outcome)).get "status" = .str "delivered" := by
  simp [PyDict.update, deliveredPatch]

theorem status_failed (raw : PyDict) (config : OutboxWorkerConfig) (now : ℤ)
    (lease : LeasedMemoryOutboxEvent) (errorCode : String) :
    (raw.update (failurePatch config now lease errorCode)).get "status" = .str "dead_letter" ∨
      (raw.update (failurePatch config now lease errorCode)).get "status" =
        .str "retryable_failure" := by
  unfold failurePatch
  dsimp only
  split_ifs
  · left
    simp [PyDict.update]
  · right
    simp [PyDict.update]

theorem IsPatch.ends {patch : PyDict} (h : IsPatch patch) :
    (raw.update patch).get "status" ≠ .str "processing" := by
  cases h with
  | delivered now outcome =>
    rw [status_delivered]
    decide
  | failed config now lease errorCode =>
    rcases status_failed raw config now lease errorCode with hstatus | hstatus
    · rw [hstatus]
      decide
    · rw [hstatus]
      decide

theorem IsPatch.epoch {patch : PyDict} (h : IsPatch patch) :
    leaseEpochOf (raw.update patch) = leaseEpochOf raw := by
  unfold leaseEpochOf
  cases h with
  | delivered now outcome => simp [PyDict.update, deliveredPatch]
  | failed config now lease errorCode =>
    unfold failurePatch
    dsimp only
    split_ifs <;> simp [PyDict.update]

/-- What a patch marks as projected, it says itself. -/
theorem IsPatch.marks {patch : PyDict} (h : IsPatch patch)
    (hstatus : (raw.update patch).get "status" = .str "delivered") :
    (raw.update patch).get "settled_reason" = patch.get "settled_reason" ∧
      (raw.update patch).get "side_effect_action" = patch.get "side_effect_action" := by
  cases h with
  | delivered now outcome =>
    constructor
    · have hlast : (raw.update (deliveredPatch now outcome)).get "settled_reason" =
          .str outcome.settledReason := by simp [PyDict.update, deliveredPatch]
      exact hlast
    · have hlast : (raw.update (deliveredPatch now outcome)).get "side_effect_action" =
          optionalText outcome.sideEffectAction := by simp [PyDict.update, deliveredPatch]
      exact hlast
  | failed config now lease errorCode =>
    rcases status_failed raw config now lease errorCode with hfailed | hfailed
    · rw [hfailed] at hstatus
      exact absurd (PyVal.str.inj hstatus) (by decide)
    · rw [hfailed] at hstatus
      exact absurd (PyVal.str.inj hstatus) (by decide)

end patches

/-! ### The last write and the read after it -/

def OutboxEntry.writtenBy (worker : ℕ) : OutboxEntry → Prop
  | .wrote writer _ _ => writer = worker
  | _ => False

def Stored.item : Stored MemoryItem → Option MemoryItem
  | .found item => some item
  | .missing | .malformed => none

/-- The write carries the version that the state holds. -/
def Carries (state : AuthoritativeState) (write : ProviderWrite) : Prop :=
  ∃ event uid memoryId useEventCommitId,
    authoritativeWrite event uid memoryId state useEventCommitId = some write

/-- The last provider write of the worker. -/
def LastWrite (log : List OutboxEntry) (worker : ℕ) (state : AuthoritativeState)
    (write : ProviderWrite) : Prop :=
  Carries state write ∧ ∃ before after, log = before ++ .wrote worker state write :: after ∧
    ∀ entry ∈ after, ¬ entry.writtenBy worker

/-- After its last write the worker re-read the row: what the store held then has the fence of
the version written. -/
def Verified (log : List OutboxEntry) (worker : ℕ) (write : ProviderWrite) : Prop :=
  ∃ state observed current before middle after,
    log = before ++ .wrote worker state write ::
      (middle ++ .reread worker observed current :: after) ∧
    (∀ entry ∈ middle ++ .reread worker observed current :: after, ¬ entry.writtenBy worker) ∧
    Carries state write ∧ observed.sameFence state ∧
    current.item.map itemFence = state.item.map itemFence

/-- A patch that says projected names a write that was verified. -/
def PatchTruthful (log : List OutboxEntry) (worker : ℕ) (patch : PyDict) : Prop :=
  patch.get "settled_reason" = .str "projected" →
    ∃ write, Verified log worker write ∧ patch.get "side_effect_action" = .str write.action

/-- What the log says about the stage of a worker. -/
def StageTruthful (log : List OutboxEntry) (worker : ℕ) : Stage → Prop
  | .readDeletionFence _ (.verify _ state write) => LastWrite log worker state write
  | .readControl _ (.verify _ state write) _ => LastWrite log worker state write
  | .readItem _ (.verify _ state write) _ _ => LastWrite log worker state write
  | .settling patch => IsPatch patch ∧ PatchTruthful log worker patch
  | .writing _ _ state write => Carries state write
  | _ => True

theorem AuthoritativeState.itemFence_of_sameFence {observed state : AuthoritativeState}
    (h : observed.sameFence state) : observed.item.map itemFence = state.item.map itemFence := by
  unfold AuthoritativeState.sameFence at h
  cases hobserved : observed.item with
  | none =>
    cases hstate : state.item with
    | none => rfl
    | some written => simp [hobserved, hstate] at h
  | some current =>
    cases hstate : state.item with
    | none => simp [hobserved, hstate] at h
    | some written =>
      simp only [hobserved, hstate, Bool.and_eq_true, decide_eq_true_eq] at h
      exact congrArg some h.2.1

section log
variable {log : List OutboxEntry} {worker : ℕ} {entries : List OutboxEntry}
  (hentries : ∀ entry ∈ entries, ¬ entry.writtenBy worker)
include hentries

theorem LastWrite.append {state : AuthoritativeState} {write : ProviderWrite}
    (h : LastWrite log worker state write) : LastWrite (log ++ entries) worker state write := by
  obtain ⟨hcarries, before, after, rfl, hafter⟩ := h
  refine ⟨hcarries, before, after ++ entries, by simp, ?_⟩
  intro entry hmem
  rcases List.mem_append.1 hmem with hold | hnew
  · exact hafter entry hold
  · exact hentries entry hnew

theorem Verified.append {write : ProviderWrite} (h : Verified log worker write) :
    Verified (log ++ entries) worker write := by
  obtain ⟨state, observed, current, before, middle, after, rfl, hafter, hversion⟩ := h
  refine ⟨state, observed, current, before, middle, after ++ entries, by simp, ?_, hversion⟩
  intro entry hmem
  have hsplit : middle ++ .reread worker observed current :: (after ++ entries) =
      (middle ++ .reread worker observed current :: after) ++ entries := by simp
  rw [hsplit] at hmem
  rcases List.mem_append.1 hmem with hold | hnew
  · exact hafter entry hold
  · exact hentries entry hnew

theorem StageTruthful.append {stage : Stage} (h : StageTruthful log worker stage) :
    StageTruthful (log ++ entries) worker stage := by
  cases stage with
  | readDeletionFence delivery reading =>
    cases reading with
    | initial => trivial
    | verify attempt state write => exact LastWrite.append hentries h
  | readControl delivery reading blocked =>
    cases reading with
    | initial => trivial
    | verify attempt state write => exact LastWrite.append hentries h
  | readItem delivery reading blocked accountGeneration =>
    cases reading with
    | initial => trivial
    | verify attempt state write => exact LastWrite.append hentries h
  | settling patch =>
    refine ⟨h.1, fun hreason => ?_⟩
    obtain ⟨write, hverified, haction⟩ := h.2 hreason
    exact ⟨write, hverified.append hentries, haction⟩
  | writing delivery attempt state write => exact h
  | _ => trivial

end log

/-! ### Where the stages lead -/

section stages
variable {log : List OutboxEntry} {worker : ℕ} {process : OutboxProcess}

theorem stageTruthful_fail (errorCode : String) :
    StageTruthful log worker (process.fail errorCode) := by
  refine ⟨.failed _ _ _ _, fun hreason => ?_⟩
  have hnone : (failurePatch process.config process.now process.lease errorCode).get
      "settled_reason" = .none := by
    unfold failurePatch
    dsimp only
    split_ifs <;> rfl
  rw [hnone] at hreason
  cases hreason

theorem stageTruthful_deliver {outcome : ProcessOutcome} (h : outcome.settledReason ≠ "projected") :
    StageTruthful log worker (process.deliver outcome) := by
  refine ⟨.delivered _ _, fun hreason => ?_⟩
  have htext : (deliveredPatch process.now outcome).get "settled_reason" =
      .str outcome.settledReason := rfl
  rw [htext] at hreason
  exact absurd (PyVal.str.inj hreason) h

theorem stageTruthful_projected {write : ProviderWrite} (h : Verified log worker write) :
    StageTruthful log worker (process.deliver
      { settledReason := "projected", sideEffectAction := some write.action }) :=
  ⟨.delivered _ _, fun _ => ⟨write, h, rfl⟩⟩

theorem stageTruthful_writeNext (delivery : Delivery) (attempt : ℕ) (state : AuthoritativeState)
    (useEventCommitId : Bool) :
    StageTruthful log worker (process.writeNext delivery attempt state useEventCommitId) := by
  unfold OutboxProcess.writeNext
  cases hwrite : authoritativeWrite delivery.event process.requestedUid delivery.memoryId state
      useEventCommitId with
  | none => exact stageTruthful_fail _
  | some write => exact ⟨_, _, _, _, hwrite⟩

theorem stageTruthful_failRead (reading : Reading) (errorCode : String) :
    StageTruthful log worker (process.failRead reading errorCode) := by
  cases reading with
  | initial => exact stageTruthful_fail _
  | verify attempt written write => exact stageTruthful_fail _

theorem stageTruthful_start (env : OutboxEnv) :
    StageTruthful log worker (process.startProcessing env) := by
  unfold OutboxProcess.startProcessing
  cases env.parseEvent process.lease.rawEvent with
  | none => exact stageTruthful_fail _
  | some event =>
    dsimp only
    split_ifs
    · exact stageTruthful_fail _
    · exact stageTruthful_fail _
    · exact stageTruthful_fail _
    · trivial
    · exact stageTruthful_fail _
    · exact stageTruthful_fail _
    · cases event.memoryId with
      | none => exact stageTruthful_fail _
      | some memoryId =>
        dsimp only
        split_ifs
        · exact stageTruthful_fail _
        · cases (event.payload.get "item_revision").int? with
          | none => exact stageTruthful_fail _
          | some revision =>
            cases (event.payload.get "content_hash").str? with
            | none => exact stageTruthful_fail _
            | some contentHash =>
              dsimp only
              split_ifs
              · exact stageTruthful_fail _
              · trivial

theorem stageTruthful_barrier (event : MemoryOutboxEvent) (control : MemoryControlState) :
    StageTruthful log worker (process.deliver (barrierOutcome event control)) := by
  apply stageTruthful_deliver
  unfold barrierOutcome
  split_ifs <;> decide

theorem stageTruthful_initial (delivery : Delivery) (state : AuthoritativeState) :
    StageTruthful log worker (process.decideInitial delivery state) := by
  unfold OutboxProcess.decideInitial
  dsimp only
  split_ifs
  · exact stageTruthful_deliver (by decide)
  · cases state.item with
    | none => exact stageTruthful_writeNext _ _ _ _
    | some item =>
      dsimp only
      split_ifs
      · exact stageTruthful_deliver (by decide)
      · exact stageTruthful_deliver (by decide)
      · exact stageTruthful_deliver (by decide)
      · exact stageTruthful_writeNext _ _ _ _

/-- The verifying read: the outcome is projected only where the fence is the one written. -/
theorem stageTruthful_verified {written : AuthoritativeState} {write : ProviderWrite}
    (h : LastWrite log worker written write) {observed : AuthoritativeState}
    {current : Stored MemoryItem} (hitem : observed.item = current.item) (delivery : Delivery)
    (attempt : ℕ) :
    StageTruthful (log ++ [OutboxEntry.reread worker observed current]) worker
      (process.decideVerified delivery attempt written write observed) := by
  unfold OutboxProcess.decideVerified
  split_ifs with hfence
  · obtain ⟨hcarries, before, after, rfl, hafter⟩ := h
    have hversion : current.item.map itemFence = written.item.map itemFence :=
      hitem ▸ AuthoritativeState.itemFence_of_sameFence hfence
    refine stageTruthful_projected
      ⟨written, observed, current, before, after, [], by simp, ?_, hcarries, hfence, hversion⟩
    intro entry hmem
    rcases List.mem_append.1 hmem with hold | hnew
    · exact hafter entry hold
    · rw [List.mem_singleton.1 hnew]
      exact id
  · exact stageTruthful_writeNext _ _ _ _
  · exact stageTruthful_fail _

end stages

/-! ### Steps -/

namespace OutboxWorld
variable {world : OutboxWorld} {worker : ℕ} {process : OutboxProcess}

/-- What the log says about the workers, and about an event marked as projected. -/
structure Truthful (world : OutboxWorld) : Prop where
  stages : ∀ worker process, world.processes[worker]? = some process →
    StageTruthful world.log worker process.stage
  marked : ∀ raw, world.document = some raw → raw.get "status" = .str "delivered" →
    raw.get "settled_reason" = .str "projected" →
    ∃ before worker epoch patch after write,
      world.log = before ++ .settled worker epoch patch :: after ∧ Verified before worker write ∧
      raw.get "side_effect_action" = .str write.action

theorem processes_moveTo {stage : Stage} {other : ℕ} {moved : OutboxProcess}
    (h : (world.moveTo worker stage).processes[other]? = some moved) :
    (other = worker ∧ moved.stage = stage) ∨
      (other ≠ worker ∧ world.processes[other]? = some moved) := by
  unfold moveTo at h
  rw [List.getElem?_modify] at h
  obtain ⟨process, hget, rfl⟩ := Option.map_eq_some_iff.1 h
  by_cases heq : worker = other
  · rw [if_pos heq]
    exact .inl ⟨heq.symm, rfl⟩
  · rw [if_neg heq]
    exact .inr ⟨Ne.symm heq, hget⟩

/-- A worker moves on, with entries of its own in the log. -/
theorem stages_moveTo (h : Truthful world) {stage : Stage} {entries : List OutboxEntry}
    (hentries : ∀ entry ∈ entries, ∀ other, entry.writtenBy other → other = worker)
    (hstage : StageTruthful (world.log ++ entries) worker stage) (other : ℕ)
    (moved : OutboxProcess) (hmoved : (world.moveTo worker stage).processes[other]? = some moved) :
    StageTruthful (world.log ++ entries) other moved.stage := by
  rcases processes_moveTo hmoved with ⟨rfl, hsame⟩ | ⟨hne, hold⟩
  · rw [hsame]
    exact hstage
  · refine (h.stages other moved hold).append fun entry hmem hwritten => ?_
    exact hne (hentries entry hmem other hwritten)

theorem marked_append (h : Truthful world) (entries : List OutboxEntry) (raw : PyDict)
    (hraw : world.document = some raw) (hstatus : raw.get "status" = .str "delivered")
    (hreason : raw.get "settled_reason" = .str "projected") :
    ∃ before worker epoch patch after write,
      world.log ++ entries = before ++ .settled worker epoch patch :: after ∧
      Verified before worker write ∧ raw.get "side_effect_action" = .str write.action := by
  obtain ⟨before, worker, epoch, patch, after, write, hlog, hverified, haction⟩ :=
    h.marked raw hraw hstatus hreason
  exact ⟨before, worker, epoch, patch, after ++ entries, write, by simp [hlog], hverified, haction⟩

theorem truthful_record (h : Truthful world) {stage : Stage} {entry : OutboxEntry}
    (hentry : ∀ other, entry.writtenBy other → other = worker)
    (hstage : StageTruthful (world.log ++ [entry]) worker stage) :
    Truthful ((world.record entry).moveTo worker stage) where
  stages := stages_moveTo h (fun _ hmem => List.mem_singleton.1 hmem ▸ hentry) hstage
  marked := marked_append h [entry]

theorem truthful_moveTo (h : Truthful world) {stage : Stage}
    (hstage : StageTruthful world.log worker stage) : Truthful (world.moveTo worker stage) where
  stages other moved hmoved := by
    have hsame : world.log ++ [] = world.log := List.append_nil _
    have hkept := stages_moveTo h (fun _ hmem => absurd hmem List.not_mem_nil)
      (hsame.symm ▸ hstage) other moved hmoved
    exact hsame ▸ hkept
  marked := h.marked

/-- A claim takes the next epoch. -/
def claimPatch (config : OutboxWorkerConfig) (now leaseEpoch : ℤ) : PyDict :=
  [("status", .str "processing"), ("lease_owner", .str config.workerId),
    ("lease_epoch", .int leaseEpoch), ("leased_at", .datetime now),
    ("lease_expires_at", .datetime (now + config.leaseSeconds * 1000000)),
    ("updated_at", .datetime now)]

theorem status_claimed (raw : PyDict) (config : OutboxWorkerConfig) (now leaseEpoch : ℤ) :
    (raw.update (claimPatch config now leaseEpoch)).get "status" = .str "processing" := by
  simp [PyDict.update, claimPatch]

theorem epoch_claimed (raw : PyDict) (config : OutboxWorkerConfig) (now : ℤ) {leaseEpoch : ℤ}
    (h : 0 ≤ leaseEpoch) :
    leaseEpochOf (raw.update (claimPatch config now leaseEpoch)) = leaseEpoch := by
  have hget : (raw.update (claimPatch config now leaseEpoch)).get "lease_epoch" =
      .int leaseEpoch := by simp [PyDict.update, claimPatch]
  unfold leaseEpochOf
  rw [hget]
  exact safeNonnegativeInt_int h

theorem claim_cases (env : OutboxEnv) (world : OutboxWorld) (config : OutboxWorkerConfig)
    (requestedUid documentId : String) (now : ℤ) :
    world.claim env config requestedUid documentId now = world ∨
      ∃ raw, world.document = some raw ∧
        world.claim env config requestedUid documentId now =
          { world with
            document := some (raw.update (claimPatch config now (leaseEpochOf raw + 1)))
            processes := world.processes ++ [⟨config, requestedUid, documentId, now,
              ⟨raw, config.workerId, leaseEpochOf raw + 1⟩, .leased⟩]
            log := world.log ++
              [OutboxEntry.claimed world.processes.length (leaseEpochOf raw + 1)] } := by
  unfold claim
  cases hraw : world.document with
  | none => exact .inl rfl
  | some raw =>
    dsimp only
    unfold OutboxEnv.claimEvent
    split_ifs
    · exact .inr ⟨raw, rfl, rfl⟩
    · exact .inl rfl

/-- A verifying read keeps the row that it saw. -/
theorem observe_item {blocked : Bool} {accountGeneration : ℤ} {item : Stored MemoryItem}
    {observed : AuthoritativeState}
    (h : process.observe blocked accountGeneration item = .ok observed) :
    observed.item = item.item := by
  cases item with
  | missing =>
    cases h
    rfl
  | malformed => cases h
  | found item =>
    unfold OutboxProcess.observe at h
    dsimp only at h
    split_ifs at h
    cases h
    rfl

/-- An acknowledgement that takes effect is under the current lease. -/
theorem settle_cases (world : OutboxWorld) (worker : ℕ) (process : OutboxProcess)
    (patch : PyDict) (ok : Bool) :
    world.settle worker process patch ok = world.moveTo worker .settled ∨
      ∃ raw, world.document = some raw ∧ raw.get "status" = .str "processing" ∧
        leaseEpochOf raw = process.lease.leaseEpoch ∧
        world.settle worker process patch ok =
          { world.moveTo worker .settled with
            document := some (raw.update patch)
            log := world.log ++ [OutboxEntry.settled worker process.lease.leaseEpoch patch] } := by
  unfold settle
  cases hack : (world.document.filter fun _ => ok).bind (ackEvent process.lease patch) with
  | none => exact .inl rfl
  | some updated =>
    obtain ⟨raw, hraw, hupdate⟩ := Option.bind_eq_some_iff.1 hack
    have hdocument := (Option.filter_eq_some_iff.1 hraw).1
    unfold ackEvent at hupdate
    split_ifs at hupdate with hguard
    simp only [ne_eq, Bool.or_eq_true, decide_eq_true_eq, not_or, not_not] at hguard
    cases hupdate
    exact .inr ⟨raw, hdocument, hguard.1.1, hguard.2, rfl⟩

theorem truthful_settle (h : Truthful world) {patch : PyDict}
    (hprocess : world.processes[worker]? = some process) (hstage : process.stage = .settling patch)
    (ok : Bool) : Truthful (world.settle worker process patch ok) := by
  obtain ⟨hpatch, htruthful⟩ : IsPatch patch ∧ PatchTruthful world.log worker patch := by
    have hmeans := h.stages worker process hprocess
    rw [hstage] at hmeans
    exact hmeans
  rcases settle_cases world worker process patch ok with hsame | ⟨raw, -, -, -, hsettled⟩
  · rw [hsame]
    exact truthful_moveTo h trivial
  · rw [hsettled]
    constructor
    · exact stages_moveTo h (fun entry hmem other hwritten => by
        rw [List.mem_singleton.1 hmem] at hwritten
        exact hwritten.elim) trivial
    · intro updated hupdated hstatus hreason
      cases Option.some.inj hupdated
      obtain ⟨hsame, haction⟩ := hpatch.marks hstatus
      obtain ⟨write, hverified, hwrite⟩ := htruthful (hsame ▸ hreason)
      exact ⟨world.log, worker, process.lease.leaseEpoch, patch, [], write, rfl, hverified,
        haction.trans hwrite⟩

theorem truthful_advance (h : Truthful world) (env : OutboxEnv)
    (hprocess : world.processes[worker]? = some process) (ok : Bool) :
    Truthful (world.advance env worker process ok) := by
  have hmeans := h.stages worker process hprocess
  unfold advance
  cases hstage : process.stage with
  | leased => exact truthful_moveTo h (stageTruthful_start env)
  | settling patch => exact truthful_settle h hprocess hstage ok
  | settled => exact h
  | writing delivery attempt state write =>
    rw [hstage] at hmeans
    cases ok with
    | false => exact truthful_moveTo h (stageTruthful_fail _)
    | true =>
      refine truthful_record h (fun other hwritten => hwritten.symm) ?_
      exact ⟨hmeans, world.log, [], rfl, fun entry hmem => absurd hmem List.not_mem_nil⟩
  | readControlForBarrier event =>
    cases ok with
    | false => exact truthful_moveTo h (stageTruthful_fail _)
    | true =>
      refine truthful_moveTo h ?_
      unfold readControl
      cases world.store.control with
      | missing => exact stageTruthful_failRead _ _
      | malformed => exact stageTruthful_failRead _ _
      | found control => exact stageTruthful_barrier event control
  | readDeletionFence delivery reading =>
    rw [hstage] at hmeans
    cases ok with
    | false => exact truthful_moveTo h (stageTruthful_fail _)
    | true =>
      refine truthful_moveTo h ?_
      cases reading with
      | initial => trivial
      | verify attempt written write => exact hmeans
  | readControl delivery reading blocked =>
    rw [hstage] at hmeans
    cases ok with
    | false => exact truthful_moveTo h (stageTruthful_fail _)
    | true =>
      refine truthful_moveTo h ?_
      unfold OutboxWorld.readControl
      cases world.store.control with
      | missing => exact stageTruthful_failRead _ _
      | malformed => exact stageTruthful_failRead _ _
      | found control =>
        cases reading with
        | initial => trivial
        | verify attempt written write => exact hmeans
  | readItem delivery reading blocked accountGeneration =>
    rw [hstage] at hmeans
    cases ok with
    | false => exact truthful_moveTo h (stageTruthful_fail _)
    | true =>
      dsimp only [if_true]
      unfold readItem
      cases hobserve : process.observe blocked accountGeneration world.store.item with
      | error code => exact truthful_moveTo h (stageTruthful_failRead _ _)
      | ok observed =>
        cases reading with
        | initial => exact truthful_moveTo h (stageTruthful_initial _ _)
        | verify attempt written write =>
          refine truthful_record h (fun other hwritten => hwritten.elim) ?_
          exact stageTruthful_verified hmeans (observe_item hobserve) delivery attempt

theorem truthful_claim (h : Truthful world) (env : OutboxEnv) (config : OutboxWorkerConfig)
    (requestedUid documentId : String) (now : ℤ) :
    Truthful (world.claim env config requestedUid documentId now) := by
  rcases claim_cases env world config requestedUid documentId now with hsame | ⟨raw, _, hclaimed⟩
  · rw [hsame]
    exact h
  · rw [hclaimed]
    constructor
    · intro other moved hmoved
      have hkept : ∀ entry ∈ [OutboxEntry.claimed world.processes.length (leaseEpochOf raw + 1)],
          ¬ entry.writtenBy other := by
        intro entry hmem hwritten
        rw [List.mem_singleton.1 hmem] at hwritten
        exact hwritten
      rcases lt_or_ge other world.processes.length with hold | hnew
      · have hget : world.processes[other]? = some moved := by
          rwa [List.getElem?_append_left hold] at hmoved
        exact (h.stages other moved hget).append hkept
      · have hget := List.mem_of_getElem? (List.getElem?_append_right hnew ▸ hmoved)
        rw [List.mem_singleton.1 hget]
        trivial
    · intro updated hupdated hstatus
      cases Option.some.inj hupdated
      rw [status_claimed] at hstatus
      exact absurd (PyVal.str.inj hstatus) (by decide)

theorem truthful_step (h : Truthful world) (env : OutboxEnv) (action : OutboxAction) :
    Truthful (world.step env action) := by
  cases action with
  | publish event =>
    unfold step
    dsimp only
    split_ifs
    · refine ⟨h.stages, fun raw hraw hstatus => ?_⟩
      cases Option.some.inj hraw
      exact absurd (PyVal.str.inj hstatus) (by decide)
    · exact h
  | commit store => exact ⟨h.stages, h.marked⟩
  | claim config requestedUid documentId now => exact truthful_claim h env _ _ _ _
  | advance worker ok =>
    unfold step
    dsimp only
    cases hprocess : world.processes[worker]? with
    | none => exact h
    | some process => exact truthful_advance h env hprocess ok

theorem truthful_run (env : OutboxEnv) (store : ProjectionStore) (actions : List OutboxAction) :
    Truthful (actions.foldl (step env) { store := store }) := by
  induction actions using List.reverseRecOn with
  | nil =>
    exact ⟨fun worker process hprocess => absurd hprocess (by simp),
      fun raw hraw => absurd hraw (by simp)⟩
  | append_singleton actions action ih =>
    rw [List.foldl_append]
    exact truthful_step ih env action

/-! ### Epochs along a run -/

/-- A worker that does not settle leaves the document and the leases as they are. -/
theorem advance_quiet (world : OutboxWorld) (worker : ℕ) (env : OutboxEnv) (ok : Bool)
    (hstage : ∀ patch, process.stage ≠ .settling patch) :
    (world.advance env worker process ok).document = world.document ∧
      claimedEpochs (world.advance env worker process ok).log = claimedEpochs world.log ∧
      settledEpochs (world.advance env worker process ok).log = settledEpochs world.log := by
  have hreread : ∀ observed current,
      claimedEpochs (world.log ++ [OutboxEntry.reread worker observed current]) =
        claimedEpochs world.log ∧
      settledEpochs (world.log ++ [OutboxEntry.reread worker observed current]) =
        settledEpochs world.log := by
    intro observed current
    simp [claimedEpochs, settledEpochs]
  have hwrote : ∀ state write,
      claimedEpochs (world.log ++ [OutboxEntry.wrote worker state write]) =
        claimedEpochs world.log ∧
      settledEpochs (world.log ++ [OutboxEntry.wrote worker state write]) =
        settledEpochs world.log := by
    intro state write
    simp [claimedEpochs, settledEpochs]
  unfold advance
  cases hcase : process.stage with
  | settling patch => exact absurd hcase (hstage patch)
  | writing delivery attempt state write =>
    cases ok with
    | false => exact ⟨rfl, rfl, rfl⟩
    | true => exact ⟨rfl, hwrote state write⟩
  | readItem delivery reading blocked accountGeneration =>
    cases ok with
    | false => exact ⟨rfl, rfl, rfl⟩
    | true =>
      dsimp only [if_true]
      unfold readItem
      cases process.observe blocked accountGeneration world.store.item with
      | error code => exact ⟨rfl, rfl, rfl⟩
      | ok observed =>
        cases reading with
        | initial => exact ⟨rfl, rfl, rfl⟩
        | verify attempt written write => exact ⟨rfl, hreread observed world.store.item⟩
  | leased => exact ⟨rfl, rfl, rfl⟩
  | settled => exact ⟨rfl, rfl, rfl⟩
  | _ => cases ok <;> exact ⟨rfl, rfl, rfl⟩

theorem EpochSound.of_same (h : EpochSound world) {next : OutboxWorld}
    (hdocument : next.document = world.document)
    (hclaimed : claimedEpochs next.log = claimedEpochs world.log)
    (hsettled : settledEpochs next.log = settledEpochs world.log) : EpochSound next := by
  have hcurrent : next.currentEpoch = world.currentEpoch := by
    unfold currentEpoch
    rw [hdocument]
  constructor
  · rw [hclaimed]
    exact h.increasing
  · rw [hclaimed, hcurrent]
    exact h.claimed_le
  · rw [hsettled]
    exact h.once
  · rw [hsettled, hcurrent]
    exact h.settled_le
  · rw [hsettled, hdocument]
    exact h.unsettled

theorem epochSound_settle (h : EpochSound world) {patch : PyDict} (hpatch : IsPatch patch)
    (ok : Bool) : EpochSound (world.settle worker process patch ok) := by
  rcases settle_cases world worker process patch ok with
    hsame | ⟨raw, hraw, hprocessing, hepoch, hsettled⟩
  · rw [hsame]
    exact h.of_same rfl rfl rfl
  · have hcurrent : world.currentEpoch = process.lease.leaseEpoch := by
      simp [currentEpoch, hraw, hepoch]
    have hlast : leaseEpochOf (raw.update patch) = process.lease.leaseEpoch :=
      hpatch.epoch.trans hepoch
    have hnew : process.lease.leaseEpoch ∉ settledEpochs world.log :=
      hepoch ▸ h.unsettled raw hraw hprocessing
    have hlog : settledEpochs
        (world.log ++ [OutboxEntry.settled worker process.lease.leaseEpoch patch]) =
        settledEpochs world.log ++ [process.lease.leaseEpoch] := by
      simp [settledEpochs]
    have hclaims : claimedEpochs
        (world.log ++ [OutboxEntry.settled worker process.lease.leaseEpoch patch]) =
        claimedEpochs world.log := by
      simp [claimedEpochs]
    rw [hsettled]
    constructor
    · exact hclaims.symm ▸ h.increasing
    · intro epoch hmem
      have hle := h.claimed_le epoch (hclaims ▸ hmem)
      simp only [currentEpoch, Option.map_some, Option.getD_some, hlast]
      exact hcurrent ▸ hle
    · rw [hlog, List.nodup_append]
      refine ⟨h.once, List.nodup_singleton _, ?_⟩
      intro epoch hmem last hlastMem heq
      rw [List.mem_singleton.1 hlastMem] at heq
      exact hnew (heq ▸ hmem)
    · intro epoch hmem
      rw [hlog] at hmem
      simp only [currentEpoch, Option.map_some, Option.getD_some, hlast]
      rcases List.mem_append.1 hmem with hold | hlastMem
      · exact hcurrent ▸ h.settled_le epoch hold
      · exact (List.mem_singleton.1 hlastMem).le
    · intro updated hupdated hstatus
      cases Option.some.inj hupdated
      exact absurd hstatus hpatch.ends

theorem epochSound_claim (h : EpochSound world) (env : OutboxEnv) (config : OutboxWorkerConfig)
    (requestedUid documentId : String) (now : ℤ) :
    EpochSound (world.claim env config requestedUid documentId now) := by
  rcases claim_cases env world config requestedUid documentId now with
    hsame | ⟨raw, hraw, hclaimed⟩
  · rw [hsame]
    exact h
  · have hcurrent : world.currentEpoch = leaseEpochOf raw := by simp [currentEpoch, hraw]
    have hpos : 0 ≤ leaseEpochOf raw + 1 := by
      have hnonneg := safeNonnegativeInt_nonneg (raw.get "lease_epoch")
      unfold leaseEpochOf
      omega
    have hepoch := epoch_claimed raw config now hpos
    have hclaims : ∀ worker, claimedEpochs
        (world.log ++ [OutboxEntry.claimed worker (leaseEpochOf raw + 1)]) =
          claimedEpochs world.log ++ [leaseEpochOf raw + 1] := by
      intro worker
      simp [claimedEpochs]
    have hsettled : ∀ worker, settledEpochs
        (world.log ++ [OutboxEntry.claimed worker (leaseEpochOf raw + 1)]) =
        settledEpochs world.log := by
      intro worker
      simp [settledEpochs]
    have hbelow : ∀ epoch ∈ settledEpochs world.log, epoch ≤ leaseEpochOf raw :=
      fun epoch hmem => hcurrent ▸ h.settled_le epoch hmem
    rw [hclaimed]
    constructor
    · rw [hclaims, List.pairwise_append]
      refine ⟨h.increasing, List.pairwise_singleton _ _, ?_⟩
      intro epoch hmem last hlast
      have hle := h.claimed_le epoch hmem
      rw [List.mem_singleton.1 hlast]
      omega
    · intro epoch hmem
      rw [hclaims] at hmem
      simp only [currentEpoch, Option.map_some, Option.getD_some, hepoch]
      rcases List.mem_append.1 hmem with hold | hlast
      · have hle := h.claimed_le epoch hold
        omega
      · exact (List.mem_singleton.1 hlast).le
    · rw [hsettled]
      exact h.once
    · intro epoch hmem
      rw [hsettled] at hmem
      simp only [currentEpoch, Option.map_some, Option.getD_some, hepoch]
      have hle := hbelow epoch hmem
      omega
    · intro updated hupdated _ hmem
      cases Option.some.inj hupdated
      rw [hsettled, hepoch] at hmem
      have hle := hbelow _ hmem
      omega

theorem epochSound_publish (h : EpochSound world) (hdocument : world.document = none)
    (event : MemoryOutboxEvent) : EpochSound { world with document := some event.document } := by
  have hcurrent : world.currentEpoch = 0 := by simp [currentEpoch, hdocument]
  have hepoch : leaseEpochOf event.document = 0 := rfl
  refine ⟨h.increasing, fun epoch hmem => ?_, h.once, fun epoch hmem => ?_,
    fun raw hraw hstatus => ?_⟩
  · simp only [currentEpoch, Option.map_some, Option.getD_some, hepoch]
    exact hcurrent ▸ h.claimed_le epoch hmem
  · simp only [currentEpoch, Option.map_some, Option.getD_some, hepoch]
    exact hcurrent ▸ h.settled_le epoch hmem
  · cases Option.some.inj hraw
    exact absurd (PyVal.str.inj hstatus) (by decide)

theorem epochSound_step (htruthful : Truthful world) (h : EpochSound world) (env : OutboxEnv)
    (action : OutboxAction) : EpochSound (world.step env action) := by
  cases action with
  | publish event =>
    unfold step
    dsimp only
    split_ifs with hnone
    · exact epochSound_publish h (Option.isNone_iff_eq_none.1 hnone) event
    · exact h
  | commit store => exact h.of_same rfl rfl rfl
  | claim config requestedUid documentId now => exact epochSound_claim h env _ _ _ _
  | advance worker ok =>
    unfold step
    dsimp only
    cases hprocess : world.processes[worker]? with
    | none => exact h
    | some process =>
      by_cases hsettling : ∃ patch, process.stage = .settling patch
      · obtain ⟨patch, hpatch⟩ := hsettling
        have hmeans := htruthful.stages worker process hprocess
        rw [hpatch] at hmeans
        have hadvance : world.advance env worker process ok =
            world.settle worker process patch ok := by
          unfold advance
          rw [hpatch]
        dsimp only
        rw [hadvance]
        exact epochSound_settle h hmeans.1 ok
      · obtain ⟨hdocument, hclaimed, hsettled⟩ := advance_quiet world worker env ok
          fun patch hpatch => hsettling ⟨patch, hpatch⟩
        exact h.of_same hdocument hclaimed hsettled

theorem epochSound_run (env : OutboxEnv) (store : ProjectionStore) (actions : List OutboxAction) :
    EpochSound (actions.foldl (step env) { store := store }) := by
  induction actions using List.reverseRecOn with
  | nil => constructor <;> simp [claimedEpochs, settledEpochs]
  | append_singleton actions action ih =>
    rw [List.foldl_append]
    exact epochSound_step (truthful_run env store actions) ih env action

/-- A settlement under a lease that has been superseded only ends the worker. -/
theorem step_stale {env : OutboxEnv} {patch : PyDict} (ok : Bool)
    (hprocess : world.processes[worker]? = some process) (hstage : process.stage = .settling patch)
    (hstale : world.currentEpoch ≠ process.lease.leaseEpoch) :
    world.step env (.advance worker ok) = world.moveTo worker .settled := by
  have hadvance : world.step env (.advance worker ok) = world.settle worker process patch ok := by
    unfold step advance
    simp only [hprocess, hstage]
  rw [hadvance]
  rcases settle_cases world worker process patch ok with hsame | ⟨raw, hraw, -, hepoch, -⟩
  · exact hsame
  · have hcurrent : world.currentEpoch = process.lease.leaseEpoch := by
      simp [currentEpoch, hraw, hepoch]
    exact absurd hcurrent hstale

end OutboxWorld

/-- **Outbox delivery is fenced and truthful**, for every order of claims, steps of workers and
commits on one event: claims have increasing epochs, a settlement under a superseded lease
changes nothing but its worker, every epoch settles at most once, and an event marked as
projected was re-read after the write it reports with the fence of the version written. -/
theorem outboxDelivery (env : OutboxEnv) (store : ProjectionStore) (actions : List OutboxAction) :
    let world := actions.foldl (OutboxWorld.step env) { store := store }
    (claimedEpochs world.log).Pairwise (· < ·) ∧
    (∀ worker process patch ok, world.processes[worker]? = some process →
      process.stage = .settling patch → world.currentEpoch ≠ process.lease.leaseEpoch →
      world.step env (.advance worker ok) = world.moveTo worker .settled) ∧
    (settledEpochs world.log).Nodup ∧
    ∀ raw, world.document = some raw → raw.get "status" = .str "delivered" →
      raw.get "settled_reason" = .str "projected" →
      ∃ before worker epoch patch after write,
        world.log = before ++ .settled worker epoch patch :: after ∧
        Verified before worker write ∧ raw.get "side_effect_action" = .str write.action := by
  intro world
  have hepochs := OutboxWorld.epochSound_run env store actions
  have htruthful := OutboxWorld.truthful_run env store actions
  refine ⟨hepochs.increasing, ?_, hepochs.once, htruthful.marked⟩
  intro worker process patch ok hprocess hstage hstale
  exact OutboxWorld.step_stale ok hprocess hstage hstale

end Omi.Memory
