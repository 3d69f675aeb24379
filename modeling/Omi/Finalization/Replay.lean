import Omi.Finalization.Lease

/-! The reconciler without credentials: it replays only jobs that its query returned, and a
job that needs the user's own keys is never among them. -/
namespace Omi.Finalization
open Omi.Foundation

variable (hashes : FinalizationHashes)

/-- `get_finalization_replay_candidates`: a page of the rows whose replay delay elapsed, in
the order of the query, less those that are not open. -/
def replayCandidates (jobs : Table FinalizationJob) (limit now : ℤ) : List String :=
  let due := jobs.filter fun row => row.2.reconcileAfterAt.any (· ≤ now)
  let page := (due.mergeSort fun a b =>
    a.2.reconcileAfterAt.getD 0 < b.2.reconcileAfterAt.getD 0 ||
      (a.2.reconcileAfterAt = b.2.reconcileAfterAt && a.1 ≤ b.1)).take
    (max 1 (min limit 100)).toNat
  (page.filter fun row => row.2.status = some .queued || row.2.status = some .leased).map Prod.fst

/-- The collections, with the job ids that queries of the reconciler have returned. -/
structure ReplaySystem where
  store : FinalizationStore := .empty
  offered : List String := []

inductive ReplayAction where
  | query (limit now : ℤ)
  | transact (call : FinalizationCall)

/-- The job that a call would replay. -/
def FinalizationCall.replays : FinalizationCall → Option String
  | .claimReplay jobId _ _ => some jobId
  | _ => none

namespace ReplaySystem

/-- A replay is issued only for a row that a query returned. -/
def step (sys : ReplaySystem) : ReplayAction → ReplaySystem
  | .query limit now =>
    { sys with offered := sys.offered ++ replayCandidates sys.store.jobs limit now }
  | .transact call =>
    if call.replays.all (· ∈ sys.offered) then
      { sys with store := (finalizationStep hashes sys.store call).1 }
    else sys

/-- A job that needs the user's keys carries no replay time, is not replayed, and is leased
only by a claim that presents the keys. -/
structure ByokExcluded (sys : ReplaySystem) : Prop where
  unmarked : ∀ jobId job, sys.store.jobs.get jobId = some job → job.requiresByok = true →
    job.reconcileAfterAt = none
  unreplayed : ∀ jobId job staleAfter now, sys.store.jobs.get jobId = some job →
    job.requiresByok = true →
    sys.step hashes (.transact (.claimReplay jobId staleAfter now)) = sys
  keyed : ∀ jobId job req, sys.store.jobs.get jobId = some job → job.requiresByok = true →
    claimSucceeded jobId
      (.claim jobId req, (finalizationStep hashes sys.store (.claim jobId req)).2) = true →
    req.allowByok = true

/-- What carries the exclusion: distinct ids, no replay time on a job that needs keys, and
only jobs that need none among the rows returned. -/
structure Sound (sys : ReplaySystem) : Prop where
  distinct : sys.store.jobs.keys.Nodup
  unmarked : ∀ jobId job, sys.store.jobs.get jobId = some job → job.requiresByok = true →
    job.reconcileAfterAt = none
  keyless : ∀ jobId ∈ sys.offered, ∃ job, sys.store.jobs.get jobId = some job ∧
    job.requiresByok = false

end ReplaySystem

section writes
variable {jobId : String} {old new : FinalizationJob} {call : FinalizationCall}
  {deltas : List (ProjectionCounter × ℤ)}

theorem JobWrite.requiresByok (h : JobWrite jobId old call new deltas) :
    new.requiresByok = old.requiresByok := by
  cases h <;> rfl

/-- Only a replay writes a replay time for a job that needs keys. -/
theorem JobWrite.unmarked (h : JobWrite jobId old call new deltas)
    (hbyok : old.requiresByok = true) (hold : old.reconcileAfterAt = none)
    (hreplay : call.replays ≠ some jobId) : new.reconcileAfterAt = none := by
  cases h with
  | replayed | replayedLease => exact absurd rfl hreplay
  | claimed | reclaimed => simp [FinalizationJob.claimed, hbyok]
  | retryable => simp [FinalizationJob.retryable, hbyok]
  | fanoutLeased | fanoutDelivered => exact hold
  | _ => rfl

end writes

section store
variable {s : FinalizationStore} {call : FinalizationCall}

theorem nodup_keys_step (h : s.jobs.keys.Nodup) :
    (finalizationStep hashes s call).1.jobs.keys.Nodup := by
  have heffect := finalizationStep_effect hashes s call
  generalize finalizationStep hashes s call = next at heffect ⊢
  cases heffect with
  | same => exact h
  | created => exact Table.nodup_keys_set h _ _
  | wrote => exact Table.nodup_keys_set h _ _

/-- A job that needs no keys stays one. -/
theorem keyless_step {jobId : String} {old : FinalizationJob}
    (hold : s.jobs.get jobId = some old) (hkeyless : old.requiresByok = false) :
    ∃ new, (finalizationStep hashes s call).1.jobs.get jobId = some new ∧
      new.requiresByok = false := by
  have hstep := finalizationStep_jobStep hashes s call jobId
  rw [hold] at hstep
  generalize (finalizationStep hashes s call).1.jobs.get jobId = after at hstep ⊢
  cases hstep with
  | same => exact ⟨old, rfl, hkeyless⟩
  | wrote _ new _ hwrite => exact ⟨new, rfl, hwrite.requiresByok.trans hkeyless⟩

theorem unmarked_step {jobId : String} {new : FinalizationJob}
    (hbefore : ∀ old, s.jobs.get jobId = some old → old.requiresByok = true →
      old.reconcileAfterAt = none ∧ call.replays ≠ some jobId)
    (hnew : (finalizationStep hashes s call).1.jobs.get jobId = some new)
    (hbyok : new.requiresByok = true) : new.reconcileAfterAt = none := by
  have hstep := finalizationStep_jobStep hashes s call jobId
  rw [hnew] at hstep
  generalize s.jobs.get jobId = before at hstep hbefore
  cases hstep with
  | same => exact (hbefore new rfl hbyok).1
  | created req conversation revision fanoutKey =>
    have hreq : req.requiresByok = true := hbyok
    simp [IntentRequest.newJob, hreq]
  | wrote old _ _ hwrite =>
    have hneeds : old.requiresByok = true := hwrite.requiresByok ▸ hbyok
    obtain ⟨hnone, hreplay⟩ := hbefore old rfl hneeds
    exact hwrite.unmarked hneeds hnone hreplay

theorem mem_replayCandidates {jobs : Table FinalizationJob} {limit now : ℤ} {jobId : String}
    (h : jobId ∈ replayCandidates jobs limit now) :
    ∃ job, (jobId, job) ∈ jobs ∧ job.reconcileAfterAt ≠ none := by
  unfold replayCandidates at h
  obtain ⟨⟨_, job⟩, hrow, rfl⟩ := List.mem_map.1 h
  have hsorted := List.mem_of_mem_take (List.mem_of_mem_filter hrow)
  obtain ⟨hmem, hdue⟩ := List.mem_filter.1 (List.mem_mergeSort.1 hsorted)
  refine ⟨job, hmem, fun hnone => ?_⟩
  rw [hnone] at hdue
  exact Bool.false_ne_true hdue

end store

namespace ReplaySystem
variable {sys : ReplaySystem}

theorem sound_query (h : Sound sys) (limit now : ℤ) :
    Sound (sys.step hashes (.query limit now)) := by
  refine ⟨h.distinct, h.unmarked, fun jobId hmem => ?_⟩
  rcases List.mem_append.1 hmem with hold | hnew
  · exact h.keyless jobId hold
  · obtain ⟨job, hrow, hdue⟩ := mem_replayCandidates hnew
    have hjob := Table.get_of_mem h.distinct hrow
    refine ⟨job, hjob, Bool.eq_false_iff.2 fun hbyok => ?_⟩
    exact hdue (h.unmarked jobId job hjob hbyok)

theorem sound_transact (h : Sound sys) (call : FinalizationCall) :
    Sound (sys.step hashes (.transact call)) := by
  unfold step
  dsimp only
  split_ifs with hoffered
  · refine ⟨nodup_keys_step hashes h.distinct, fun jobId job hjob hbyok => ?_,
      fun jobId hmem => ?_⟩
    · refine unmarked_step hashes (fun old hold hneeds => ⟨h.unmarked jobId old hold hneeds, ?_⟩)
        hjob hbyok
      -- a replay of this job would name a row that needs no keys
      intro hreplay
      rw [hreplay] at hoffered
      obtain ⟨kept, hkept, hkeyless⟩ := h.keyless jobId (of_decide_eq_true hoffered)
      rw [hold] at hkept
      cases hkept
      exact absurd (hneeds.symm.trans hkeyless) (by decide)
    · obtain ⟨job, hjob, hkeyless⟩ := h.keyless jobId hmem
      exact keyless_step hashes hjob hkeyless
  · exact h

theorem sound_run (actions : List ReplayAction) : Sound (actions.foldl (step hashes) {}) := by
  induction actions using List.reverseRecOn with
  | nil =>
    exact ⟨List.nodup_nil,
      fun _ _ hjob => absurd hjob (by simp [FinalizationStore.empty, Table.get]),
      fun _ hmem => absurd hmem List.not_mem_nil⟩
  | append_singleton actions action ih =>
    rw [List.foldl_append]
    cases action with
    | query limit now => exact sound_query hashes ih limit now
    | transact call => exact sound_transact hashes ih call

theorem Sound.excluded (h : Sound sys) : ByokExcluded hashes sys := by
  refine ⟨h.unmarked, fun jobId job staleAfter now hjob hbyok => ?_,
    fun jobId job req hjob hbyok hclaimed => ?_⟩
  · have hmissing : jobId ∉ sys.offered := by
      intro hmem
      obtain ⟨kept, hkept, hkeyless⟩ := h.keyless jobId hmem
      rw [hjob] at hkept
      cases hkept
      exact absurd (hbyok.symm.trans hkeyless) (by decide)
    simp [step, FinalizationCall.replays, hmissing]
  · have hparts :
        (claimFinalizationJob (sys.store.jobs.get jobId) req).reply.status = "claimed" := by
      simpa [claimSucceeded, finalizationStep, FinalizationCall.txn] using hclaimed
    obtain ⟨old, hold, hwrite, -⟩ := claimFinalizationJob_claimed hparts
    rw [hjob] at hold
    cases hold
    obtain ⟨deltas, hwritten⟩ :
        ∃ deltas, JobWrite jobId job (.claim jobId req) (job.claimed req) deltas := by
      obtain ⟨old, hold, hwritten⟩ := claimFinalizationJob_write rfl hwrite
      rw [hjob] at hold
      cases hold
      exact ⟨_, hwritten⟩
    cases hwritten with
    | claimed _ _ _ hallow => exact hallow hbyok
    | reclaimed _ _ _ _ hallow => exact hallow hbyok

end ReplaySystem

/-- **BYOK finalization never runs without credentials**: in every state that the job
transactions reach, where replays are issued only for rows that a query of the reconciler
returned, the jobs that need the user's keys are excluded from replay. -/
theorem byokExcluded (actions : List ReplayAction) :
    ReplaySystem.ByokExcluded hashes (actions.foldl (ReplaySystem.step hashes) {}) :=
  (ReplaySystem.sound_run hashes actions).excluded hashes

end Omi.Finalization
