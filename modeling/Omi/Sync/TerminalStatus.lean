import Omi.Sync.Jobs

/-! Terminal sync-job statuses. Both compare-and-set paths keep them under every
interleaving; the poll's write-back is a plain SET of a copy read earlier, and keeps
them exactly when nothing terminal but `failed` was stored in between. -/
namespace Omi.Sync
open Omi.Foundation

/-- `json.loads(text).get('status')`, `None` where there is no job to read. -/
def JobText.status (text : JobText) : PyVal :=
  match text.job? with
  | some job => job.get "status"
  | none => .none

/-- The status of the value last stored under the job key. -/
def SyncJobKeys.status (keys : SyncJobKeys) : PyVal :=
  match keys.job.stored with
  | some text => text.status
  | none => .none

/-- No step of the run stores another status over a terminal one. -/
def TerminalAbsorbing (s : SyncJobSystem) (actions : List SyncJobAction) : Prop :=
  ∀ before action after, actions = before ++ action :: after →
    (syncJobs.state s before).keys.status ∈ terminalStatuses →
    (syncJobs.step (syncJobs.state s before) action).1.keys.status =
      (syncJobs.state s before).keys.status

/-- Every poll that writes its failed copy back does so while the job last stored is
neither completed nor partially failed. -/
def PollsWriteOpenJobs (s : SyncJobSystem) (actions : List SyncJobAction) : Prop :=
  ∀ before i after job, actions = before ++ .run i :: after →
    (syncJobs.state s before).callers[i]? = some (.getStoring job) →
    (syncJobs.state s before).keys.status ≠ .str "completed" ∧
      (syncJobs.state s before).keys.status ≠ .str "partial_failure"

/-- What a caller knows of the copy it holds: a poll writes a failed job, and a
compare-and-set was let through by the terminal guard on exactly the text it compares. -/
def SyncJobCaller.Guarded : SyncJobCaller → Prop
  | .getStoring job => job.get "status" = .str "failed"
  | .updateLoaded _ raw job => raw.job? = some job
  | .updateSwapping _ raw job _ | .fencedSwapping _ _ raw job _ =>
    raw.job? = some job ∧ job.get "status" ∉ terminalStatuses
  | _ => True

theorem guarded_updateGuard (payload : PyDict) {raw : JobText} {job : PyDict}
    (hraw : raw.job? = some job) (retries : ℕ) :
    (updateGuard payload raw job retries).Guarded := by
  cases retries with
  | zero => trivial
  | succ retries =>
    simp only [updateGuard]
    split_ifs with hterminal
    · trivial
    · exact ⟨hraw, hterminal⟩

theorem guarded_fencedGuard (update : FencedUpdate) (payload : PyDict) {raw : JobText}
    {job : PyDict} (hraw : raw.job? = some job) (retries : ℕ) :
    (fencedGuard update payload raw job retries).Guarded := by
  cases retries with
  | zero => trivial
  | succ retries =>
    by_cases hterminal : job.get "status" ∈ terminalStatuses
    · simp only [fencedGuard, hterminal, if_true]
      trivial
    · simp only [fencedGuard, hterminal, if_false]
      cases update.allowedCurrentStatuses with
      | none => exact ⟨hraw, hterminal⟩
      | some allowed =>
        dsimp only
        split
        · trivial
        · split
          · trivial
          · exact ⟨hraw, hterminal⟩

/-- A decoded conflict hands back a text together with its own parse. -/
theorem decodeFencedMutation_conflict {reply : ScriptReply} {raw : JobText} {job : PyDict}
    (houtcome : (decodeFencedMutation reply).outcome = .conflict)
    (hraw : (decodeFencedMutation reply).rawJob = some raw)
    (hjob : (decodeFencedMutation reply).job = some job) : raw.job? = some job := by
  cases reply with
  | missingOwner | staleOwner | missingJob => simp [decodeFencedMutation] at houtcome
  | conflict raw' | applied raw' =>
    cases hparse : raw'.job? <;> simp_all [decodeFencedMutation]

theorem SyncJobKeys.status_of_stored {keys : SyncJobKeys} {text : JobText}
    (h : keys.job.stored = some text) : keys.status = text.status := by
  simp [SyncJobKeys.status, h]

@[simp] theorem SyncJobKeys.status_setJob (keys : SyncJobKeys) (text : JobText) :
    (keys.setJob text).status = text.status := rfl

/-- The text a guarded caller compares with is no terminal job. -/
theorem SyncJobCaller.Guarded.expected_open {caller : SyncJobCaller} (h : caller.Guarded)
    {expected : JobText} (hexpected : caller.expected? = some expected) :
    expected.status ∉ terminalStatuses := by
  cases caller with
  | updateSwapping payload raw job retries | fencedSwapping update payload raw job retries =>
    obtain rfl : raw = expected := by simpa [SyncJobCaller.expected?] using hexpected
    simpa [JobText.status, h.1] using h.2
  | fencedProbing update payload =>
    obtain rfl : JobText.empty = expected := by simpa [SyncJobCaller.expected?] using hexpected
    decide
  | _ => simp [SyncJobCaller.expected?] at hexpected

theorem SyncJobCaller.step_guarded {caller : SyncJobCaller} (h : caller.Guarded)
    (keys : SyncJobKeys) : (caller.step keys).2.1.Guarded := by
  cases caller with
  | getStart | getLoaded =>
    simp only [SyncJobCaller.step]
    repeat' split
    all_goals trivial
  | getStale job => simp [SyncJobCaller.step, SyncJobCaller.Guarded]
  | updateStart updates =>
    simp only [SyncJobCaller.step]
    repeat' split
    all_goals trivial
  | updateLoaded updates raw job =>
    exact guarded_updateGuard _ h legacyJobMutationMaxRetries
  | updateSwapping payload raw job retries =>
    simp only [SyncJobCaller.step]
    split
    · trivial
    · exact guarded_updateGuard _ (decodeFencedMutation_conflict ‹_› ‹_› ‹_›) _
    · trivial
  | fencedReading update payload =>
    simp only [SyncJobCaller.step]
    repeat' split
    · trivial
    · exact guarded_fencedGuard _ _ ‹_› fencedJobMutationMaxRetries
    · trivial
  | fencedProbing update payload =>
    simp only [SyncJobCaller.step]
    split
    · exact guarded_fencedGuard _ _ (decodeFencedMutation_conflict ‹_› ‹_› ‹_›)
        fencedJobMutationMaxRetries
    · trivial
  | fencedSwapping update payload raw job retries =>
    simp only [SyncJobCaller.step]
    split
    · exact guarded_fencedGuard _ _ (decodeFencedMutation_conflict ‹_› ‹_› ‹_›) retries
    · trivial
  | getStoring | fencedStart | getReturned | updateReturned | fencedReturned | raised => trivial

/-- Every caller of the system stands where the guards have let it. -/
def AllGuarded (s : SyncJobSystem) : Prop := ∀ caller ∈ s.callers, caller.Guarded

theorem allGuarded_step (s : SyncJobSystem) (action : SyncJobAction) (h : AllGuarded s) :
    AllGuarded (syncJobs.step s action).1 := by
  cases action with
  | tick | acquireRunLock | renewRunLock | releaseRunLock => exact h
  | start request =>
    intro caller hmem
    simp only [syncJobs_step, syncJobStep, List.mem_append, List.mem_singleton] at hmem
    rcases hmem with hold | rfl
    · exact h caller hold
    · cases request <;> trivial
  | run i =>
    simp only [syncJobs_step, syncJobStep]
    cases hcaller : s.callers[i]? with
    | none => exact h
    | some caller =>
      intro other hmem
      rcases List.mem_or_eq_of_mem_set hmem with hold | rfl
      · exact h other hold
      · exact SyncJobCaller.step_guarded (h caller (List.mem_of_getElem? hcaller)) s.keys

theorem job_tryAcquireSyncJobRunLock (keys : SyncJobKeys) (uuid : String) :
    (tryAcquireSyncJobRunLock keys uuid).1.job = keys.job := by
  unfold tryAcquireSyncJobRunLock
  split
  · rfl
  · dsimp only
    split_ifs <;> rfl

theorem SyncJobKeys.status_congr {keys keys' : SyncJobKeys} (h : keys'.job = keys.job) :
    keys'.status = keys.status := by
  rw [SyncJobKeys.status, h, SyncJobKeys.status]

/-- One step keeps a terminal status unless it is a poll's write-back. -/
theorem status_step {s : SyncJobSystem} (h : AllGuarded s) (action : SyncJobAction)
    (hterminal : s.keys.status ∈ terminalStatuses) :
    (syncJobs.step s action).1.keys.status = s.keys.status ∨
      ∃ i job, action = .run i ∧ s.callers[i]? = some (.getStoring job) := by
  cases action with
  | tick | start => exact .inl rfl
  | acquireRunLock uuid =>
    exact .inl (SyncJobKeys.status_congr (job_tryAcquireSyncJobRunLock s.keys uuid))
  | renewRunLock token =>
    left
    simp only [syncJobs_step, syncJobStep, renewJobRunLock]
    split_ifs <;> rfl
  | releaseRunLock token =>
    left
    simp only [syncJobs_step, syncJobStep, releaseJobRunLock]
    split_ifs <;> rfl
  | run i =>
    cases hcaller : s.callers[i]? with
    | none => exact .inl (by simp [syncJobStep, hcaller])
    | some caller =>
      have hguarded := h caller (List.mem_of_getElem? hcaller)
      have hwrites := caller.step_writes s.keys
      have hstep : (syncJobs.step s (.run i)).1.keys = (caller.step s.keys).1 := by
        simp [syncJobStep, hcaller]
      rw [hstep]
      generalize (caller.step s.keys).1 = keys' at hwrites
      cases hwrites with
      | none => exact .inl rfl
      | poll hpoll => exact .inr ⟨i, _, rfl, by rw [← hpoll]; exact hcaller⟩
      | swap hexpected hstored =>
        rw [SyncJobKeys.status_of_stored hstored] at hterminal
        exact absurd hterminal (hguarded.expected_open hexpected)

/-- A poll's write-back stores `failed`. -/
theorem status_poll {s : SyncJobSystem} (h : AllGuarded s) {i : ℕ} {job : PyDict}
    (hcaller : s.callers[i]? = some (.getStoring job)) :
    (syncJobs.step s (.run i)).1.keys.status = .str "failed" := by
  have hfailed : job.get "status" = .str "failed" := h _ (List.mem_of_getElem? hcaller)
  have hkeys : (syncJobs.step s (.run i)).1.keys = s.keys.setJob (.dumps true job) := by
    simp [syncJobStep, hcaller, SyncJobCaller.step]
  rw [hkeys, SyncJobKeys.status_setJob]
  simpa [JobText.status, JobText.job?] using hfailed

theorem allGuarded_state (keys : SyncJobKeys) (actions : List SyncJobAction) :
    AllGuarded (syncJobs.state ⟨keys, []⟩ actions) :=
  Machine.invariant allGuarded_step (by simp [AllGuarded]) actions

/-- Terminal statuses absorb in exactly the runs whose polls never write back over a
completed or partially failed job. -/
theorem terminalAbsorbing_iff (keys : SyncJobKeys) (actions : List SyncJobAction) :
    TerminalAbsorbing ⟨keys, []⟩ actions ↔ PollsWriteOpenJobs ⟨keys, []⟩ actions := by
  constructor
  · intro habsorb before i after job hactions hcaller
    have hguarded := allGuarded_state keys before
    have hwritten := status_poll hguarded hcaller
    have hkept := habsorb before (.run i) after hactions
    rw [hwritten] at hkept
    constructor <;> intro hstatus <;> simp [hstatus, terminalStatuses] at hkept
  · intro hopen before action after hactions hterminal
    have hguarded := allGuarded_state keys before
    rcases status_step hguarded action hterminal with hkept | ⟨i, job, rfl, hcaller⟩
    · exact hkept
    · obtain ⟨hcompleted, hpartial⟩ := hopen before i after job hactions hcaller
      rw [status_poll hguarded hcaller]
      simp [terminalStatuses, hcompleted, hpartial] at hterminal
      exact hterminal.symm

/-- A job silent for 601 seconds, still processing under the run lock `1:w`. -/
def silentJob : SyncJobKeys where
  clock := 602
  job := some ⟨.dumped true [("status", .str "processing"), ("updated_at", .int 1)], 86400⟩
  lock := some ⟨"1:w", 1800⟩
  lockEpoch := 1

/-- A poll reads `silentJob` and judges it stale; before its write-back the worker
completes the job; the poll then stores its failed copy. -/
theorem not_terminalAbsorbing :
    ¬ ∀ keys actions, TerminalAbsorbing ⟨keys, []⟩ actions := by
  intro habsorb
  let complete : FencedUpdate :=
    { runLockToken := "1:w", updates := [("status", .str "completed")] }
  have hkept := habsorb silentJob
    [.start .get, .run 0, .run 0, .run 0,
      .start (.fencedUpdate complete), .run 1, .run 1, .run 1, .run 0]
    [.start .get, .run 0, .run 0, .run 0,
      .start (.fencedUpdate complete), .run 1, .run 1, .run 1]
    (.run 0) [] rfl (by decide +kernel)
  revert hkept
  decide +kernel

end Omi.Sync
