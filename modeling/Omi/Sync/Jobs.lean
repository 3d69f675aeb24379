import Omi.Foundation.Machine
import Omi.Foundation.NumberText
import Omi.Foundation.PyValue
import Omi.Foundation.Redis

/-! One sync job in Redis (`database/sync_jobs.py`): its JSON value, its run lock and
lock epoch, and the callers of `get_sync_job`, `update_sync_job` and
`fenced_update_sync_job`, each advancing by one Redis command or clock reading at a time. -/
namespace Omi.Sync
open Omi.Foundation

/-- The text stored under a job key. `json.dumps` is injective on job dictionaries, so a
text it wrote is kept as its layout and dictionary; any other text carries what
`json.loads` makes of it. -/
inductive JobText where
  | empty
  | dumped (spaced : Bool) (job : PyDict)
  | foreign (text : String) (parsed : Option PyVal)
  deriving DecidableEq, Repr

/-- `json.loads(text)`, with `none` for a decode error. -/
def JobText.loads : JobText → Option PyVal
  | .empty => none
  | .dumped _ job => some (.dict job)
  | .foreign _ parsed => parsed

/-- `json.dumps(job)`, spaced or with compact separators; `{}` has neither. -/
def JobText.dumps (spaced : Bool) (job : PyDict) : JobText :=
  .dumped (spaced && !job.isEmpty) job

@[simp] theorem loads_dumps (spaced : Bool) (job : PyDict) :
    (JobText.dumps spaced job).loads = some (.dict job) := rfl

/-- `json.loads` followed by the `isinstance(..., dict)` guard. -/
def JobText.job? (text : JobText) : Option PyDict :=
  match text.loads with
  | some (.dict job) => some job
  | _ => none

def jobTtlSeconds : ℚ := 86400

def staleThresholdSeconds : ℚ := 600

def queuedDispatchStaleSeconds : ℚ := 1800

def runLockTtlSeconds : ℚ := 1800

def terminalStatuses : List PyVal := [.str "completed", .str "partial_failure", .str "failed"]

inductive FencedSyncJobMutationOutcome where
  | applied
  | conflict
  | missingOwner
  | staleOwner
  | missingJob
  | invalidJob
  | invalidState
  deriving DecidableEq, Repr

structure FencedSyncJobMutation where
  outcome : FencedSyncJobMutationOutcome
  job : Option PyDict := none
  rawJob : Option JobText := none
  deriving DecidableEq, Repr

/-- `is_sync_job_stale` at the given time. -/
def isSyncJobStale (job : PyDict) (now : ℚ) : Bool :=
  let threshold :=
    if job.get "status" = .str "processing" then some staleThresholdSeconds
    else if job.get "status" = .str "queued" ∧ job.get "dispatch_mode" = .str "cloud_tasks" ∧
        job.get "started_at" = .none ∧ job.get "attempt" = .none then
      some queuedDispatchStaleSeconds
    else none
  match threshold, ((job.get "updated_at").orElse (job.get "created_at")).number? with
  | some threshold, some updatedAt => threshold < now - updatedAt
  | _, _ => false

/-- What Redis holds for the job. -/
structure SyncJobKeys where
  clock : ℚ
  job : RedisKey JobText
  lock : RedisKey String
  lockEpoch : ℕ := 0
  deriving DecidableEq, Repr

def SyncJobKeys.setJob (keys : SyncJobKeys) (text : JobText) : SyncJobKeys :=
  { keys with job := .setEx text keys.clock jobTtlSeconds }

/-- What the job-mutation scripts return. -/
inductive ScriptReply where
  | missingOwner
  | staleOwner
  | missingJob
  | conflict (raw : JobText)
  | applied (raw : JobText)
  deriving DecidableEq, Repr

/-- `_LEGACY_JOB_MUTATION_SCRIPT`. -/
def legacyJobMutationScript (keys : SyncJobKeys) (expected next : JobText) :
    SyncJobKeys × ScriptReply :=
  match keys.job.get keys.clock with
  | none => (keys, .missingJob)
  | some raw => if raw ≠ expected then (keys, .conflict raw) else (keys.setJob next, .applied next)

/-- `_FENCED_JOB_MUTATION_SCRIPT`: the owner check, then the same compare-and-set. -/
def fencedJobMutationScript (keys : SyncJobKeys) (runLockToken : String)
    (expected next : JobText) : SyncJobKeys × ScriptReply :=
  match keys.lock.get keys.clock with
  | none => (keys, .missingOwner)
  | some owner =>
    if owner ≠ runLockToken then (keys, .staleOwner)
    else legacyJobMutationScript keys expected next

/-- `_decode_legacy_job_mutation` and `_decode_fenced_mutation`. -/
def decodeFencedMutation : ScriptReply → FencedSyncJobMutation
  | .missingOwner => { outcome := .missingOwner }
  | .staleOwner => { outcome := .staleOwner }
  | .missingJob => { outcome := .missingJob }
  | .conflict raw =>
    match raw.job? with
    | some job => { outcome := .conflict, job := some job, rawJob := some raw }
    | none => { outcome := .invalidJob }
  | .applied raw =>
    match raw.job? with
    | some job => { outcome := .applied, job := some job, rawJob := some raw }
    | none => { outcome := .invalidJob }

structure FencedUpdate where
  runLockToken : String
  updates : PyDict
  now : Option ℚ := none
  allowedCurrentStatuses : Option (List String) := none
  deriving DecidableEq, Repr

/-- Where a caller stands between two of its Redis commands or clock readings. -/
inductive SyncJobCaller where
  | getStart
  | getLoaded (job : PyDict)
  | getStale (job : PyDict)
  | getStoring (job : PyDict)
  | getReturned (job : Option PyDict)
  | updateStart (updates : PyDict)
  | updateLoaded (updates : PyDict) (raw : JobText) (job : PyDict)
  | updateSwapping (payload : PyDict) (raw : JobText) (job : PyDict) (retries : ℕ)
  | updateReturned (job : Option PyDict)
  | fencedStart (update : FencedUpdate)
  | fencedReading (update : FencedUpdate) (payload : PyDict)
  | fencedProbing (update : FencedUpdate) (payload : PyDict)
  | fencedSwapping (update : FencedUpdate) (payload : PyDict) (raw : JobText) (job : PyDict)
    (retries : ℕ)
  | fencedReturned (mutation : FencedSyncJobMutation)
  | raised (error : String)
  deriving DecidableEq, Repr

def legacyJobMutationMaxRetries : ℕ := 3

def fencedJobMutationMaxRetries : ℕ := 3

/-- The head of `update_sync_job`'s loop: the retry bound and the terminal guard that
runs right before the exact compare-and-set. -/
def updateGuard (payload : PyDict) (raw : JobText) (job : PyDict) : ℕ → SyncJobCaller
  | 0 => .updateReturned none
  | retries + 1 =>
    if job.get "status" ∈ terminalStatuses then .updateReturned none
    else .updateSwapping payload raw job retries

/-- The head of `fenced_update_sync_job`'s loop. `status not in allowed` hashes the
status. -/
def fencedGuard (update : FencedUpdate) (payload : PyDict) (raw : JobText) (job : PyDict) :
    ℕ → SyncJobCaller
  | 0 => .fencedReturned { outcome := .conflict, job := some job, rawJob := some raw }
  | retries + 1 =>
    let status := job.get "status"
    let invalidState : SyncJobCaller :=
      .fencedReturned { outcome := .invalidState, job := some job, rawJob := some raw }
    if status ∈ terminalStatuses then invalidState
    else
      match update.allowedCurrentStatuses with
      | none => .fencedSwapping update payload raw job retries
      | some allowed =>
        if !status.hashable then .raised "TypeError: unhashable type"
        else if status ∉ allowed.map PyVal.str then invalidState
        else .fencedSwapping update payload raw job retries

/-- What a step of a caller told the outside: a fenced script it ran, with its token. -/
inductive CallerReply where
  | quiet
  | fenced (runLockToken : String) (outcome : FencedSyncJobMutationOutcome)
  deriving DecidableEq, Repr

/-- One command or clock reading of a caller. -/
def SyncJobCaller.step (keys : SyncJobKeys) :
    SyncJobCaller → SyncJobKeys × SyncJobCaller × CallerReply
  | .getStart =>
    match keys.job.get keys.clock with
    | none | some .empty => (keys, .getReturned none, .quiet)
    | some raw =>
      match raw.loads with
      | none => (keys, .getReturned none, .quiet)
      | some (.dict job) => (keys, .getLoaded job, .quiet)
      | some _ => (keys, .getLoaded [], .quiet)
  | .getLoaded job =>
    if isSyncJobStale job keys.clock then (keys, .getStale job, .quiet)
    else (keys, .getReturned (some job), .quiet)
  | .getStale job =>
    (keys, .getStoring (((job.set "status" (.str "failed")).set "error"
      (.str "Job timed out (background worker likely died)")).set "completed_at"
      (.float keys.clock)), .quiet)
  -- the write-back is a plain SET: nothing compares what is stored now with what was read
  | .getStoring job => (keys.setJob (.dumps true job), .getReturned (some job), .quiet)
  | .updateStart updates =>
    match keys.job.get keys.clock with
    | none | some .empty => (keys, .updateReturned none, .quiet)
    | some raw =>
      match raw.job? with
      | some job => (keys, .updateLoaded updates raw job, .quiet)
      | none => (keys, .updateReturned none, .quiet)
  | .updateLoaded updates raw job =>
    (keys, updateGuard (updates.set "updated_at" (.float keys.clock)) raw job
      legacyJobMutationMaxRetries, .quiet)
  | .updateSwapping payload raw job retries =>
    let (keys, reply) := legacyJobMutationScript keys raw (.dumps false (job.update payload))
    let mutation := decodeFencedMutation reply
    match mutation.outcome, mutation.rawJob, mutation.job with
    | .applied, _, job => (keys, .updateReturned job, .quiet)
    | .conflict, some raw, some job => (keys, updateGuard payload raw job retries, .quiet)
    | _, _, _ => (keys, .updateReturned none, .quiet)
  | .fencedStart update =>
    (keys, .fencedReading update
      (update.updates.set "updated_at" (.float (update.now.getD keys.clock))), .quiet)
  | .fencedReading update payload =>
    match keys.job.get keys.clock with
    | none => (keys, .fencedProbing update payload, .quiet)
    | some raw =>
      match raw.job? with
      | some job => (keys, fencedGuard update payload raw job fencedJobMutationMaxRetries, .quiet)
      | none => (keys, .fencedReturned { outcome := .invalidJob }, .quiet)
  | .fencedProbing update payload =>
    -- the job was absent: let the script report ownership before declaring it missing
    let (keys, reply) := fencedJobMutationScript keys update.runLockToken .empty .empty
    let mutation := decodeFencedMutation reply
    match mutation.outcome, mutation.rawJob, mutation.job with
    | .conflict, some raw, some job =>
      (keys, fencedGuard update payload raw job fencedJobMutationMaxRetries,
        .fenced update.runLockToken .conflict)
    | _, _, _ => (keys, .fencedReturned mutation, .fenced update.runLockToken mutation.outcome)
  | .fencedSwapping update payload raw job retries =>
    let (keys, reply) :=
      fencedJobMutationScript keys update.runLockToken raw (.dumps false (job.update payload))
    let mutation := decodeFencedMutation reply
    match mutation.outcome, mutation.rawJob, mutation.job with
    | .conflict, some raw, some job =>
      (keys, fencedGuard update payload raw job retries, .fenced update.runLockToken .conflict)
    | _, _, _ => (keys, .fencedReturned mutation, .fenced update.runLockToken mutation.outcome)
  | .getReturned job => (keys, .getReturned job, .quiet)
  | .updateReturned job => (keys, .updateReturned job, .quiet)
  | .fencedReturned mutation => (keys, .fencedReturned mutation, .quiet)
  | .raised error => (keys, .raised error, .quiet)

/-- The compare-and-set writes only over the text it was given. -/
theorem legacyJobMutationScript_cases (keys : SyncJobKeys) (expected next : JobText) :
    (legacyJobMutationScript keys expected next).1 = keys ∨
      (keys.job.stored = some expected ∧
        (legacyJobMutationScript keys expected next).1 = keys.setJob next) := by
  cases hget : keys.job.get keys.clock with
  | none => exact .inl (by simp [legacyJobMutationScript, hget])
  | some raw =>
    by_cases heq : raw = expected
    · subst heq
      exact .inr ⟨RedisKey.stored_of_get hget, by simp [legacyJobMutationScript, hget]⟩
    · exact .inl (by simp [legacyJobMutationScript, hget, heq])

theorem fencedJobMutationScript_cases (keys : SyncJobKeys) (runLockToken : String)
    (expected next : JobText) :
    (fencedJobMutationScript keys runLockToken expected next).1 = keys ∨
      (keys.job.stored = some expected ∧
        (fencedJobMutationScript keys runLockToken expected next).1 = keys.setJob next) := by
  cases hget : keys.lock.get keys.clock with
  | none => exact .inl (by simp [fencedJobMutationScript, hget])
  | some owner =>
    by_cases heq : owner = runLockToken
    · simpa [fencedJobMutationScript, hget, heq] using
        legacyJobMutationScript_cases keys expected next
    · exact .inl (by simp [fencedJobMutationScript, hget, heq])

/-- The exact text a caller's next compare-and-set expects. -/
def SyncJobCaller.expected? : SyncJobCaller → Option JobText
  | .updateSwapping _ raw _ _ | .fencedSwapping _ _ raw _ _ => some raw
  | .fencedProbing _ _ => some .empty
  | _ => none

/-- What one caller step does to the keys: nothing, a poll's write-back, or a write over
the text it expected. -/
inductive WritesJob (keys : SyncJobKeys) (caller : SyncJobCaller) : SyncJobKeys → Prop
  | none : WritesJob keys caller keys
  | poll {job : PyDict} (hcaller : caller = .getStoring job) :
    WritesJob keys caller (keys.setJob (.dumps true job))
  | swap {expected text : JobText} (hexpected : caller.expected? = some expected)
    (hstored : keys.job.stored = some expected) : WritesJob keys caller (keys.setJob text)

theorem writesJob_fencedScript {keys : SyncJobKeys} {caller : SyncJobCaller}
    {expected : JobText} (hexpected : caller.expected? = some expected) (token : String)
    (next : JobText) :
    WritesJob keys caller (fencedJobMutationScript keys token expected next).1 := by
  obtain heq | ⟨hstored, heq⟩ := fencedJobMutationScript_cases keys token expected next
  · rw [heq]; exact .none
  · rw [heq]; exact .swap hexpected hstored

theorem writesJob_legacyScript {keys : SyncJobKeys} {caller : SyncJobCaller}
    {expected : JobText} (hexpected : caller.expected? = some expected) (next : JobText) :
    WritesJob keys caller (legacyJobMutationScript keys expected next).1 := by
  obtain heq | ⟨hstored, heq⟩ := legacyJobMutationScript_cases keys expected next
  · rw [heq]; exact .none
  · rw [heq]; exact .swap hexpected hstored

theorem SyncJobCaller.step_writes (caller : SyncJobCaller) (keys : SyncJobKeys) :
    WritesJob keys caller (caller.step keys).1 := by
  cases caller with
  | getStoring job => exact .poll rfl
  | updateSwapping payload raw job retries =>
    simp only [SyncJobCaller.step]
    split <;> exact writesJob_legacyScript rfl _
  | fencedProbing update payload | fencedSwapping update payload raw job retries =>
    simp only [SyncJobCaller.step]
    split <;> exact writesJob_fencedScript rfl _ _
  | getStart | getLoaded | updateStart | fencedReading =>
    simp only [SyncJobCaller.step]
    repeat' split
    all_goals exact .none
  | getStale | updateLoaded | fencedStart | getReturned | updateReturned | fencedReturned
  | raised => exact .none

/-- A fenced script that applied ran for the holder of the lock. -/
theorem fencedJobMutationScript_applied {keys : SyncJobKeys} {token : String}
    {expected next : JobText}
    (h : (decodeFencedMutation (fencedJobMutationScript keys token expected next).2).outcome =
      .applied) : keys.lock.get keys.clock = some token := by
  cases hlock : keys.lock.get keys.clock with
  | none => simp [fencedJobMutationScript, hlock, decodeFencedMutation] at h
  | some owner =>
    by_cases howner : owner = token
    · rw [howner]
    · simp [fencedJobMutationScript, hlock, howner, decodeFencedMutation] at h

theorem SyncJobCaller.step_applied {caller : SyncJobCaller} {keys : SyncJobKeys}
    {token : String} (h : (caller.step keys).2.2 = .fenced token .applied) :
    keys.lock.get keys.clock = some token := by
  cases caller with
  | fencedProbing update payload | fencedSwapping update payload raw job retries =>
    simp only [SyncJobCaller.step] at h
    split at h
    · simp at h
    · simp only [CallerReply.fenced.injEq] at h
      exact h.1 ▸ fencedJobMutationScript_applied h.2
  | updateSwapping =>
    simp only [SyncJobCaller.step] at h
    split at h <;> simp at h
  | getStart | getLoaded | updateStart | fencedReading =>
    simp only [SyncJobCaller.step] at h
    repeat' split at h
    all_goals simp at h
  | _ => simp [SyncJobCaller.step] at h

/-- `get_sync_job_run_lock_epoch`. -/
def getSyncJobRunLockEpoch (token : String) : ℤ :=
  match partition? token ':' with
  | none => 0
  | some (epochText, _) =>
    match pyInt? epochText with
    | some epoch => if 0 < epoch then epoch else 0
    | none => 0

inductive AcquireReply where
  | held
  | acquired (token : String)
  | raised (error : String)
  deriving DecidableEq, Repr

/-- `try_acquire_sync_job_run_lock` with `_ACQUIRE_LOCK_WITH_EPOCH_SCRIPT`. The epoch is
minted and the lock taken before the caller judges the token. -/
def tryAcquireSyncJobRunLock (keys : SyncJobKeys) (uuid : String) : SyncJobKeys × AcquireReply :=
  match keys.lock.get keys.clock with
  | some _ => (keys, .held)
  | none =>
    let epoch := keys.lockEpoch + 1
    if 2 ^ 63 ≤ epoch then (keys, .raised "ERR increment or decrement would overflow")
    else
      let token := luaToString epoch ++ String.singleton ':' ++ uuid
      let keys :=
        { keys with lock := .setEx token keys.clock runLockTtlSeconds, lockEpoch := epoch }
      if getSyncJobRunLockEpoch token ≤ 0 then
        (keys, .raised "sync job run-lock acquisition returned an invalid epoch token")
      else (keys, .acquired token)

/-- `renew_job_run_lock`. -/
def renewJobRunLock (keys : SyncJobKeys) (token : String) : SyncJobKeys × Bool :=
  if keys.lock.get keys.clock = some token then
    ({ keys with lock := keys.lock.expire keys.clock runLockTtlSeconds }, true)
  else (keys, false)

/-- `release_job_run_lock`. -/
def releaseJobRunLock (keys : SyncJobKeys) (token : String) : SyncJobKeys :=
  if keys.lock.get keys.clock = some token then { keys with lock := none } else keys

inductive SyncJobRequest where
  | get
  | update (updates : PyDict)
  | fencedUpdate (update : FencedUpdate)
  deriving DecidableEq, Repr

def SyncJobRequest.start : SyncJobRequest → SyncJobCaller
  | .get => .getStart
  | .update updates => .updateStart updates
  | .fencedUpdate fenced => .fencedStart fenced

/-- The job's keys with every caller at work on them. -/
structure SyncJobSystem where
  keys : SyncJobKeys
  callers : List SyncJobCaller := []
  deriving DecidableEq, Repr

/-- What can happen next: time passes, a call starts, a caller moves by one command, or
a worker works on the run lock. -/
inductive SyncJobAction where
  | tick (micros : ℕ)
  | start (request : SyncJobRequest)
  | run (caller : ℕ)
  | acquireRunLock (uuid : String)
  | renewRunLock (token : String)
  | releaseRunLock (token : String)
  deriving DecidableEq, Repr

inductive SyncJobReply where
  | quiet
  | ran (reply : CallerReply)
  | acquire (reply : AcquireReply)
  | renewed (held : Bool)
  deriving DecidableEq, Repr

def syncJobStep (s : SyncJobSystem) : SyncJobAction → SyncJobSystem × SyncJobReply
  | .tick micros =>
    ({ s with keys := { s.keys with clock := s.keys.clock + micros / 1000000 } }, .quiet)
  | .start request => ({ s with callers := s.callers ++ [request.start] }, .quiet)
  | .run i =>
    match s.callers[i]? with
    | none => (s, .quiet)
    | some caller =>
      let (keys, caller, reply) := caller.step s.keys
      ({ keys := keys, callers := s.callers.set i caller }, .ran reply)
  | .acquireRunLock uuid =>
    let (keys, reply) := tryAcquireSyncJobRunLock s.keys uuid
    ({ s with keys := keys }, .acquire reply)
  | .renewRunLock token =>
    let (keys, held) := renewJobRunLock s.keys token
    ({ s with keys := keys }, .renewed held)
  | .releaseRunLock token => ({ s with keys := releaseJobRunLock s.keys token }, .quiet)

def syncJobs : Machine SyncJobSystem SyncJobAction SyncJobReply := ⟨syncJobStep⟩

@[simp] theorem syncJobs_step (s : SyncJobSystem) (action : SyncJobAction) :
    syncJobs.step s action = syncJobStep s action := rfl

end Omi.Sync
