import Omi.Sync.Jobs
import Omi.Sync.LedgerOnce

/-! The run lock of a sync job and its content ledger together. The two stores share no
transaction: a lock can expire under its worker, and Redis and ledger calls of old and
new workers arrive in any order. The lease epoch carried in every token is what orders
them. -/
namespace Omi.Sync
open Omi.Foundation

/-- The epoch of a minted token is the counter it was minted from, as long as Lua
writes that counter in plain digits. -/
theorem getSyncJobRunLockEpoch_minted (epoch : ℕ) (uuid : String) :
    getSyncJobRunLockEpoch (luaToString epoch ++ String.singleton ':' ++ uuid) =
      if epoch < 10 ^ 14 then (epoch : ℤ) else 0 := by
  rw [getSyncJobRunLockEpoch, partition?_append (not_mem_luaToString epoch)]
  simp only [pyInt?_luaToString]
  by_cases hplain : epoch < 10 ^ 14
  · simp only [hplain, if_true]
    split_ifs with hpos <;> omega
  · simp only [hplain, if_false]

/-- An acquisition either changes nothing or mints a token from the next epoch; it
succeeds exactly when the token spells that epoch. -/
theorem tryAcquireSyncJobRunLock_cases (keys : SyncJobKeys) (uuid : String) :
    ((tryAcquireSyncJobRunLock keys uuid).1 = keys ∧
      ∀ token, (tryAcquireSyncJobRunLock keys uuid).2 ≠ .acquired token) ∨
    ∃ token, (tryAcquireSyncJobRunLock keys uuid).1 =
        { keys with
          lock := .setEx token keys.clock runLockTtlSeconds
          lockEpoch := keys.lockEpoch + 1 } ∧
      (getSyncJobRunLockEpoch token = (keys.lockEpoch + 1 : ℕ) ∧
          (tryAcquireSyncJobRunLock keys uuid).2 = .acquired token ∨
        getSyncJobRunLockEpoch token = 0 ∧
          ∀ token', (tryAcquireSyncJobRunLock keys uuid).2 ≠ .acquired token') := by
  cases hlock : keys.lock.get keys.clock with
  | some owner => exact .inl (by simp [tryAcquireSyncJobRunLock, hlock])
  | none =>
    by_cases hoverflow : 2 ^ 63 ≤ keys.lockEpoch + 1
    · left
      simp only [tryAcquireSyncJobRunLock, hlock, hoverflow, if_true]
      exact ⟨trivial, by simp⟩
    · right
      have hepoch := getSyncJobRunLockEpoch_minted (keys.lockEpoch + 1) uuid
      by_cases hplain : keys.lockEpoch + 1 < 10 ^ 14
      · rw [if_pos hplain] at hepoch
        have hpos : ¬ ((keys.lockEpoch + 1 : ℕ) : ℤ) ≤ 0 := by omega
        refine ⟨_, ?_, .inl ⟨hepoch, ?_⟩⟩ <;>
          simp only [tryAcquireSyncJobRunLock, hlock, hoverflow, hepoch, hpos, if_false]
      · rw [if_neg hplain] at hepoch
        refine ⟨_, ?_, .inr ⟨hepoch, ?_⟩⟩ <;>
          simp only [tryAcquireSyncJobRunLock, hlock, hoverflow, hepoch, le_refl, if_false, if_true]
        simp

/-- One sync job's Redis keys and its content ledger. -/
structure SyncWorld where
  jobs : SyncJobSystem
  ledger : LedgerRef

inductive SyncWorldAction where
  | redis (action : SyncJobAction)
  | ledger (call : LedgerCall)
  deriving DecidableEq

inductive SyncWorldReply where
  | redis (reply : SyncJobReply)
  | ledger (reply : LedgerReply)
  deriving DecidableEq

def syncWorldStep (w : SyncWorld) : SyncWorldAction → SyncWorld × SyncWorldReply
  | .redis action =>
    ({ w with jobs := (syncJobs.step w.jobs action).1 }, .redis (syncJobs.step w.jobs action).2)
  | .ledger call =>
    ({ w with ledger := (ledger.step w.ledger call).1 }, .ledger (ledger.step w.ledger call).2)

def syncWorld : Machine SyncWorld SyncWorldAction SyncWorldReply := ⟨syncWorldStep⟩

/-- Before any worker: no lock, no epoch, no ledger document. -/
def SyncWorld.initial (clock : ℚ) (job : RedisKey JobText) : SyncWorld :=
  { jobs := { keys := { clock := clock, job := job, lock := none } }, ledger := none }

abbrev SyncWorldEvent := SyncWorldAction × SyncWorldReply

/-- The token a successful acquisition handed out. -/
def acquiredToken : SyncWorldEvent → Option String
  | (_, .redis (.acquire (.acquired token))) => some token
  | _ => none

def acquiredEpoch (event : SyncWorldEvent) : Option ℤ :=
  (acquiredToken event).map getSyncJobRunLockEpoch

/-- An accepted bind, ledger mutation or fenced job update of the token. -/
inductive SucceedsFor (jobId token : String) : SyncWorldEvent → Prop
  | bind (epoch now : ℤ) :
    SucceedsFor jobId token
      (.ledger (.bindRunToken jobId token epoch now), .ledger (.binding .bound))
  | mutation {call : LedgerCall} {caller : LedgerCaller} (hcaller : call.caller? = some caller)
    (hjob : caller.jobId = jobId) (htoken : caller.runToken = some token) :
    SucceedsFor jobId token (.ledger call, .ledger (.flag true))
  | fenced (action : SyncWorldAction) :
    SucceedsFor jobId token (action, .redis (.ran (.fenced token .applied)))

/-- The accepted bind of the token alone. -/
def BindsToken (jobId token : String) (event : SyncWorldEvent) : Prop :=
  ∃ epoch now, event = (.ledger (.bindRunToken jobId token epoch now), .ledger (.binding .bound))

/-- Workers bind with the epoch of the token they hold, as
`bind_or_converge_sync_ledger_completion` does. -/
def bindsOwnEpoch (jobId : String) : SyncWorldAction → Bool
  | .ledger (.bindRunToken job token epoch _) =>
    job != jobId || epoch == getSyncJobRunLockEpoch token
  | _ => true

def claimsFor (jobId : String) : SyncWorldAction → Bool
  | .ledger (.claim job _ _) => job == jobId
  | _ => false

/-- A job's claim is made at its admission, under an id never used before, and so comes
before every run of the job. -/
def AdmittedFirst (jobId : String) (events : List SyncWorldEvent) : Prop :=
  events.Pairwise fun earlier later =>
    (acquiredToken earlier).isSome = true → claimsFor jobId later.1 = false

instance (jobId : String) (events : List SyncWorldEvent) : Decidable (AdmittedFirst jobId events) :=
  inferInstanceAs (Decidable (events.Pairwise _))

theorem epoch_of_bindsOwnEpoch {jobId token : String} {epoch now : ℤ}
    (h : bindsOwnEpoch jobId (.ledger (.bindRunToken jobId token epoch now)) = true) :
    epoch = getSyncJobRunLockEpoch token := by
  simpa [bindsOwnEpoch] using h

section Fence
variable {jobId token : String}

/-- The lock counter has passed the token's epoch and the lock is not the token's. -/
structure LockPassed (token : String) (keys : SyncJobKeys) : Prop where
  positive : 0 < getSyncJobRunLockEpoch token
  counter : getSyncJobRunLockEpoch token ≤ keys.lockEpoch
  notHolder : keys.lock.stored ≠ some token

/-- Whatever the job holds of the ledger, it holds under a greater epoch. -/
structure LedgerPassed (jobId token : String) (ref : LedgerRef) : Prop where
  sound : Sound ref
  bound : ref.existing.status = some .processing → ref.existing.jobId = some jobId →
    ∃ holder, ref.existing.ledgerRunToken = some holder ∧
      ref.existing.ledgerRunEpoch = .int (getSyncJobRunLockEpoch holder) ∧
      getSyncJobRunLockEpoch token < getSyncJobRunLockEpoch holder

theorem WritesJob.lock_eq {keys keys' : SyncJobKeys} {caller : SyncJobCaller}
    (h : WritesJob keys caller keys') :
    keys'.lock = keys.lock ∧ keys'.lockEpoch = keys.lockEpoch := by
  cases h <;> exact ⟨rfl, rfl⟩

theorem LockPassed.congr {keys keys' : SyncJobKeys} (h : LockPassed token keys)
    (hlock : keys'.lock.stored = keys.lock.stored ∨ keys'.lock = none)
    (hepoch : keys'.lockEpoch = keys.lockEpoch) : LockPassed token keys' := by
  refine ⟨h.positive, hepoch ▸ h.counter, ?_⟩
  rcases hlock with hsame | hfree
  · rw [hsame]; exact h.notHolder
  · simp [hfree]

theorem LockPassed.step {s : SyncJobSystem} (h : LockPassed token s.keys)
    (action : SyncJobAction) : LockPassed token (syncJobs.step s action).1.keys := by
  cases action with
  | tick | start => exact h.congr (.inl rfl) rfl
  | run i =>
    cases hcaller : s.callers[i]? with
    | none => simpa [syncJobStep, hcaller] using h
    | some caller =>
      obtain ⟨hlock, hepoch⟩ := (caller.step_writes s.keys).lock_eq
      have hkeys : (syncJobs.step s (.run i)).1.keys = (caller.step s.keys).1 := by
        simp [syncJobStep, hcaller]
      rw [hkeys]
      exact h.congr (.inl (by rw [hlock])) hepoch
  | acquireRunLock uuid =>
    obtain ⟨hkeys, -⟩ | ⟨minted, hkeys, hminted⟩ := tryAcquireSyncJobRunLock_cases s.keys uuid
    · simpa [syncJobStep, hkeys] using h
    · have hcounter := h.counter
      have hpositive := h.positive
      have hne : getSyncJobRunLockEpoch minted ≠ getSyncJobRunLockEpoch token := by
        rcases hminted with ⟨hepoch, -⟩ | ⟨hepoch, -⟩ <;> omega
      simp only [syncJobs_step, syncJobStep, hkeys]
      refine ⟨hpositive, ?_, ?_⟩
      · push_cast
        omega
      · simp only [RedisKey.stored_setEx, ne_eq, Option.some.injEq]
        exact fun heq => hne (by rw [heq])
  | renewRunLock holder =>
    simp only [syncJobs_step, syncJobStep, renewJobRunLock]
    split_ifs
    · exact h.congr (.inl (by simp)) rfl
    · exact h
  | releaseRunLock holder =>
    simp only [syncJobs_step, syncJobStep, releaseJobRunLock]
    split_ifs
    · exact h.congr (.inr rfl) rfl
    · exact h

/-- A later acquisition passes every token minted before it. -/
theorem lockPassed_of_acquired {keys : SyncJobKeys} {uuid later : String}
    (hpositive : 0 < getSyncJobRunLockEpoch token)
    (hcounter : getSyncJobRunLockEpoch token ≤ keys.lockEpoch)
    (h : (tryAcquireSyncJobRunLock keys uuid).2 = .acquired later) :
    LockPassed token (tryAcquireSyncJobRunLock keys uuid).1 ∧
      getSyncJobRunLockEpoch token < getSyncJobRunLockEpoch later := by
  obtain ⟨-, hnot⟩ | ⟨minted, hkeys, ⟨hepoch, hreply⟩ | ⟨-, hnot⟩⟩ :=
    tryAcquireSyncJobRunLock_cases keys uuid
  · exact absurd h (hnot later)
  · obtain rfl : minted = later := by simpa [hreply] using h
    have hlt : getSyncJobRunLockEpoch token < getSyncJobRunLockEpoch minted := by
      rw [hepoch]; push_cast; omega
    rw [hkeys]
    refine ⟨⟨hpositive, ?_, ?_⟩, hlt⟩
    · push_cast
      omega
    · simp only [RedisKey.stored_setEx, ne_eq, Option.some.injEq]
      rintro rfl
      exact lt_irrefl _ hlt
  · exact absurd h (hnot later)

theorem LedgerPassed.congr {ref ref' : LedgerRef} (h : LedgerPassed jobId token ref)
    (hsound : Sound ref') (hbinding : ref'.existing.binding = ref.existing.binding) :
    LedgerPassed jobId token ref' := by
  simp only [LedgerDoc.binding, Prod.mk.injEq] at hbinding
  obtain ⟨hstatus, hjob, htoken, hepoch⟩ := hbinding
  refine ⟨hsound, fun hstatus' hjob' => ?_⟩
  rw [htoken, hepoch]
  exact h.bound (hstatus ▸ hstatus') (hjob ▸ hjob')

/-- A bind of the job at a greater epoch passes the token. -/
theorem ledgerPassed_of_boundTo {ref : LedgerRef} {holder : String} (hsound : Sound ref)
    (hbound : BoundTo jobId holder (getSyncJobRunLockEpoch holder) ref)
    (hlt : getSyncJobRunLockEpoch token < getSyncJobRunLockEpoch holder) :
    LedgerPassed jobId token ref :=
  ⟨hsound, fun _ _ => ⟨holder, hbound.runToken, hbound.runEpoch, hlt⟩⟩

/-- No ledger transaction brings back an earlier epoch, as long as the job does not
claim again and every worker binds its own epoch. -/
theorem LedgerPassed.step {ref : LedgerRef} (h : LedgerPassed jobId token ref)
    (call : LedgerCall) (hclaim : claimsFor jobId (.ledger call) = false)
    (hbinds : bindsOwnEpoch jobId (.ledger call) = true) :
    LedgerPassed jobId token (ledgerStep ref call).1 := by
  have hsound := (h.sound.step call).1
  have hworker := ledgerStep_cases ref call
  cases call with
  | claim other lane now =>
    simp only [ledgerStep] at hsound ⊢
    obtain heq | ⟨-, heq⟩ := h.sound.claim_cases other lane now
    · rwa [heq]
    · rw [heq] at hsound ⊢
      refine ⟨hsound, fun _ hjob => ?_⟩
      obtain rfl : other = jobId := by simpa [processingClaimUpdates] using hjob
      simp [claimsFor] at hclaim
  | bindRunToken other runToken runEpoch now =>
    simp only [ledgerStep] at hsound ⊢
    obtain heq | ⟨hstatus, hjob, hlater, heq⟩ := h.sound.bind_cases other runToken runEpoch now
    · rwa [heq]
    · rw [heq] at hsound ⊢
      refine ⟨hsound, fun hstatus' hjob' => ?_⟩
      obtain rfl : other = jobId := by
        simpa [LedgerDoc.withRun, hjob] using hjob'
      obtain ⟨holder, -, hepoch, hlt⟩ := h.bound hstatus hjob
      obtain rfl := epoch_of_bindsOwnEpoch hbinds
      exact ⟨runToken, rfl, rfl, hlt.trans (hlater _ hepoch)⟩
  | _ =>
    obtain heq | ⟨doc, heq, hbinding | ⟨-, hclosed⟩⟩ :=
      hworker (by simp) (by simp)
    · rwa [heq]
    · rw [heq] at hsound ⊢
      exact h.congr hsound hbinding
    · rw [heq] at hsound ⊢
      exact ⟨hsound, fun hstatus => absurd hstatus hclosed⟩

/-- Past a later bind the token no longer owns the document. -/
theorem LedgerPassed.not_owns {ref : LedgerRef} (h : LedgerPassed jobId token ref)
    {caller : LedgerCaller} (hjob : caller.jobId = jobId) (htoken : caller.runToken = some token) :
    caller.owns ref.existing = false := by
  by_contra howns
  obtain ⟨hstatus, hdocJob, hdocToken⟩ := ownedFields_of_owns (Bool.not_eq_false _ ▸ howns)
  obtain ⟨holder, hholder, -, hlt⟩ := h.bound hstatus (hjob ▸ hdocJob)
  obtain rfl : token = holder := by simpa [hdocToken token htoken] using hholder
  exact lt_irrefl _ hlt

theorem LedgerPassed.bind_refused {ref : LedgerRef} (h : LedgerPassed jobId token ref) (now : ℤ) :
    (bindRunTokenTransaction ref jobId token (getSyncJobRunLockEpoch token) now).2 ≠
      .binding .bound := by
  obtain ⟨heq, -⟩ | ⟨e, heq, -⟩ | heq | ⟨-, hstatus, hjob, htoken, -⟩ |
    ⟨-, hstatus, hjob, hgreater⟩ | ⟨-, hcompleted, hinvalid⟩ :=
      bindRunTokenTransaction_cases ref jobId token (getSyncJobRunLockEpoch token) now
  · simp [heq]
  · simp [heq]
  · simp [heq]
  · obtain ⟨holder, hholder, -, hlt⟩ := h.bound hstatus hjob
    obtain rfl : token = holder := by simpa [htoken] using hholder
    exact absurd hlt (lt_irrefl _)
  · obtain ⟨holder, -, hepoch, hlt⟩ := h.bound hstatus hjob
    exact absurd (hgreater _ hepoch) (not_lt.mpr hlt.le)
  · simp [h.sound.completed_valid hcompleted] at hinvalid

/-- Both stores have passed the token. -/
structure Passed (jobId token : String) (w : SyncWorld) : Prop where
  lock : LockPassed token w.jobs.keys
  ledger : LedgerPassed jobId token w.ledger

theorem Passed.step {w : SyncWorld} (h : Passed jobId token w) (action : SyncWorldAction)
    (hclaim : claimsFor jobId action = false) (hbinds : bindsOwnEpoch jobId action = true) :
    Passed jobId token (syncWorld.step w action).1 := by
  cases action with
  | redis action => exact ⟨h.lock.step action, h.ledger⟩
  | ledger call => exact ⟨h.lock, h.ledger.step call hclaim hbinds⟩

/-- Once both stores have passed a token, nothing it presents goes through. -/
theorem Passed.refuses {w : SyncWorld} (h : Passed jobId token w) {action : SyncWorldAction}
    (hbinds : bindsOwnEpoch jobId action = true) {reply : SyncWorldReply}
    (hreply : reply = (syncWorld.step w action).2) :
    ¬ SucceedsFor jobId token (action, reply) := by
  intro hsucceeds
  cases hsucceeds with
  | bind epoch now =>
    obtain rfl := epoch_of_bindsOwnEpoch hbinds
    refine h.ledger.bind_refused now ?_
    simpa [syncWorld, syncWorldStep, ledgerStep] using hreply.symm
  | mutation hcaller hjob htoken =>
    have hrefused := ledgerStep_of_not_owns hcaller (h.ledger.not_owns hjob htoken)
    simp [syncWorld, syncWorldStep, hrefused] at hreply
  | fenced action =>
    cases action with
    | ledger call => simp [syncWorld, syncWorldStep] at hreply
    | redis action =>
      have hran : (syncJobs.step w.jobs action).2 = .ran (.fenced token .applied) := by
        simpa [syncWorld, syncWorldStep] using hreply.symm
      cases action with
      | run i =>
        cases hcaller : w.jobs.callers[i]? with
        | none => simp [syncJobStep, hcaller] at hran
        | some caller =>
          have happlied : (caller.step w.jobs.keys).2.2 = .fenced token .applied := by
            simpa [syncJobStep, hcaller] using hran
          exact h.lock.notHolder (RedisKey.stored_of_get (SyncJobCaller.step_applied happlied))
      | _ => simp [syncJobStep] at hran

theorem acquiredToken_step {w : SyncWorld} {event : SyncWorldEvent}
    (hreply : event.2 = (syncWorld.step w event.1).2) (h : acquiredToken event = some token) :
    ∃ uuid, event.1 = .redis (.acquireRunLock uuid) ∧
      (tryAcquireSyncJobRunLock w.jobs.keys uuid).2 = .acquired token := by
  obtain ⟨action, reply⟩ := event
  simp only at hreply
  subst hreply
  cases action with
  | ledger call => simp [syncWorld, syncWorldStep, acquiredToken] at h
  | redis action =>
    cases action with
    | acquireRunLock uuid =>
      refine ⟨uuid, rfl, ?_⟩
      cases hacquire : (tryAcquireSyncJobRunLock w.jobs.keys uuid).2 <;>
        simp_all [syncWorld, syncWorldStep, syncJobStep, acquiredToken]
    | run i =>
      cases hcaller : w.jobs.callers[i]? <;>
        simp [syncWorld, syncWorldStep, syncJobStep, acquiredToken, hcaller] at h
    | _ => simp [syncWorld, syncWorldStep, syncJobStep, acquiredToken] at h

/-- The epoch counter never falls. -/
theorem lockEpoch_step (w : SyncWorld) (action : SyncWorldAction) :
    w.jobs.keys.lockEpoch ≤ (syncWorld.step w action).1.jobs.keys.lockEpoch := by
  cases action with
  | ledger call => exact le_rfl
  | redis action =>
    simp only [syncWorld, syncWorldStep, syncJobs_step]
    cases action with
    | tick | start => exact le_rfl
    | run i =>
      simp only [syncJobStep]
      cases w.jobs.callers[i]? with
      | none => exact le_rfl
      | some caller => exact (caller.step_writes w.jobs.keys).lock_eq.2.ge
    | acquireRunLock uuid =>
      obtain ⟨hkeys, -⟩ | ⟨minted, hkeys, -⟩ := tryAcquireSyncJobRunLock_cases w.jobs.keys uuid
      · simp [syncJobStep, hkeys]
      · simp [syncJobStep, hkeys]
    | renewRunLock token =>
      simp only [syncJobStep, renewJobRunLock]
      split_ifs <;> exact le_rfl
    | releaseRunLock token =>
      simp only [syncJobStep, releaseJobRunLock]
      split_ifs <;> exact le_rfl

/-- A token is handed out with the counter it was minted from. -/
theorem acquired_epoch {keys : SyncJobKeys} {uuid : String}
    (h : (tryAcquireSyncJobRunLock keys uuid).2 = .acquired token) :
    getSyncJobRunLockEpoch token = (keys.lockEpoch + 1 : ℕ) ∧
      (tryAcquireSyncJobRunLock keys uuid).1.lockEpoch = keys.lockEpoch + 1 := by
  obtain ⟨-, hnot⟩ | ⟨minted, hkeys, ⟨hepoch, hreply⟩ | ⟨-, hnot⟩⟩ :=
    tryAcquireSyncJobRunLock_cases keys uuid
  · exact absurd h (hnot token)
  · obtain rfl : minted = token := by simpa [hreply] using h
    exact ⟨hepoch, by rw [hkeys]⟩
  · exact absurd h (hnot token)

end Fence

/-- Successive acquisitions receive strictly increasing epochs. -/
theorem acquiredEpoch_pairwise (w : SyncWorld) (actions : List SyncWorldAction) :
    ((syncWorld.trace w actions).filterMap acquiredEpoch).Pairwise (· < ·) := by
  refine (Machine.pairwise_lt_trace (fun w => (w.jobs.keys.lockEpoch : ℤ)) (I := fun _ => True)
    (fun _ _ h => h)
    (fun w action _ => by exact_mod_cast lockEpoch_step w action) ?_ trivial actions).1
  intro w action epoch _ hepoch
  obtain ⟨token, htoken, rfl⟩ := Option.map_eq_some_iff.mp hepoch
  obtain ⟨uuid, haction, hacquired⟩ := acquiredToken_step rfl htoken
  obtain rfl : action = _ := haction
  obtain ⟨hvalue, hcounter⟩ := acquired_epoch hacquired
  have hafter : (syncWorld.step w (.redis (.acquireRunLock uuid))).1.jobs.keys.lockEpoch =
      w.jobs.keys.lockEpoch + 1 := hcounter
  rw [hvalue, hafter]
  push_cast
  omega

theorem sound_step (w : SyncWorld) (action : SyncWorldAction) (h : Sound w.ledger) :
    Sound (syncWorld.step w action).1.ledger := by
  cases action with
  | redis => exact h
  | ledger call => exact (h.step call).1

section Superseded
variable {jobId token token' : String} {w : SyncWorld} {actions : List SyncWorldAction}
  {later bind event : SyncWorldEvent}

private theorem refused_of_passed (hpassed : Passed jobId token w)
    (hok : ∀ action ∈ actions, claimsFor jobId action = false ∧ bindsOwnEpoch jobId action = true)
    (horder : [event].Sublist (syncWorld.trace w actions)) : ¬ SucceedsFor jobId token event := by
  obtain ⟨before, after, rfl, hreply, -⟩ := Machine.sublist_trace_cons horder
  have hbefore : Passed jobId token (syncWorld.state w before) :=
    Machine.invariant_of_mem _ (fun _ action h hok => h.step action hok.1 hok.2) hpassed before
      fun action hmem => hok action (by simp [hmem])
  exact hbefore.refuses (hok event.1 (by simp)).2 hreply

private theorem refused_of_lockPassed (hlock : LockPassed token w.jobs.keys)
    (hsound : Sound w.ledger)
    (hlt : getSyncJobRunLockEpoch token < getSyncJobRunLockEpoch token')
    (hok : ∀ action ∈ actions, claimsFor jobId action = false ∧ bindsOwnEpoch jobId action = true)
    (horder : [bind, event].Sublist (syncWorld.trace w actions))
    (hbind : BindsToken jobId token' bind) : ¬ SucceedsFor jobId token event := by
  obtain ⟨before, after, rfl, hreply, horder⟩ := Machine.sublist_trace_cons horder
  have hbefore : LockPassed token (syncWorld.state w before).jobs.keys ∧
      Sound (syncWorld.state w before).ledger := by
    refine Machine.invariant (I := fun w => LockPassed token w.jobs.keys ∧ Sound w.ledger)
      (fun w action h => ⟨?_, sound_step w action h.2⟩) ⟨hlock, hsound⟩ before
    cases action with
    | redis action => exact h.1.step action
    | ledger call => exact h.1
  obtain ⟨epoch, now, rfl⟩ := hbind
  obtain rfl := epoch_of_bindsOwnEpoch (hok _ (List.mem_append_right _ List.mem_cons_self)).2
  have hbound : (bindRunTokenTransaction (syncWorld.state w before).ledger jobId token'
      (getSyncJobRunLockEpoch token') now).2 = .binding .bound := by
    simpa [syncWorld, syncWorldStep, ledgerStep] using hreply.symm
  have hpassed : Passed jobId token (syncWorld.step (syncWorld.state w before)
      (.ledger (.bindRunToken jobId token' (getSyncJobRunLockEpoch token') now))).1 :=
    ⟨hbefore.1, ledgerPassed_of_boundTo (hbefore.2.step _).1 (boundTo_of_bound hbound) hlt⟩
  exact refused_of_passed hpassed (fun action hmem => hok action (by simp [hmem])) horder

private theorem refused_of_counter (hpositive : 0 < getSyncJobRunLockEpoch token)
    (hcounter : getSyncJobRunLockEpoch token ≤ w.jobs.keys.lockEpoch) (hsound : Sound w.ledger)
    (hok : ∀ action ∈ actions, claimsFor jobId action = false ∧ bindsOwnEpoch jobId action = true)
    (horder : [later, bind, event].Sublist (syncWorld.trace w actions))
    (hlater : acquiredToken later = some token') (hbind : BindsToken jobId token' bind) :
    ¬ SucceedsFor jobId token event := by
  obtain ⟨before, after, rfl, hreply, horder⟩ := Machine.sublist_trace_cons horder
  have hbefore : getSyncJobRunLockEpoch token ≤ (syncWorld.state w before).jobs.keys.lockEpoch ∧
      Sound (syncWorld.state w before).ledger := by
    refine Machine.invariant
      (I := fun w => getSyncJobRunLockEpoch token ≤ w.jobs.keys.lockEpoch ∧ Sound w.ledger)
      (fun w action h => ⟨h.1.trans ?_, sound_step w action h.2⟩) ⟨hcounter, hsound⟩ before
    exact_mod_cast lockEpoch_step w action
  obtain ⟨uuid, hacquire, hacquired⟩ := acquiredToken_step hreply hlater
  obtain ⟨hlock, hlt⟩ := lockPassed_of_acquired hpositive hbefore.1 hacquired
  rw [hacquire] at horder
  have hafter : ∀ action ∈ after, claimsFor jobId action = false ∧ bindsOwnEpoch jobId action = true :=
    fun action hmem => hok action (List.mem_append_right _ (List.mem_cons_of_mem _ hmem))
  have hpassed : LockPassed token (syncWorld.step (syncWorld.state w before)
      (.redis (.acquireRunLock uuid))).1.jobs.keys := hlock
  exact refused_of_lockPassed hpassed hbefore.2 hlt hafter horder hbind

end Superseded

/-- The run lock and the ledger fence together: epochs increase, one token holds the lock
at a time, and after a later-acquired token has bound the ledger nothing an
earlier-acquired token presents succeeds, in whatever order the calls arrive. -/
theorem runLockFence (jobId : String) (clock : ℚ) (job : RedisKey JobText)
    (actions : List SyncWorldAction) (hbinds : ∀ action ∈ actions, bindsOwnEpoch jobId action = true)
    (hadmitted : AdmittedFirst jobId (syncWorld.trace (.initial clock job) actions)) :
    let events := syncWorld.trace (.initial clock job) actions
    (events.filterMap acquiredEpoch).Pairwise (· < ·) ∧
    (∀ before, before <+: actions → ∀ token token',
      (renewJobRunLock (syncWorld.state (.initial clock job) before).jobs.keys token).2 = true →
      (renewJobRunLock (syncWorld.state (.initial clock job) before).jobs.keys token').2 = true →
      token = token') ∧
    ∀ earlier later bind event token token', [earlier, later, bind, event].Sublist events →
      acquiredToken earlier = some token → acquiredToken later = some token' →
      BindsToken jobId token' bind → ¬ SucceedsFor jobId token event := by
  intro events
  refine ⟨acquiredEpoch_pairwise _ actions, ?_, ?_⟩
  · intro before _ token token' hholds hholds'
    simp only [renewJobRunLock] at hholds hholds'
    split_ifs at hholds hholds' with hlock hlock'
    simpa [hlock] using hlock'
  · intro earlier later bind event token token' horder hearlier hlater hbind
    obtain ⟨before, after, rfl, hreply, horder⟩ := Machine.sublist_trace_cons horder
    obtain ⟨uuid, hacquire, hacquired⟩ := acquiredToken_step hreply hearlier
    obtain ⟨hepoch, hcounter⟩ := acquired_epoch hacquired
    -- the job's claims all came before this first acquisition
    have hclaims : ∀ action ∈ after, claimsFor jobId action = false := by
      rw [AdmittedFirst, Machine.trace_append, Machine.trace_cons, List.pairwise_append] at hadmitted
      intro action hmem
      rw [← Machine.map_fst_trace (M := syncWorld)
        (syncWorld.step (syncWorld.state (.initial clock job) before) earlier.1).1 after] at hmem
      obtain ⟨other, hother, rfl⟩ := List.mem_map.mp hmem
      refine List.rel_of_pairwise_cons hadmitted.2.1 hother ?_
      rw [← hreply]
      simp [hearlier]
    have hsound : Sound (syncWorld.state (.initial clock job) before).ledger :=
      Machine.invariant (I := fun w : SyncWorld => Sound w.ledger) sound_step sound_none before
    rw [hacquire] at horder
    refine refused_of_counter (by rw [hepoch]; push_cast; omega) ?_ (sound_step _ _ hsound)
      (fun action hmem => ⟨hclaims action hmem, hbinds action (by simp [hmem])⟩) horder hlater hbind
    rw [hepoch]
    exact_mod_cast hcounter.ge

/-- A lock expires under its worker, the replacement binds, and the old worker's bind
arrives late. -/
def expiredRun : List SyncWorldAction :=
  [.ledger (.claim "job" "fresh" 0), .redis (.acquireRunLock "a"), .redis (.tick 1800000000),
    .redis (.acquireRunLock "b"), .ledger (.bindRunToken "job" "2:b" 2 8),
    .ledger (.bindRunToken "job" "1:a" 1 9)]

def lateBind : SyncWorldEvent :=
  (.ledger (.bindRunToken "job" "1:a" 1 9), .ledger (.binding .lost))

theorem runLockFence_expiredRun :
    (syncWorld.trace (.initial 0 none) expiredRun).getLast? = some lateBind ∧
      ¬ SucceedsFor "job" "1:a" lateBind := by
  refine ⟨by decide +kernel, ?_⟩
  obtain ⟨-, -, hfence⟩ :=
    runLockFence "job" 0 none expiredRun (by decide +kernel) (by decide +kernel)
  exact hfence (.redis (.acquireRunLock "a"), .redis (.acquire (.acquired "1:a")))
    (.redis (.acquireRunLock "b"), .redis (.acquire (.acquired "2:b")))
    (.ledger (.bindRunToken "job" "2:b" 2 8), .ledger (.binding .bound)) lateBind "1:a" "2:b"
    (by decide +kernel) rfl rfl ⟨2, 8, rfl⟩

end Omi.Sync
