import Mathlib
import Omi.Foundation.StableSort
import Omi.Wals.Wal

/-! The upload of the phone's recordings (`local_wal_sync.dart`): the drain that sends batches,
the retirement of recordings that the server refuses for ever, and the reconciler that resolves
the jobs of uploaded ones. -/
namespace Omi.Wals
open Omi.Foundation

/-- A place, by the texts of its fields: the ISO time in UTC and the coordinates. -/
structure Geolocation where
  time : Option String := none
  latitude : Option String := none
  longitude : Option String := none
  deriving DecidableEq, Repr

/-- A recording with what uploading it reads or writes. Times are seconds. -/
structure PhoneWal extends Wal where
  filePath : Option String := none
  conversationId : Option String := none
  geolocation : Option Geolocation := none
  retryCount : ℕ := 0
  lastRetryAt : ℕ := 0
  jobId : Option String := none
  uploadedAt : ℕ := 0
  deriving DecidableEq, Repr

/-- A recording of the list, with its place there, which it keeps. -/
abbrev Entry := PhoneWal × ℕ

/-! ### Batches -/

def liveCaptureMaxAgeSeconds : ℤ := 6 * 60 * 60
def syncUploadBatchLimit : ℕ := 5

def isLiveCaptureWal (wal : PhoneWal) (nowSeconds : ℕ) : Bool :=
  wal.conversationId.isSome &&
    decide ((nowSeconds : ℤ) - wal.timerStart ≤ liveCaptureMaxAgeSeconds)

def canClaimLiveCapture (batch pendingForConversation : List PhoneWal) (nowSeconds : ℕ) : Bool :=
  batch.head?.any (isLiveCaptureWal · nowSeconds) && pendingForConversation.length ≤ batch.length

/-- What an optional field is interpolated as. -/
def nullText (value : Option String) : String := value.getD "null"

def walLocationBatchKey (wal : PhoneWal) : Option String :=
  wal.geolocation.map fun place =>
    s!"{nullText place.time}|{nullText place.latitude}|{nullText place.longitude}"

/-- `sort` by descending start, which need not be stable. -/
structure NewestFirst where
  sort : List Entry → List Entry
  perm : ∀ entries, (sort entries).Perm entries
  descending : ∀ entries, (sort entries).Pairwise fun a b => b.1.timerStart ≤ a.1.timerStart

def nextSyncUploadBatch (order : NewestFirst) (pending : List Entry) : List Entry :=
  match order.sort pending with
  | [] => []
  | first :: rest =>
    ((first :: rest).filter fun entry =>
      entry.1.conversationId = first.1.conversationId &&
        walLocationBatchKey entry.1 = walLocationBatchKey first.1).take syncUploadBatchLimit

/-! ### The state -/

/-- A batch, those of it whose file is there and is sent, and whether it claims the capture. -/
structure UploadBatch where
  batch : List Entry
  files : List Entry
  claimLiveCapture : Bool
  deriving DecidableEq

/-- A run of `_syncAll`, with the batches that it has formed. -/
structure Drain where
  liveCaptureOnly : Bool
  attemptedWalIds : List (String × ℕ) := []
  unclaimableConversationIds : List String := []
  uploading : Option UploadBatch := none
  batches : List UploadBatch := []

/-- A run of `reconcileUploadedWals`: the jobs still to resolve, each with its members. -/
structure ReconcilePass where
  nowSecs : ℕ
  jobs : List (String × List ℕ)

/-- The conversation of the first recording, whose upload names it. -/
def conversationOf (batch : List Entry) : Option String :=
  batch.head?.bind (·.1.conversationId)

/-- The drain with a batch formed: its members count as attempted, where it claims nothing its
conversation stays unclaimable, and it is sent unless no file is there. -/
def Drain.formed (drain : Drain) (b : UploadBatch) : Drain :=
  { drain with
    attemptedWalIds := drain.attemptedWalIds ++ b.batch.map (·.1.id)
    unclaimableConversationIds :=
      if b.claimLiveCapture then drain.unclaimableConversationIds
      else drain.unclaimableConversationIds ++ (conversationOf b.batch).toList
    uploading := if b.files.isEmpty then none else some b
    batches := drain.batches ++ [b] }

structure WalSync where
  wals : List PhoneWal
  isCancelled : Bool := false
  drain : Option Drain := none
  pass : Option ReconcilePass := none

inductive UploadOutcome where
  | completed
  | queued (jobId : String)
  | rateLimited
  | quarantined
  | recoveryWindowExceeded
  | failed
  deriving DecidableEq

structure SyncJobStatus where
  status : String
  totalSegments : ℕ := 0
  error : Option String := none
  reasonCode : Option String := none
  deriving DecidableEq

inductive SyncJobFetch where
  | ok (status : SyncJobStatus)
  | notFound
  | transient
  deriving DecidableEq

inductive SyncJobTerminalPolicy where
  | wait
  | acknowledge
  | retry
  deriving DecidableEq

def SyncJobStatus.isTerminal (s : SyncJobStatus) : Bool :=
  s.status = "completed" || s.status = "partial_failure" || s.status = "failed"

def syncJobTerminalPolicy (status : String) (isTerminal : Bool) : SyncJobTerminalPolicy :=
  if !isTerminal then .wait else if status = "completed" then .acknowledge else .retry

def backendBusyErrorHint : String := "background worker likely died"

def syncJobIsBackendBusy (s : SyncJobStatus) : Bool :=
  decide (backendBusyErrorHint.toList <:+: (s.error.getD "").toList) ||
    (s.status = "failed" && s.totalSegments = 0 && s.reasonCode.all (· = ""))

namespace WalSync

/-- Change the recordings at the places. -/
def update (phone : WalSync) (places : List ℕ) (change : PhoneWal → PhoneWal) : WalSync :=
  { phone with
    wals := phone.wals.mapIdx fun place wal => if places.contains place then change wal else wal }

def uploading (phone : WalSync) : Option UploadBatch := phone.drain.bind Drain.uploading

/-! ### The drain -/

/-- Pending recordings on the disk that the drain has not attempted. -/
def candidates (phone : WalSync) (drain : Drain) : List Entry :=
  phone.wals.zipIdx.filter fun entry =>
    entry.1.status = .miss && entry.1.storage = .disk &&
      !drain.attemptedWalIds.contains entry.1.id

def hasPending (phone : WalSync) (liveCaptureOnly : Bool) (nowSeconds : ℕ) : Bool :=
  phone.wals.any fun wal =>
    wal.status = .miss && wal.storage = .disk &&
      (!liveCaptureOnly || isLiveCaptureWal wal nowSeconds)

/-- A new drain, where none is running, no cooldown is and something is pending. -/
def syncAll (phone : WalSync) (liveCaptureOnly : Bool) (nowSeconds : ℕ) (limited : Bool) : WalSync :=
  if phone.drain.isSome then phone
  else
    { phone with
      isCancelled := false
      drain :=
        if phone.hasPending liveCaptureOnly nowSeconds && !limited then
          some { liveCaptureOnly := liveCaptureOnly }
        else none }

/-- `getFilePath` in the documents directory: the last segment of the path. -/
def fileName (filePath : Option String) : Option String :=
  filePath.bind fun path =>
    if path = "" then none
    else some (String.ofList (path.toList.reverse.takeWhile (· ≠ '/')).reverse)

def localFileExists (onDisk : String → Bool) (wal : PhoneWal) : Bool :=
  (fileName wal.filePath).any onDisk

def markCorrupted (wal : PhoneWal) : PhoneWal := { wal with status := .corrupted }

def markOutsideRecoveryWindow (wal : PhoneWal) : PhoneWal :=
  { wal with status := .outsideRecoveryWindow }

/-- The batch may claim: nothing of its conversation is pending outside of it, and no batch of
the conversation went without a claim. -/
def claims (drain : Drain) (candidates batch : List Entry) (nowSeconds : ℕ) : Bool :=
  !(conversationOf batch).any drain.unclaimableConversationIds.contains &&
    canClaimLiveCapture (batch.map Prod.fst)
      ((candidates.filter fun entry =>
        entry.1.conversationId = conversationOf batch).map Prod.fst) nowSeconds

/-- The batch of the pending recordings, of the live captures only where that is asked for. -/
def nextBatch (phone : WalSync) (order : NewestFirst) (drain : Drain) (nowSeconds : ℕ) :
    List Entry :=
  nextSyncUploadBatch order ((phone.candidates drain).filter fun entry =>
    !drain.liveCaptureOnly || isLiveCaptureWal entry.1 nowSeconds)

def formBatch (phone : WalSync) (order : NewestFirst) (drain : Drain) (nowSeconds : ℕ)
    (onDisk : String → Bool) : UploadBatch :=
  let batch := phone.nextBatch order drain nowSeconds
  ⟨batch, batch.filter fun entry => localFileExists onDisk entry.1,
    claims drain (phone.candidates drain) batch nowSeconds⟩

/-- One turn of the loop, up to the upload; a recording whose file is gone is corrupted. Between
forming the batch and sending it the loop awaits the paths of the files. -/
def send (phone : WalSync) (order : NewestFirst) (nowSeconds : ℕ) (onDisk : String → Bool) : WalSync :=
  match phone.drain with
  | none => phone
  | some drain =>
    if drain.uploading.isSome then phone
    else
      let b := phone.formBatch order drain nowSeconds onDisk
      if b.batch.isEmpty || phone.isCancelled then { phone with drain := none }
      else
        let missing := b.batch.filter fun entry => !localFileExists onDisk entry.1
        { phone.update (missing.map Prod.snd) markCorrupted with drain := some (drain.formed b) }

/-- `_retireOutsideRecoveryWindow`: all that starts no later than the oldest of the batch. -/
def retireOutsideRecoveryWindow (phone : WalSync) (rejectedBatch : List Entry) : WalSync :=
  match (rejectedBatch.map (·.1.timerStart)).min? with
  | none => phone
  | some provenTooOld =>
    { phone with
      wals := phone.wals.map fun wal =>
        if wal.status = .miss && wal.storage = .disk && wal.timerStart ≤ provenTooOld then
          markOutsideRecoveryWindow wal
        else wal }

def markSynced (wal : PhoneWal) : PhoneWal := { wal with status := .synced }

def markUploaded (jobId : String) (now : ℕ) (wal : PhoneWal) : PhoneWal :=
  { wal with status := .uploaded, jobId := some jobId, uploadedAt := now }

/-- What becomes of the recordings of a batch whose upload returned or raised. -/
def answered (phone : WalSync) (now : ℕ) (sent : UploadBatch) : UploadOutcome → WalSync
  | .completed => phone.update (sent.files.map Prod.snd) markSynced
  | .queued jobId => phone.update (sent.files.map Prod.snd) (markUploaded jobId now)
  | .recoveryWindowExceeded => phone.retireOutsideRecoveryWindow sent.files
  | .rateLimited | .quarantined | .failed => phone

/-- The upload of the batch is over; a cooldown or the quarantine ends the drain. -/
def answer (phone : WalSync) (now : ℕ) (outcome : UploadOutcome) : WalSync :=
  match phone.drain with
  | none => phone
  | some drain =>
    match drain.uploading with
    | none => phone
    | some sent =>
      { phone.answered now sent outcome with
        drain :=
          match outcome with
          | .rateLimited | .quarantined => none
          | _ => some { drain with uploading := none } }

/-! ### The reconciler -/

/-- `byJob`: uploaded recordings by their job, the jobs in the order of their first one. -/
def byJob (phone : WalSync) : List (String × List ℕ) :=
  let uploaded := phone.wals.zipIdx.filter fun entry =>
    entry.1.status = .uploaded && entry.1.jobId.any (· ≠ "")
  (uploaded.filterMap (·.1.jobId)).eraseDups.map fun jobId =>
    (jobId, (uploaded.filter fun entry => entry.1.jobId = some jobId).map Prod.snd)

/-- A new pass. One runs at a time. -/
def reconcile (phone : WalSync) (nowSecs : ℕ) : WalSync :=
  if phone.pass.isSome then phone
  else { phone with pass := if phone.byJob.isEmpty then none else some ⟨nowSecs, phone.byJob⟩ }

/-- A retry that counts. -/
def countRetry (nowSecs : ℕ) (wal : PhoneWal) : PhoneWal :=
  { wal with retryCount := wal.retryCount + 1, lastRetryAt := nowSecs }

/-- The job is unknown: back to pending where the file is still there. -/
def revertNotFound (nowSecs : ℕ) (onDisk : String → Bool) (wal : PhoneWal) : PhoneWal :=
  if localFileExists onDisk wal then countRetry nowSecs { wal with jobId := none, status := .miss }
  else { wal with jobId := none, status := .corrupted }

def capacityLimited (s : SyncJobStatus) : Bool :=
  syncJobIsBackendBusy s || s.reasonCode = some "backfill_paced" ||
    s.reasonCode = some "backfill_capacity"

/-- The job ended without success. -/
def revertFailed (nowSecs : ℕ) (s : SyncJobStatus) (wal : PhoneWal) : PhoneWal :=
  if capacityLimited s then { wal with status := .miss, jobId := none }
  else countRetry nowSecs { wal with status := .miss, jobId := none }

def acknowledge (wal : PhoneWal) : PhoneWal := { wal with status := .synced, jobId := none }

/-- What a fetched status does to the members of its job. -/
def resolution (nowSecs : ℕ) (onDisk : String → Bool) : SyncJobFetch → PhoneWal → PhoneWal
  | .transient => id
  | .notFound => revertNotFound nowSecs onDisk
  | .ok s =>
    match syncJobTerminalPolicy s.status s.isTerminal with
    | .wait => id
    | .acknowledge => acknowledge
    | .retry => revertFailed nowSecs s

/-- The next job of the pass. Three are fetched at a time and resolved in their order. -/
def resolve (phone : WalSync) (fetch : SyncJobFetch) (onDisk : String → Bool) : WalSync :=
  match phone.pass with
  | none => phone
  | some ⟨_, []⟩ => { phone with pass := none }
  | some ⟨nowSecs, (_, members) :: rest⟩ =>
    { phone.update members (resolution nowSecs onDisk fetch) with pass := some ⟨nowSecs, rest⟩ }

end WalSync

/-! ### Runs -/

inductive UploadAction where
  | arrive (wal : PhoneWal)
  | syncAll (liveCaptureOnly : Bool) (nowSeconds : ℕ) (limited : Bool)
  | cancelSync
  | send (nowSeconds : ℕ) (onDisk : String → Bool)
  | answer (now : ℕ) (outcome : UploadOutcome)
  | reconcile (nowSecs : ℕ)
  | resolve (fetch : SyncJobFetch) (onDisk : String → Bool)

def WalSync.step (order : NewestFirst) (phone : WalSync) : UploadAction → WalSync
  | .arrive wal => { phone with wals := phone.wals ++ [wal] }
  | .syncAll liveCaptureOnly nowSeconds limited => phone.syncAll liveCaptureOnly nowSeconds limited
  | .cancelSync => { phone with isCancelled := true }
  | .send nowSeconds onDisk => phone.send order nowSeconds onDisk
  | .answer now outcome => phone.answer now outcome
  | .reconcile nowSecs => phone.reconcile nowSecs
  | .resolve fetch onDisk => phone.resolve fetch onDisk

/-! ### What the steps read and write -/

theorem WalSync.getElem?_update (phone : WalSync) (places : List ℕ) (change : PhoneWal → PhoneWal)
    (place : ℕ) :
    (phone.update places change).wals[place]? =
      (phone.wals[place]?).map fun wal => if places.contains place then change wal else wal := by
  simp [WalSync.update, List.getElem?_mapIdx]

theorem WalSync.mem_candidates {phone : WalSync} {drain : Drain} {entry : Entry} :
    entry ∈ phone.candidates drain ↔
      phone.wals[entry.2]? = some entry.1 ∧ entry.1.status = .miss ∧ entry.1.storage = .disk ∧
        entry.1.id ∉ drain.attemptedWalIds := by
  unfold WalSync.candidates
  rw [List.mem_filter, List.mem_zipIdx_iff_getElem?]
  simp [and_assoc]

theorem nextSyncUploadBatch_sublist {order : NewestFirst} {pending : List Entry} :
    (nextSyncUploadBatch order pending).Sublist (order.sort pending) := by
  unfold nextSyncUploadBatch
  split
  next hsort => exact List.nil_sublist _
  next first rest hsort =>
    rw [hsort]
    exact (List.take_sublist _ _).trans List.filter_sublist

theorem WalSync.mem_nextBatch {phone : WalSync} {order : NewestFirst} {drain : Drain} {nowSeconds : ℕ}
    {entry : Entry} (h : entry ∈ phone.nextBatch order drain nowSeconds) :
    entry ∈ phone.candidates drain := by
  have hpending := (order.perm _).mem_iff.mp (nextSyncUploadBatch_sublist.mem h)
  exact (List.mem_filter.mp hpending).1

/-- What a fetched status does leaves a recording's id. -/
@[simp] theorem WalSync.resolution_id (nowSecs : ℕ) (onDisk : String → Bool) (fetch : SyncJobFetch)
    (wal : PhoneWal) : (WalSync.resolution nowSecs onDisk fetch wal).id = wal.id := by
  cases fetch with
  | transient => rfl
  | notFound =>
    show (WalSync.revertNotFound nowSecs onDisk wal).id = wal.id
    unfold WalSync.revertNotFound
    split_ifs <;> rfl
  | ok status =>
    simp only [WalSync.resolution]
    cases syncJobTerminalPolicy status.status status.isTerminal with
    | wait => rfl
    | acknowledge => rfl
    | retry =>
      show (WalSync.revertFailed nowSecs status wal).id = wal.id
      unfold WalSync.revertFailed
      split_ifs <;> rfl

/-- An answer is for an upload under way. -/
theorem WalSync.answer_cases (phone : WalSync) (now : ℕ) (outcome : UploadOutcome) :
    phone.uploading = none ∧ phone.answer now outcome = phone ∨
    ∃ drain sent, phone.drain = some drain ∧ drain.uploading = some sent ∧
      (phone.answer now outcome).wals = (phone.answered now sent outcome).wals ∧
      (phone.answer now outcome).pass = (phone.answered now sent outcome).pass ∧
      ((phone.answer now outcome).drain = none ∨
        (phone.answer now outcome).drain = some { drain with uploading := none }) := by
  unfold WalSync.answer
  split
  next hdrain => exact .inl ⟨by rw [WalSync.uploading, hdrain]; rfl, rfl⟩
  next drain hdrain =>
    split
    next hidle => exact .inl ⟨by rw [WalSync.uploading, hdrain]; exact hidle, rfl⟩
    next sent hsent =>
      refine .inr ⟨drain, sent, hdrain, hsent, rfl, rfl, ?_⟩
      cases outcome with
      | rateLimited | quarantined => exact .inl rfl
      | completed | queued | recoveryWindowExceeded | failed => exact .inr rfl

/-- The pass is over, or its next job is resolved. -/
theorem WalSync.resolve_cases (phone : WalSync) (fetch : SyncJobFetch) (onDisk : String → Bool) :
    phone.resolve fetch onDisk = { phone with pass := none } ∨
    ∃ nowSecs jobId members rest, phone.pass = some ⟨nowSecs, (jobId, members) :: rest⟩ ∧
      phone.resolve fetch onDisk =
        { phone.update members (WalSync.resolution nowSecs onDisk fetch) with
          pass := some ⟨nowSecs, rest⟩ } := by
  unfold WalSync.resolve
  split
  next hpass =>
    refine .inl ?_
    rw [← hpass]
  next => exact .inl rfl
  next nowSecs jobId members rest hpass =>
    exact .inr ⟨nowSecs, jobId, members, rest, hpass, rfl⟩

/-- A turn is not for a drain that uploads, ends the drain, or forms a batch. -/
theorem WalSync.send_cases {phone : WalSync} {drain : Drain} (hdrain : phone.drain = some drain)
    (order : NewestFirst) (nowSeconds : ℕ) (onDisk : String → Bool) :
    phone.send order nowSeconds onDisk = phone ∨
    phone.send order nowSeconds onDisk = { phone with drain := none } ∨
    ∃ b missing, drain.uploading = none ∧ b = phone.formBatch order drain nowSeconds onDisk ∧
      missing = (b.batch.filter fun entry => !localFileExists onDisk entry.1).map Prod.snd ∧
      phone.send order nowSeconds onDisk =
        { phone.update missing markCorrupted with drain := some (drain.formed b) } := by
  simp only [WalSync.send, hdrain]
  by_cases huploading : drain.uploading.isSome = true
  · rw [if_pos huploading]
    exact .inl rfl
  · rw [if_neg huploading]
    by_cases hend : ((phone.formBatch order drain nowSeconds onDisk).batch.isEmpty ||
        phone.isCancelled) = true
    · rw [if_pos hend]
      exact .inr (.inl rfl)
    · rw [if_neg hend]
      exact .inr (.inr ⟨_, _, by simpa using huploading, rfl, rfl, rfl⟩)

theorem places_candidates_nodup (phone : WalSync) (drain : Drain) :
    ((phone.candidates drain).map Prod.snd).Nodup := by
  have hplaces : (phone.wals.zipIdx.map Prod.snd).Nodup := by
    rw [List.zipIdx_map_snd]
    exact List.nodup_range' 1
  exact hplaces.sublist (List.filter_sublist.map Prod.snd)

end Omi.Wals
