import Mathlib
import Omi.Foundation.StableSort
import Omi.Foundation.Table
import Omi.Frames.Request

/-! The frame-request documents of one account, and the transactions on them. -/
namespace Omi.Frames
open Omi.Foundation

/-- A cleanup receipt. Its document is named by a digest of the storage id, for which the id
itself stands. `createTime` is the store's own: updates keep it, a deleted and new document
has another. -/
structure Receipt where
  storageId : String
  requestId : String
  cleanupState : FrameRequestCleanupState := .pending
  cleanupAttempts : ℕ := 0
  cleanupNextAttemptAt : Option ℤ
  createdAt : ℤ
  kind : Option String := none
  createTime : ℕ := 0
deriving DecidableEq

structure Conversation where
  dataProtectionLevel : Option String := none
  hasContent : Bool := false
  hasPhotos : Bool := false
deriving DecidableEq

structure ConversationPhoto where
  id : String
  storageId : Option String := none
  contentType : Option String := none
  createdAt : ℤ := 0
  dataProtectionLevel : String := "standard"
deriving DecidableEq

/-- What lies under `users/{uid}`: the rows, the receipts, the conversations and, by
conversation, their photos. -/
structure FrameAccount where
  requests : Table FrameRequest := []
  receipts : Table Receipt := []
  conversations : Table Conversation := []
  photos : Table (Table ConversationPhoto) := []
  nextCreateTime : ℕ := 0
deriving DecidableEq

namespace FrameAccount

def photo (a : FrameAccount) (conversationId photoId : String) : Option ConversationPhoto :=
  (a.photos.get conversationId).bind (·.get photoId)

def setPhoto (a : FrameAccount) (conversationId photoId : String) (photo : ConversationPhoto) :
    Table (Table ConversationPhoto) :=
  a.photos.set conversationId (((a.photos.get conversationId).getD []).set photoId photo)

/-- `query.limit(limit).stream()`. -/
def query (a : FrameAccount) (limit : ℕ) (condition : FrameRequest → Bool) :
    List FrameRequest :=
  ((a.requests.map Prod.snd).filter condition).take limit

/-- `_request_from_snapshot(ref.get(transaction))` of a row that has to be there. -/
def read (a : FrameAccount) (requestId : String) : Except FrameError FrameRequest :=
  match a.requests.get requestId with
  | none => .error (.key "frame request not found")
  | some row => row.parse

end FrameAccount

/-- `update` with the `exclude_none` dump of the candidate: a field that it has not keeps its
old value. -/
def FrameRequest.updatedBy (row candidate : FrameRequest) : FrameRequest :=
  { candidate with
    conversationId := candidate.conversationId <|> row.conversationId
    screenshotId := candidate.screenshotId <|> row.screenshotId
    claimedAt := candidate.claimedAt <|> row.claimedAt
    uploadedAt := candidate.uploadedAt <|> row.uploadedAt
    attachedAt := candidate.attachedAt <|> row.attachedAt
    terminalReason := candidate.terminalReason <|> row.terminalReason
    contentType := candidate.contentType <|> row.contentType
    storageId := candidate.storageId <|> row.storageId
    cleanupNextAttemptAt := candidate.cleanupNextAttemptAt <|> row.cleanupNextAttemptAt }

namespace FrameAccount

/-- `transaction.update(ref, _request_data(candidate))`. -/
def update (a : FrameAccount) (requestId : String) (candidate : FrameRequest) : FrameAccount :=
  match a.requests.get requestId with
  | none => a
  | some row => { a with requests := a.requests.set requestId (row.updatedBy candidate) }

/-- `set` without merge: a document that is there keeps its create time. -/
def setReceipt (a : FrameAccount) (receipt : Receipt) : FrameAccount :=
  match a.receipts.get receipt.storageId with
  | some old =>
    { a with
      receipts := a.receipts.set receipt.storageId { receipt with createTime := old.createTime } }
  | none =>
    { a with
      receipts := a.receipts.set receipt.storageId { receipt with createTime := a.nextCreateTime }
      nextCreateTime := a.nextCreateTime + 1 }

def deleteReceipt (a : FrameAccount) (storageId : String) : FrameAccount :=
  { a with receipts := a.receipts.erase storageId }

end FrameAccount

/-! ### Enqueue -/

structure EnqueueCall where
  deviceId : String
  dedupeKey : String
  conversationId : Option String := none
  screenshotId : Option String := none
  accountGeneration : ℤ := 0
  requestedTtlSeconds : Option ℤ := none
  deviceRetentionSeconds : Option ℤ := none
  now : ℤ

section enqueue
variable (digest : String → String)

def dedupeIdentity (call : EnqueueCall) : String :=
  digest ("\x00".intercalate
    [strip call.dedupeKey, call.conversationId.getD "", call.screenshotId.getD ""])

/-- `int(created.timestamp()) // FRAME_REQUEST_DEDUPE_WINDOW_SECONDS`. -/
def dedupeWindow (call : EnqueueCall) : ℤ :=
  call.now.tdiv 1000000 / frameRequestDedupeWindowSeconds

def newRequestId (call : EnqueueCall) (attemptNumber : ℤ) : String :=
  "frame-" ++ digest
    s!"{dedupeIdentity digest call}:{call.accountGeneration}:{dedupeWindow call}:{attemptNumber}"

/-- The row that `enqueue_frame_request` creates. -/
def newRequest (uid : String) (call : EnqueueCall) (attemptNumber expiresAt : ℤ) :
    Except FrameError FrameRequest :=
  FrameRequest.parse
    { requestId := newRequestId digest call attemptNumber
      uid := strip uid
      deviceId := strip call.deviceId
      accountGeneration := call.accountGeneration
      dedupeKey := dedupeIdentity digest call
      dedupeWindow := dedupeWindow call
      attemptNumber := attemptNumber
      conversationId := call.conversationId
      screenshotId := call.screenshotId
      createdAt := call.now
      expiresAt := expiresAt }

/-- The earlier attempts of one identity, the latest first. -/
def FrameAccount.attempts (a : FrameAccount) (call : EnqueueCall) :
    Except FrameError (List FrameRequest) :=
  ((sortBy (fun r => -r.attemptNumber)
    ((a.requests.map Prod.snd).filter fun r =>
      r.deviceId = strip call.deviceId && r.accountGeneration = call.accountGeneration &&
        r.dedupeKey = dedupeIdentity digest call)).take frameRequestMaxBatch).mapM
    FrameRequest.parse

/-- The conversation has no row that is active or attached. -/
def FrameAccount.checkConversationFree (a : FrameAccount) (conversationId : Option String) :
    Except FrameError Unit := do
  let conversationRows ← (a.query (frameRequestMaxAttachedPerConversation + 1) fun r =>
    r.conversationId = conversationId && (!r.state.terminal || r.state = .attached)).mapM
      FrameRequest.parse
  check conversationRows.isEmpty (.value "conversation already has an active frame request")

def FrameAccount.activeRows (a : FrameAccount) (deviceId : String) (accountGeneration : ℤ) :
    Except FrameError (List FrameRequest) :=
  (a.query frameRequestMaxBatch fun r =>
    r.deviceId = deviceId && r.accountGeneration = accountGeneration && !r.state.terminal).mapM
      FrameRequest.parse

/-- The second half of `_create`, where no attempt is alive. -/
def FrameAccount.createRequest (a : FrameAccount) (uid : String) (call : EnqueueCall)
    (attempts : List FrameRequest) (expiresAt : ℤ) :
    Except FrameError (FrameRequest × FrameAccount) := do
  bif truthy call.conversationId then a.checkConversationFree call.conversationId else .ok ()
  let attemptNumber := (attempts.map FrameRequest.attemptNumber).foldl max (-1) + 1
  let request ← newRequest digest uid call attemptNumber expiresAt
  let existingRows ← a.activeRows (strip call.deviceId) call.accountGeneration
  let quota := checkDeviceQuota existingRows (strip uid) (strip call.deviceId) call.now 0
  check quota.allowed (.value s!"frame request quota exceeded: {quota.reason}")
  check (a.requests.get (newRequestId digest call attemptNumber)).isNone .alreadyExists
  .ok (request, { a with
    requests := a.requests.set (newRequestId digest call attemptNumber) request })

def FrameAccount.enqueue (a : FrameAccount) (uid : String) (call : EnqueueCall) :
    Except FrameError ((FrameRequest × Bool) × FrameAccount) := do
  check (strip uid ≠ "" && strip call.deviceId ≠ "" && strip call.dedupeKey ≠ "")
    (.value "uid, device_id, and dedupe_key are required")
  check (0 ≤ call.accountGeneration) (.value "account_generation must be nonnegative")
  let expiresAt ← requestExpiry call.now call.requestedTtlSeconds call.deviceRetentionSeconds
  let attempts ← a.attempts digest call
  match attempts.find? fun r => !r.state.terminal && !isExpired r call.now with
  | some existing => .ok ((existing, true), a)
  | none => do
    let (request, a) ← a.createRequest digest uid call attempts expiresAt
    .ok ((request, false), a)

end enqueue

/-! ### Transitions -/

structure TransitionCall where
  nextState : FrameRequestState
  deviceId : String
  accountGeneration : ℤ
  terminalReason : Option String := none
  storageId : Option String := none
  byteCount : ℤ := 0
  contentType : Option String := none
  now : ℤ

/-- The checks of `_transition` on its own arguments. -/
def checkTransitionArguments (request : FrameRequest) (call : TransitionCall) :
    Except FrameError Unit := do
  check (0 ≤ call.byteCount && call.byteCount ≤ 10 * 1024 * 1024)
    (.value "frame upload exceeds the bounded byte limit")
  check (!(call.nextState ≠ .uploaded && call.byteCount ≠ 0))
    (.value "byte_count is only valid when uploading a frame")
  check (!(call.nextState ≠ .uploaded && (truthy call.storageId || truthy call.contentType)))
    (.value "storage metadata is only valid when uploading a frame")
  check (!(call.nextState = .uploaded && !truthy call.storageId))
    (.value "uploaded frame requests require storage_id")
  check (!(call.nextState.terminal && call.nextState ≠ .attached && !truthy call.terminalReason))
    (.value "terminal frame requests require a bounded reason")
  check (!(!call.nextState.terminal && truthy call.terminalReason))
    (.value "active frame requests must not carry a terminal reason")
  check (!(call.nextState = .attached && !truthy request.conversationId))
    (.value "only conversation-bound requests may be attached")
  check (!(call.nextState = .attached &&
      (truthy call.storageId || call.byteCount ≠ 0 || truthy call.contentType)))
    (.value "attached transition cannot replace upload metadata")

/-- The byte quota of the device, with the bytes of this upload. -/
def FrameAccount.checkUploadQuota (a : FrameAccount) (uid : String) (call : TransitionCall) :
    Except FrameError Unit := do
  let activeRows ← a.activeRows call.deviceId call.accountGeneration
  let quota := checkDeviceQuota activeRows uid call.deviceId call.now call.byteCount
  check (quota.pendingBytes + call.byteCount ≤ frameRequestMaxBytesPerDevice)
    (.value "frame request quota exceeded: pending_bytes")

/-- `{**_request_data(request), **update}` of `_transition`. -/
def transitionPayload (request : FrameRequest) (call : TransitionCall) : FrameRequest :=
  let update := { request with state := call.nextState, terminalReason := call.terminalReason }
  match call.nextState with
  | .requested => update
  | .claimed => { update with claimedAt := some call.now }
  | .uploaded =>
    { update with
      uploadedAt := some call.now
      storageId := call.storageId
      byteCount := call.byteCount
      contentType := call.contentType
      cleanupState := .pending
      cleanupNextAttemptAt := some call.now }
  | .attached =>
    { update with
      attachedAt := some call.now
      expiresAt := request.createdAt
      cleanupState := .permanent }
  | .offline | .pruned | .failed | .expired | .cancelled =>
    bif truthy request.storageId then
      { update with cleanupState := .pending, cleanupNextAttemptAt := some call.now }
    else update

/-- `transition_frame_request`. -/
def FrameAccount.transition (a : FrameAccount) (uid requestId : String) (call : TransitionCall) :
    Except FrameError (FrameRequest × FrameAccount) := do
  let request ← a.read requestId
  validateTransition request call.nextState uid call.deviceId call.accountGeneration call.now
  checkTransitionArguments request call
  bif call.nextState = .uploaded then a.checkUploadQuota uid call else .ok ()
  let candidate ← (transitionPayload request call).parse
  .ok (candidate, a.update requestId candidate)

/-! ### Promotion -/

structure AttachCall where
  deviceId : String
  accountGeneration : ℤ
  conversationId : String
  permanentStorageId : String
  now : ℤ

/-- No other row of the conversation is attached, and its bytes suffice. -/
def FrameAccount.checkAttachBudget (a : FrameAccount) (requestId : String)
    (request : FrameRequest) (conversationId : String) : Except FrameError Unit := do
  let attachedRows ← (a.query (frameRequestMaxAttachedPerConversation + 1) fun r =>
    r.conversationId = some conversationId && r.state = .attached).mapM FrameRequest.parse
  check (!attachedRows.any (·.requestId ≠ requestId))
    (.value "conversation already has permanent frame evidence")
  check ((attachedRows.map FrameRequest.byteCount).sum + request.byteCount ≤
      frameRequestMaxBytesPerConversation)
    (.value "conversation frame evidence byte budget exceeded")

/-- The photo of the request: the one that is there, or a new one. -/
def FrameAccount.photosWith (a : FrameAccount) (requestId : String) (request : FrameRequest)
    (conversation : Conversation) (call : AttachCall) :
    Except FrameError (Table (Table ConversationPhoto)) :=
  match a.photo call.conversationId requestId with
  | some existing => do
    check (existing.storageId = some call.permanentStorageId)
      (.value "conversation photo id is already used")
    .ok a.photos
  | none =>
    .ok (a.setPhoto call.conversationId requestId
      { id := request.requestId
        storageId := some call.permanentStorageId
        contentType := request.contentType
        createdAt := request.createdAt
        dataProtectionLevel := conversation.dataProtectionLevel.getD "standard" })

/-- `{**_request_data(request), ...}` of `_attach`. -/
def attachPayload (request : FrameRequest) (call : AttachCall) : FrameRequest :=
  { request with
    state := .attached
    attachedAt := some call.now
    expiresAt := request.createdAt
    cleanupState := .permanent
    cleanupNextAttemptAt := none
    storageId := some call.permanentStorageId }

/-- The writes of `_attach` on an uploaded row. -/
def FrameAccount.attachUploaded (a : FrameAccount) (requestId : String) (request : FrameRequest)
    (call : AttachCall) : Except FrameError (FrameRequest × FrameAccount) := do
  check (request.state = .uploaded && truthy request.storageId)
    (.value "only uploaded frame requests may be promoted")
  let conversation ← (a.conversations.get call.conversationId).elim
    (.error (.key "conversation not found")) .ok
  a.checkAttachBudget requestId request call.conversationId
  let photos ← a.photosWith requestId request conversation call
  let candidate ← (attachPayload request call).parse
  let written := { a with
    photos := photos
    conversations := a.conversations.set call.conversationId
      { conversation with hasContent := true, hasPhotos := true } }
  .ok (candidate, (written.update requestId candidate).deleteReceipt call.permanentStorageId)

/-- `attach_frame_request_to_conversation`. -/
def FrameAccount.attach (a : FrameAccount) (uid requestId : String) (call : AttachCall) :
    Except FrameError (FrameRequest × FrameAccount) := do
  check (!isBlank call.conversationId && !isBlank call.permanentStorageId)
    (.value "conversation_id and permanent_storage_id are required")
  let request ← a.read requestId
  check (request.ownedBy uid call.deviceId call.accountGeneration)
    (.permission "frame request owner or account generation mismatch")
  check (request.conversationId = some call.conversationId)
    (.permission "conversation ownership mismatch")
  bif request.state = .attached then do
    check (request.storageId = some call.permanentStorageId)
      (.value "attached frame uses a different permanent object")
    .ok (request, a.deleteReceipt call.permanentStorageId)
  else a.attachUploaded requestId request call

/-- `reserve_frame_promotion_copy`, outside any transaction. -/
def FrameAccount.reservePromotionCopy (a : FrameAccount)
    (requestId permanentStorageId : String) (now : ℤ) : Except FrameError FrameAccount := do
  check (!isBlank requestId && !isBlank permanentStorageId)
    (.value "promotion receipt identities are required")
  .ok (a.setReceipt
    { storageId := permanentStorageId
      requestId := requestId
      cleanupNextAttemptAt := some (now + seconds 3600)
      createdAt := now
      kind := some "promotion_copy" })

/-! ### Expiry and ambiguous uploads -/

def prunePayload (request : FrameRequest) (now : ℤ) : FrameRequest :=
  { request with
    state := .pruned
    terminalReason := some "retention_expired"
    cleanupState := bif truthy request.storageId then .pending else .notRequired
    cleanupNextAttemptAt := some now }

/-- `_prune_one`, the transaction of `prune_expired_frame_requests` on one row. -/
def FrameAccount.pruneOne (a : FrameAccount) (requestId : String) (now : ℤ) :
    Except FrameError (Bool × FrameAccount) :=
  match a.requests.get requestId with
  | none => .ok (false, a)
  | some row => do
    let request ← row.parse
    bif request.state = .attached || !isExpired request now then .ok (false, a)
    else do
      let candidate ← (prunePayload request now).parse
      .ok (true, a.update requestId candidate)

structure ReconcileCall where
  deviceId : String
  accountGeneration : ℤ
  storageId : String
  now : ℤ

/-- `ensure_orphan_receipt`. -/
def FrameAccount.ensureReceipt (a : FrameAccount) (requestId : String) (call : ReconcileCall) :
    FrameAccount :=
  match a.receipts.get call.storageId with
  | some _ => a
  | none =>
    a.setReceipt
      { storageId := call.storageId
        requestId := requestId
        cleanupNextAttemptAt := some call.now
        createdAt := call.now }

def reconcilePayload (request : FrameRequest) : FrameRequest :=
  { request with state := .failed, terminalReason := some "upload_commit_ambiguous" }

/-- `reconcile_ambiguous_frame_upload`. -/
def FrameAccount.reconcile (a : FrameAccount) (uid requestId : String) (call : ReconcileCall) :
    Except FrameError (Option FrameRequest × FrameAccount) :=
  match a.requests.get requestId with
  | none => .ok (none, a.ensureReceipt requestId call)
  | some row => do
    let request ← row.parse
    bif !request.ownedBy uid call.deviceId call.accountGeneration then
      .ok (none, a.ensureReceipt requestId call)
    else bif request.storageId = some call.storageId then .ok (some request, a)
    else bif request.state.terminal || truthy request.storageId then
      .ok (some request, a.ensureReceipt requestId call)
    else do
      let candidate ← (reconcilePayload request).parse
      .ok (some candidate, (a.ensureReceipt requestId call).update requestId candidate)

end Omi.Frames
