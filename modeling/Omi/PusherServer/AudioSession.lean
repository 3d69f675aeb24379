import Mathlib
import Omi.Foundation.Runs

/-! The audio of one pusher connection: its receive loop, the private-cloud worker and the
audio-bytes worker, which share a budget of bytes. Audio bytes are of any type. -/
namespace Omi.PusherServer
open Omi.Foundation

/-! ### The budget and the queues -/

def privateCloudQueueMaxSize : ℕ := 20
def privateCloudPendingMaxConversations : ℕ := privateCloudQueueMaxSize
def bufferedAudioMaxBytes : ℕ := 20 * 1024 * 1024
def privateCloudChunkDuration : ℕ := 60
def privateCloudBatchMaxAge : ℚ := 60
def privateCloudSyncMaxRetries : ℕ := 3
def audioBytesQueueWarnSize : ℕ := 20
def audioBytesTriggerDelaySeconds : ℤ := 4

structure ByteBudget where
  limit : ℕ
  used : ℕ := 0

def ByteBudget.reserve (budget : ByteBudget) (size : ℕ) : Option ByteBudget :=
  if budget.limit < budget.used + size then none
  else some { budget with used := budget.used + size }

def ByteBudget.release (budget : ByteBudget) (size : ℕ) : ByteBudget :=
  { budget with used := budget.used - size }

/-- What `append_bounded` leaves: the queue, the item it removed, and the budget. -/
structure Appended (ι : Type*) where
  queue : List ι
  removed : Option ι
  budget : ByteBudget

def appendBounded {ι : Type*} (maxlen : ℕ) (sizeOf : ι → ℕ) (queue : List ι) (item : ι)
    (budget : ByteBudget) : Appended ι :=
  if queue.length = maxlen then
    { queue := queue.tail ++ [item]
      removed := queue.head?
      budget := budget.release ((queue.head?.map sizeOf).getD 0) }
  else { queue := queue ++ [item], removed := none, budget := budget }

/-- `extend_bounded`: the buffer and the budget, or a refusal. -/
def extendBounded {β : Type*} (buffer data : List β) (budget : ByteBudget) :
    Option (List β × ByteBudget) :=
  (budget.reserve data.length).map fun budget => (buffer ++ data, budget)

/-! ### The state -/

structure PrivateCloudChunk (β : Type*) where
  data : List β
  conversationId : String
  timestamp : ℚ

structure PendingBatch (β : Type*) extends PrivateCloudChunk β where
  queuedAt : ℚ
  retries : ℕ

inductive AudioBytesKind where
  | app
  | webhook

structure AudioBytesQueueItem (β : Type*) where
  kind : AudioBytesKind
  sampleRate : ℕ
  data : List β

/-- The batch that is being flushed, and whether its upload is done. -/
structure Flush (β : Type*) where
  batch : PendingBatch β
  stored : Bool

/-- What happens to the private-cloud audio of a conversation. `refused` carries the budget's
use, the evictions how many entries were there, `failed` the batch's retries so far. -/
inductive CloudEvent (β : Type*) where
  | received (conversationId : String) (data : List β)
  | unsynced (conversationId : String) (data : List β)
  | refused (conversationId : String) (data : List β) (used : ℕ)
  | evicted (conversationId : String) (data : List β) (entries : ℕ)
  | pendingEvicted (conversationId : String) (data : List β) (entries : ℕ)
  | uploaded (conversationId : String) (data : List β)
  | failed (conversationId : String) (data : List β) (retries : ℕ)
  | gone (conversationId : String)
  | skipped (conversationId : String) (data : List β)

/-- What the accept of the connection reads about its user. -/
structure PusherSession where
  sampleRate : ℕ
  hasAudioAppsEnabled : Bool
  audioBytesWebhookDelaySeconds : Option ℤ
  privateCloudSyncEnabled : Bool

structure AudioWorld (β : Type*) where
  websocketActive : Bool := true
  budget : ByteBudget := { limit := bufferedAudioMaxBytes }
  audiobuffer : List β := []
  triggerAudiobuffer : List β := []
  privateCloudSyncBuffer : List β := []
  privateCloudChunkStartTime : Option ℚ := none
  currentConversationId : Option String := none
  privateCloudQueue : List (PrivateCloudChunk β) := []
  audioBytesQueue : List (AudioBytesQueueItem β) := []
  pending : List (PendingBatch β) := []
  deletedConversations : List String := []
  convIdsToFlush : List String := []
  flushing : Option (Flush β) := none
  processing : List (AudioBytesQueueItem β) := []
  log : List (CloudEvent β) := []

/-- A frame of the connection, as its header and its payload parse. -/
inductive Frame (β : Type*) where
  | heartbeat
  | conversation (conversationId : String)
  | audio (timestamp : ℚ) (data : List β)
  | other

/-- How the calls after a successful upload end: the conversation's audio files were updated, it
is gone, or something else (no files, or an exception that is caught). -/
inductive FlushEnd where
  | applied
  | gone
  | other

namespace AudioWorld
variable {β : Type*} (session : PusherSession) (world : AudioWorld β)

def record (event : CloudEvent β) : AudioWorld β :=
  { world with log := world.log ++ [event] }

/-! ### The receive loop -/

/-- `current_conversation_id`, where it is true. -/
def conversation : Option String :=
  world.currentConversationId.filter (· ≠ "")

def chunkSize (chunk : PrivateCloudChunk β) : ℕ := chunk.data.length

/-- The private-cloud buffer goes to the queue as a chunk. -/
def queueChunk (conversationId : String) (timestamp : ℚ) : AudioWorld β :=
  let appended := appendBounded privateCloudQueueMaxSize chunkSize world.privateCloudQueue
    ⟨world.privateCloudSyncBuffer, conversationId, timestamp⟩ world.budget
  { world with
    privateCloudQueue := appended.queue
    budget := appended.budget
    log := world.log ++ (appended.removed.map fun chunk =>
      CloudEvent.evicted chunk.conversationId chunk.data world.privateCloudQueue.length).toList }

def resetPrivateBuffer : AudioWorld β :=
  { world with privateCloudSyncBuffer := [], privateCloudChunkStartTime := none }

/-- `private_cloud_chunk_start_time or time.time()`. -/
def chunkTimestamp (now : ℚ) : ℚ :=
  (world.privateCloudChunkStartTime.filter (· ≠ 0)).getD now

/-- The conversation whose private-cloud buffer holds something. -/
def bufferedConversation : Option String :=
  if session.privateCloudSyncEnabled ∧ world.privateCloudSyncBuffer.length > 0 then
    world.conversation
  else none

/-- A conversation frame. -/
def receiveConversation (newConversationId : String) (now : ℚ) : AudioWorld β :=
  match world.bufferedConversation session with
  | some current =>
    if current = newConversationId then
      { world with currentConversationId := some newConversationId }
    else
      { (world.queueChunk current (world.chunkTimestamp now)).resetPrivateBuffer with
        currentConversationId := some newConversationId }
  | none => { world with currentConversationId := some newConversationId }

def extendTrigger (data : List β) : AudioWorld β :=
  if session.hasAudioAppsEnabled then
    match extendBounded world.triggerAudiobuffer data world.budget with
    | some (buffer, budget) => { world with triggerAudiobuffer := buffer, budget := budget }
    | none => world
  else world

def extendWebhook (data : List β) : AudioWorld β :=
  if session.audioBytesWebhookDelaySeconds.isSome then
    match extendBounded world.audiobuffer data world.budget with
    | some (buffer, budget) => { world with audiobuffer := buffer, budget := budget }
    | none => world
  else world

/-- The private-cloud buffer takes the data of a frame, or the budget refuses them. -/
def extendPrivate (conversationId : String) (timestamp : ℚ) (data : List β) : AudioWorld β :=
  let started : AudioWorld β := { world with
    privateCloudChunkStartTime := world.privateCloudChunkStartTime <|> some timestamp }
  match extendBounded world.privateCloudSyncBuffer data world.budget with
  | some (buffer, budget) => { started with privateCloudSyncBuffer := buffer, budget := budget }
  | none => started.record (.refused conversationId data world.budget.used)

/-- A buffer of `PRIVATE_CLOUD_CHUNK_DURATION` seconds becomes a chunk. -/
def queueFullChunk (conversationId : String) (timestamp : ℚ) : AudioWorld β :=
  if session.sampleRate * 2 * privateCloudChunkDuration ≤ world.privateCloudSyncBuffer.length then
    (world.queueChunk conversationId
      (world.privateCloudChunkStartTime.getD timestamp)).resetPrivateBuffer
  else world

def receivePrivate (timestamp : ℚ) (data : List β) : AudioWorld β :=
  match world.conversation with
  | some conversationId =>
    let heard := world.record (.received conversationId data)
    if session.privateCloudSyncEnabled then
      (heard.extendPrivate conversationId timestamp data).queueFullChunk session conversationId
        timestamp
    else heard.record (.unsynced conversationId data)
  | none => world

def itemSize (item : AudioBytesQueueItem β) : ℕ := item.data.length

def queueItem (kind : AudioBytesKind) (data : List β) : AudioWorld β :=
  let appended := appendBounded audioBytesQueueWarnSize itemSize world.audioBytesQueue
    ⟨kind, session.sampleRate, data⟩ world.budget
  { world with audioBytesQueue := appended.queue, budget := appended.budget }

def queueTrigger : AudioWorld β :=
  if session.hasAudioAppsEnabled ∧ session.sampleRate * audioBytesTriggerDelaySeconds * 2 <
      (world.triggerAudiobuffer.length : ℤ) then
    { world.queueItem session .app world.triggerAudiobuffer with triggerAudiobuffer := [] }
  else world

def queueWebhook : AudioWorld β :=
  if session.audioBytesWebhookDelaySeconds.any fun delay =>
      session.sampleRate * delay * 2 < (world.audiobuffer.length : ℤ) then
    { world.queueItem session .webhook world.audiobuffer with audiobuffer := [] }
  else world

/-- An audio frame. -/
def receiveAudio (timestamp : ℚ) (data : List β) : AudioWorld β :=
  let extended := (world.extendTrigger session data).extendWebhook session data
  ((extended.receivePrivate session timestamp data).queueTrigger session).queueWebhook session

def receive (frame : Frame β) (now : ℚ) : AudioWorld β :=
  match frame with
  | .conversation conversationId => world.receiveConversation session conversationId now
  | .audio timestamp data => world.receiveAudio session timestamp data
  | .heartbeat | .other => world

/-- The end of the receive loop, whatever ended it. -/
def close (now : ℚ) : AudioWorld β :=
  match world.bufferedConversation session with
  | some current =>
    { world.queueChunk current (world.chunkTimestamp now) with websocketActive := false }
  | none => { world with websocketActive := false }

/-! ### The private-cloud worker -/

def keys : List String := world.pending.map fun batch => batch.conversationId

/-- `bound_private_pending`. -/
def boundPrivatePending : AudioWorld β :=
  if world.pending.length < privateCloudPendingMaxConversations then world
  else match world.pending with
    | [] => world
    | oldest :: rest =>
      { world with
        pending := rest
        budget := world.budget.release oldest.data.length
        log := world.log ++
          [.pendingEvicted oldest.conversationId oldest.data world.pending.length] }

/-- The batch of a conversation is extended. -/
def extendBatch (conversationId : String) (data : List β) : AudioWorld β :=
  { world with
    pending := world.pending.map fun batch =>
      if batch.conversationId = conversationId then { batch with data := batch.data ++ data }
      else batch }

def openBatch (chunk : PrivateCloudChunk β) (monotonic : ℚ) : AudioWorld β :=
  if chunk.conversationId ∈ world.keys then world
  else
    let bounded := world.boundPrivatePending
    { bounded with
      pending := bounded.pending ++
        [⟨⟨[], chunk.conversationId, chunk.timestamp⟩, monotonic, 0⟩] }

def addToBatch (chunk : PrivateCloudChunk β) (monotonic : ℚ) : AudioWorld β :=
  if chunk.conversationId ∈ world.deletedConversations then
    { world with
      budget := world.budget.release chunk.data.length
      log := world.log ++ [.skipped chunk.conversationId chunk.data] }
  else (world.openBatch chunk monotonic).extendBatch chunk.conversationId chunk.data

def flushReady (monotonic : ℚ) (batch : PendingBatch β) : Bool :=
  !world.websocketActive ||
    session.sampleRate * 2 * privateCloudChunkDuration ≤ batch.data.length ||
    decide (privateCloudBatchMaxAge ≤ monotonic - batch.queuedAt)

/-- One round of the worker's loop up to its first flush, if no flush of the last one is left:
the queue is drained, and the conversations to flush are determined. -/
def privateRound (monotonic : ℚ) : AudioWorld β :=
  if world.flushing.isSome ∨ world.convIdsToFlush ≠ [] then world
  else
    let drained := world.privateCloudQueue.foldl (fun world chunk => world.addToBatch chunk monotonic)
      { world with privateCloudQueue := [] }
    { drained with
      convIdsToFlush := (drained.pending.filter (drained.flushReady session monotonic)).map
        fun batch => batch.conversationId }

/-- `_flush_batch` up to the upload. -/
def startFlush : AudioWorld β :=
  if world.flushing.isSome then world
  else match world.convIdsToFlush with
    | [] => world
    | conversationId :: rest =>
      match world.pending.find? fun batch => batch.conversationId = conversationId with
      | none => { world with convIdsToFlush := rest }
      | some batch =>
        { world with
          convIdsToFlush := rest
          pending := world.pending.filter fun batch => batch.conversationId ≠ conversationId
          flushing := if batch.data.length = 0 then none else some ⟨batch, false⟩ }

/-- The upload returned. -/
def uploadStored : AudioWorld β :=
  match world.flushing with
  | some ⟨batch, false⟩ =>
    { world with
      flushing := some ⟨batch, true⟩
      log := world.log ++ [.uploaded batch.conversationId batch.data] }
  | _ => world

/-- The upload raised. -/
def uploadFailed (monotonic : ℚ) : AudioWorld β :=
  match world.flushing with
  | some ⟨batch, false⟩ =>
    let failed := world.record (.failed batch.conversationId batch.data batch.retries)
    if batch.retries < privateCloudSyncMaxRetries then
      { failed with
        flushing := none
        pending := world.pending ++ [{ batch with
          retries := batch.retries + 1
          queuedAt := if world.websocketActive then monotonic else 0 }] }
    else
      { failed with
        flushing := none
        budget := world.budget.release batch.data.length }
  | _ => world

/-- What follows a stored upload, up to the release of its bytes. -/
def finishFlush (ended : FlushEnd) : AudioWorld β :=
  match world.flushing with
  | some ⟨batch, true⟩ =>
    let released : AudioWorld β := { world with
      flushing := none
      budget := world.budget.release batch.data.length }
    match ended with
    | .gone =>
      { released with
        deletedConversations := batch.conversationId :: world.deletedConversations
        log := world.log ++ [.gone batch.conversationId] }
    | _ => released
  | _ => world

/-! ### The audio-bytes worker -/

/-- The queue is taken as a whole once the last batch is done. -/
def audioRound : AudioWorld β :=
  if world.processing ≠ [] then world
  else { world with processing := world.audioBytesQueue, audioBytesQueue := [] }

/-- An item is processed, well or not. -/
def itemProcessed : AudioWorld β :=
  match world.processing with
  | [] => world
  | item :: rest =>
    { world with processing := rest, budget := world.budget.release item.data.length }

end AudioWorld

inductive AudioAction (β : Type*) where
  | receive (frame : Frame β) (now : ℚ)
  | close (now : ℚ)
  | privateRound (monotonic : ℚ)
  | startFlush
  | uploadStored
  | uploadFailed (monotonic : ℚ)
  | finishFlush (ended : FlushEnd)
  | audioRound
  | itemProcessed

def AudioWorld.step {β : Type*} (session : PusherSession) (world : AudioWorld β) :
    AudioAction β → AudioWorld β
  | .receive frame now => if world.websocketActive then world.receive session frame now else world
  | .close now => if world.websocketActive then world.close session now else world
  | .privateRound monotonic => world.privateRound session monotonic
  | .startFlush => world.startFlush
  | .uploadStored => world.uploadStored
  | .uploadFailed monotonic => world.uploadFailed monotonic
  | .finishFlush ended => world.finishFlush ended
  | .audioRound => world.audioRound
  | .itemProcessed => world.itemProcessed

end Omi.PusherServer
