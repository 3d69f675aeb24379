import Omi.PusherServer.AudioSession

/-! The budget counts exactly the bytes that are held. -/
namespace Omi.PusherServer
open Omi.Foundation

/-- The bytes of a list of entries. -/
def totalSize {ι : Type*} (sizeOf : ι → ℕ) (entries : List ι) : ℕ :=
  (entries.map sizeOf).sum

section totals
variable {ι : Type*} {sizeOf : ι → ℕ}

@[simp] theorem totalSize_nil : totalSize sizeOf ([] : List ι) = 0 := rfl

@[simp] theorem totalSize_cons (entry : ι) (entries : List ι) :
    totalSize sizeOf (entry :: entries) = sizeOf entry + totalSize sizeOf entries := by
  simp [totalSize]

@[simp] theorem totalSize_append (front back : List ι) :
    totalSize sizeOf (front ++ back) = totalSize sizeOf front + totalSize sizeOf back := by
  simp [totalSize]

/-- An eviction releases what it removes. -/
theorem appendBounded_used {maxlen : ℕ} {queue : List ι} {item : ι} {budget : ByteBudget}
    {rest : ℕ} (h : budget.used = totalSize sizeOf queue + rest) :
    (appendBounded maxlen sizeOf queue item budget).budget.used + sizeOf item =
      totalSize sizeOf (appendBounded maxlen sizeOf queue item budget).queue + rest := by
  unfold appendBounded
  by_cases hfull : queue.length = maxlen
  · rw [if_pos hfull]
    cases queue with
    | nil =>
      simp [ByteBudget.release] at h ⊢
      omega
    | cons oldest queue =>
      simp [ByteBudget.release] at h ⊢
      omega
  · rw [if_neg hfull]
    simp
    omega

theorem appendBounded_limit {maxlen : ℕ} {queue : List ι} {item : ι} {budget : ByteBudget} :
    (appendBounded maxlen sizeOf queue item budget).budget.limit = budget.limit ∧
      (appendBounded maxlen sizeOf queue item budget).budget.used ≤ budget.used := by
  unfold appendBounded
  split_ifs
  · exact ⟨rfl, Nat.sub_le _ _⟩
  · exact ⟨rfl, le_rfl⟩

end totals

namespace AudioWorld
variable {β : Type*}

def batchSize (batch : PendingBatch β) : ℕ := batch.data.length

/-- The bytes in the buffer, the queue and the batches of the private cloud. -/
def cloudHeld (world : AudioWorld β) : ℕ :=
  (bif world.websocketActive then world.privateCloudSyncBuffer.length else 0) +
    totalSize chunkSize world.privateCloudQueue + totalSize batchSize world.pending +
    (world.flushing.map fun flush => flush.batch.data.length).getD 0

/-- The bytes in the other two buffers, the audio queue and the items being processed. -/
def audioHeld (world : AudioWorld β) : ℕ :=
  world.triggerAudiobuffer.length + world.audiobuffer.length +
    totalSize itemSize world.audioBytesQueue + totalSize itemSize world.processing

structure Accounted (world : AudioWorld β) : Prop where
  used : world.budget.used = world.cloudHeld + world.audioHeld
  bound : world.budget.used ≤ world.budget.limit
  limit : world.budget.limit = bufferedAudioMaxBytes

namespace Accounted
variable {world : AudioWorld β} {session : PusherSession}

theorem record (h : world.Accounted) (event : CloudEvent β) : (world.record event).Accounted :=
  ⟨h.used, h.bound, h.limit⟩

theorem extendBounded_some {buffer data next : List β} {budget after : ByteBudget}
    (h : extendBounded buffer data budget = some (next, after)) :
    next = buffer ++ data ∧ after.used = budget.used + data.length ∧
      after.used ≤ after.limit ∧ after.limit = budget.limit := by
  unfold extendBounded ByteBudget.reserve at h
  split_ifs at h with hfull
  · cases h
  · cases h
    exact ⟨rfl, rfl, not_lt.mp hfull, rfl⟩

theorem extendTrigger (h : world.Accounted) (data : List β) :
    (world.extendTrigger session data).Accounted := by
  unfold AudioWorld.extendTrigger
  split_ifs
  · cases hextend : extendBounded world.triggerAudiobuffer data world.budget with
    | none => exact h
    | some extended =>
      obtain ⟨hbuffer, hused, hbound, hlimit⟩ := extendBounded_some hextend
      refine ⟨?_, hbound, hlimit.trans h.limit⟩
      have hold := h.used
      simp only [cloudHeld, audioHeld, hbuffer, List.length_append] at hold ⊢
      omega
  · exact h

theorem extendWebhook (h : world.Accounted) (data : List β) :
    (world.extendWebhook session data).Accounted := by
  unfold AudioWorld.extendWebhook
  split_ifs
  · cases hextend : extendBounded world.audiobuffer data world.budget with
    | none => exact h
    | some extended =>
      obtain ⟨hbuffer, hused, hbound, hlimit⟩ := extendBounded_some hextend
      refine ⟨?_, hbound, hlimit.trans h.limit⟩
      have hold := h.used
      simp only [cloudHeld, audioHeld, hbuffer, List.length_append] at hold ⊢
      omega
  · exact h

theorem extendPrivate (h : world.Accounted) (hactive : world.websocketActive = true)
    (conversationId : String) (timestamp : ℚ) (data : List β) :
    (world.extendPrivate conversationId timestamp data).Accounted := by
  unfold AudioWorld.extendPrivate
  cases hextend : extendBounded world.privateCloudSyncBuffer data world.budget with
  | none => exact ⟨h.used, h.bound, h.limit⟩
  | some extended =>
    obtain ⟨hbuffer, hused, hbound, hlimit⟩ := extendBounded_some hextend
    refine ⟨?_, hbound, hlimit.trans h.limit⟩
    have hold := h.used
    simp only [cloudHeld, audioHeld, hactive, cond_true, hbuffer, List.length_append] at hold ⊢
    omega

/-- The bytes of a chunk that has been queued are counted in the queue, no more in the buffer. -/
theorem queueChunk_used (h : world.Accounted) (hactive : world.websocketActive = true)
    (conversationId : String) (timestamp : ℚ) :
    (world.queueChunk conversationId timestamp).budget.used =
      totalSize chunkSize (world.queueChunk conversationId timestamp).privateCloudQueue +
        totalSize batchSize world.pending +
        (world.flushing.map fun flush => flush.batch.data.length).getD 0 + world.audioHeld := by
  have hold := h.used
  simp only [cloudHeld, hactive, cond_true] at hold
  have hqueue : world.budget.used = totalSize chunkSize world.privateCloudQueue +
      (world.privateCloudSyncBuffer.length + totalSize batchSize world.pending +
        (world.flushing.map fun flush => flush.batch.data.length).getD 0 + world.audioHeld) := by
    omega
  have happend := @appendBounded_used _ chunkSize privateCloudQueueMaxSize
    world.privateCloudQueue ⟨world.privateCloudSyncBuffer, conversationId, timestamp⟩ _ _ hqueue
  simp only [AudioWorld.queueChunk]
  simp only [chunkSize] at happend ⊢
  omega

theorem queueChunk_bound (h : world.Accounted) (conversationId : String) (timestamp : ℚ) :
    (world.queueChunk conversationId timestamp).budget.used ≤
        (world.queueChunk conversationId timestamp).budget.limit ∧
      (world.queueChunk conversationId timestamp).budget.limit = bufferedAudioMaxBytes := by
  obtain ⟨hlimit, hused⟩ := @appendBounded_limit _ chunkSize privateCloudQueueMaxSize
    world.privateCloudQueue ⟨world.privateCloudSyncBuffer, conversationId, timestamp⟩ world.budget
  have hbound := h.bound
  have hlimit' := h.limit
  simp only [AudioWorld.queueChunk]
  omega

theorem resetQueued (h : world.Accounted) (hactive : world.websocketActive = true)
    (conversationId : String) (timestamp : ℚ) :
    (world.queueChunk conversationId timestamp).resetPrivateBuffer.Accounted := by
  obtain ⟨hbound, hlimit⟩ := h.queueChunk_bound conversationId timestamp
  refine ⟨?_, hbound, hlimit⟩
  have hused := h.queueChunk_used hactive conversationId timestamp
  simp only [cloudHeld, audioHeld, resetPrivateBuffer, AudioWorld.queueChunk, hactive, cond_true,
    List.length_nil] at hused ⊢
  omega

theorem closeQueued (h : world.Accounted) (hactive : world.websocketActive = true)
    (conversationId : String) (timestamp : ℚ) :
    ({ world.queueChunk conversationId timestamp with websocketActive := false } :
      AudioWorld β).Accounted := by
  obtain ⟨hbound, hlimit⟩ := h.queueChunk_bound conversationId timestamp
  refine ⟨?_, hbound, hlimit⟩
  have hused := h.queueChunk_used hactive conversationId timestamp
  simp only [cloudHeld, audioHeld, AudioWorld.queueChunk] at hused ⊢
  rw [cond_false]
  omega

theorem receiveConversation (h : world.Accounted) (hactive : world.websocketActive = true)
    (newConversationId : String) (now : ℚ) :
    (world.receiveConversation session newConversationId now).Accounted := by
  unfold AudioWorld.receiveConversation
  cases world.bufferedConversation session with
  | none => exact ⟨h.used, h.bound, h.limit⟩
  | some current =>
    by_cases hsame : current = newConversationId
    · simp only [if_pos hsame]
      exact ⟨h.used, h.bound, h.limit⟩
    · simp only [if_neg hsame]
      have hqueued := h.resetQueued hactive current (world.chunkTimestamp now)
      exact ⟨hqueued.used, hqueued.bound, hqueued.limit⟩

@[simp] theorem extendPrivate_active (conversationId : String) (timestamp : ℚ) (data : List β) :
    (world.extendPrivate conversationId timestamp data).websocketActive =
      world.websocketActive := by
  unfold AudioWorld.extendPrivate
  cases extendBounded world.privateCloudSyncBuffer data world.budget <;> rfl

theorem receivePrivate (h : world.Accounted) (hactive : world.websocketActive = true)
    (timestamp : ℚ) (data : List β) :
    (world.receivePrivate session timestamp data).Accounted := by
  unfold AudioWorld.receivePrivate
  cases world.conversation with
  | none => exact h
  | some conversationId =>
    have hheard := h.record (.received conversationId data)
    dsimp only
    split_ifs
    · have hextended := hheard.extendPrivate hactive conversationId timestamp data
      unfold AudioWorld.queueFullChunk
      split_ifs
      · exact hextended.resetQueued ((extendPrivate_active _ _ _).trans hactive) conversationId _
      · exact hextended
    · exact hheard.record _

theorem queueItem_used {buffered : ℕ} {world : AudioWorld β} {data : List β}
    (h : world.budget.used = totalSize itemSize world.audioBytesQueue + (data.length + buffered))
    (kind : AudioBytesKind) :
    (world.queueItem session kind data).budget.used =
      totalSize itemSize (world.queueItem session kind data).audioBytesQueue + buffered := by
  have happend := @appendBounded_used _ itemSize audioBytesQueueWarnSize world.audioBytesQueue
    ⟨kind, session.sampleRate, data⟩ _ _ h
  simp only [AudioWorld.queueItem]
  simp only [itemSize] at happend ⊢
  omega

theorem queueItem_bound (h : world.Accounted) (kind : AudioBytesKind) (data : List β) :
    (world.queueItem session kind data).budget.used ≤
        (world.queueItem session kind data).budget.limit ∧
      (world.queueItem session kind data).budget.limit = bufferedAudioMaxBytes := by
  obtain ⟨hlimit, hused⟩ := @appendBounded_limit _ itemSize audioBytesQueueWarnSize
    world.audioBytesQueue ⟨kind, session.sampleRate, data⟩ world.budget
  have hbound := h.bound
  have hlimit' := h.limit
  simp only [AudioWorld.queueItem]
  omega

theorem queueTrigger (h : world.Accounted) : (world.queueTrigger session).Accounted := by
  unfold AudioWorld.queueTrigger
  split_ifs
  · obtain ⟨hbound, hlimit⟩ := @queueItem_bound β world session h .app world.triggerAudiobuffer
    refine ⟨?_, hbound, hlimit⟩
    have hold := h.used
    simp only [audioHeld] at hold
    have hused := @queueItem_used β session
      (world.cloudHeld + world.audiobuffer.length + totalSize itemSize world.processing) world
      world.triggerAudiobuffer (by omega) .app
    have hcloud : ({ world.queueItem session .app world.triggerAudiobuffer with
        triggerAudiobuffer := [] } : AudioWorld β).cloudHeld = world.cloudHeld := rfl
    rw [hcloud, hused]
    simp only [audioHeld, AudioWorld.queueItem, List.length_nil]
    omega
  · exact h

theorem queueWebhook (h : world.Accounted) : (world.queueWebhook session).Accounted := by
  unfold AudioWorld.queueWebhook
  split_ifs
  · obtain ⟨hbound, hlimit⟩ := @queueItem_bound β world session h .webhook world.audiobuffer
    refine ⟨?_, hbound, hlimit⟩
    have hold := h.used
    simp only [audioHeld] at hold
    have hused := @queueItem_used β session
      (world.cloudHeld + world.triggerAudiobuffer.length + totalSize itemSize world.processing)
      world world.audiobuffer (by omega) .webhook
    have hcloud : ({ world.queueItem session .webhook world.audiobuffer with
        audiobuffer := [] } : AudioWorld β).cloudHeld = world.cloudHeld := rfl
    rw [hcloud, hused]
    simp only [audioHeld, AudioWorld.queueItem, List.length_nil]
    omega
  · exact h

end Accounted

@[simp] theorem extendTrigger_active {session : PusherSession} {world : AudioWorld β}
    (data : List β) : (world.extendTrigger session data).websocketActive =
      world.websocketActive := by
  unfold extendTrigger
  cases session.hasAudioAppsEnabled with
  | false => rfl
  | true => cases hextend : extendBounded world.triggerAudiobuffer data world.budget <;> simp

@[simp] theorem extendWebhook_active {session : PusherSession} {world : AudioWorld β}
    (data : List β) : (world.extendWebhook session data).websocketActive =
      world.websocketActive := by
  unfold extendWebhook
  cases session.audioBytesWebhookDelaySeconds with
  | none => rfl
  | some delay => cases hextend : extendBounded world.audiobuffer data world.budget <;> simp

theorem Accounted.receive {world : AudioWorld β} {session : PusherSession} (h : world.Accounted)
    (hactive : world.websocketActive = true) (frame : Frame β) (now : ℚ) :
    (world.receive session frame now).Accounted := by
  cases frame with
  | heartbeat => exact h
  | other => exact h
  | conversation conversationId => exact h.receiveConversation hactive conversationId now
  | audio timestamp data =>
    have hextended : ((world.extendTrigger session data).extendWebhook session data).Accounted :=
      (h.extendTrigger data).extendWebhook data
    exact ((hextended.receivePrivate (by simpa using hactive) timestamp data).queueTrigger).queueWebhook

end AudioWorld
end Omi.PusherServer
