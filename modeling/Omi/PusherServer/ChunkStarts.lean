import Mathlib
import Omi.PusherServer.Accounting

/-! Which start time a private-cloud chunk carries. The bytes of a connection are tagged with the
frame they come in, so that a chunk says from which frame its first byte is. -/
namespace Omi.PusherServer
open Omi.Foundation

/-- A byte with the timestamp of its frame and the conversation current when it came. -/
structure HeardByte (β : Type*) where
  byte : β
  timestamp : ℚ
  conversationId : String

namespace AudioWorld
variable {β : Type*} {session : PusherSession}

/-- The data of a frame, tagged. -/
def heardData (world : AudioWorld (HeardByte β)) (timestamp : ℚ) (data : List β) :
    List (HeardByte β) :=
  data.map fun byte => ⟨byte, timestamp, world.conversation.getD ""⟩

/-- The action with its audio data tagged. -/
def heardAction (world : AudioWorld (HeardByte β)) : AudioAction β → AudioAction (HeardByte β)
  | .receive (.audio timestamp data) now =>
    .receive (.audio timestamp (world.heardData timestamp data)) now
  | .receive (.conversation conversationId) now => .receive (.conversation conversationId) now
  | .receive .heartbeat now => .receive .heartbeat now
  | .receive .other now => .receive .other now
  | .close now => .close now
  | .privateRound monotonic => .privateRound monotonic
  | .startFlush => .startFlush
  | .uploadStored => .uploadStored
  | .uploadFailed monotonic => .uploadFailed monotonic
  | .finishFlush ended => .finishFlush ended
  | .audioRound => .audioRound
  | .itemProcessed => .itemProcessed

/-- A step of the connection on tagged bytes. -/
def heardStep (session : PusherSession) (world : AudioWorld (HeardByte β)) (action : AudioAction β) :
    AudioWorld (HeardByte β) :=
  world.step session (world.heardAction action)

/-- The chunk's bytes came while its conversation was current. -/
def FromOwnConversation (chunk : PrivateCloudChunk (HeardByte β)) : Prop :=
  ∀ byte ∈ chunk.data, byte.conversationId = chunk.conversationId

/-- The chunk's timestamp is that of the frame that contributed its first byte. -/
def StartsRight (chunk : PrivateCloudChunk (HeardByte β)) : Prop :=
  ∀ first ∈ chunk.data.head?, chunk.timestamp = first.timestamp

/-! ### What leaves the private-cloud buffer alone -/

/-- The receive loop's variables are the same, and nothing was put on the queue. -/
structure SameBuffer (world next : AudioWorld β) : Prop where
  active : next.websocketActive = world.websocketActive
  buffer : next.privateCloudSyncBuffer = world.privateCloudSyncBuffer
  start : next.privateCloudChunkStartTime = world.privateCloudChunkStartTime
  current : next.currentConversationId = world.currentConversationId
  queue : ∀ chunk ∈ next.privateCloudQueue, chunk ∈ world.privateCloudQueue

namespace SameBuffer
variable {world : AudioWorld β}

theorem refl (world : AudioWorld β) : SameBuffer world world :=
  ⟨rfl, rfl, rfl, rfl, fun _ => id⟩

theorem trans {middle next : AudioWorld β} (first : SameBuffer world middle)
    (second : SameBuffer middle next) : SameBuffer world next where
  active := second.active.trans first.active
  buffer := second.buffer.trans first.buffer
  start := second.start.trans first.start
  current := second.current.trans first.current
  queue := fun chunk hchunk => first.queue chunk (second.queue chunk hchunk)

theorem extendTrigger (data : List β) : SameBuffer world (world.extendTrigger session data) := by
  unfold AudioWorld.extendTrigger
  split_ifs
  · cases extendBounded world.triggerAudiobuffer data world.budget <;>
      exact ⟨rfl, rfl, rfl, rfl, fun _ => id⟩
  · exact refl world

theorem extendWebhook (data : List β) : SameBuffer world (world.extendWebhook session data) := by
  unfold AudioWorld.extendWebhook
  split_ifs
  · cases extendBounded world.audiobuffer data world.budget <;>
      exact ⟨rfl, rfl, rfl, rfl, fun _ => id⟩
  · exact refl world

theorem queueTrigger : SameBuffer world (world.queueTrigger session) := by
  unfold AudioWorld.queueTrigger
  split_ifs
  · exact ⟨rfl, rfl, rfl, rfl, fun _ => id⟩
  · exact refl world

theorem queueWebhook : SameBuffer world (world.queueWebhook session) := by
  unfold AudioWorld.queueWebhook
  split_ifs
  · exact ⟨rfl, rfl, rfl, rfl, fun _ => id⟩
  · exact refl world

theorem boundPrivatePending : SameBuffer world world.boundPrivatePending := by
  unfold AudioWorld.boundPrivatePending
  split_ifs
  · exact refl world
  · cases world.pending <;> exact ⟨rfl, rfl, rfl, rfl, fun _ => id⟩

theorem addToBatch (chunk : PrivateCloudChunk β) (monotonic : ℚ) :
    SameBuffer world (world.addToBatch chunk monotonic) := by
  unfold AudioWorld.addToBatch AudioWorld.openBatch
  split_ifs
  · exact ⟨rfl, rfl, rfl, rfl, fun _ => id⟩
  · exact ⟨rfl, rfl, rfl, rfl, fun _ => id⟩
  · have hbounded : SameBuffer world world.boundPrivatePending := boundPrivatePending
    exact hbounded.trans ⟨rfl, rfl, rfl, rfl, fun _ => id⟩

theorem drain (chunks : List (PrivateCloudChunk β)) (monotonic : ℚ) :
    SameBuffer world (chunks.foldl (fun world chunk => world.addToBatch chunk monotonic) world) := by
  induction chunks generalizing world with
  | nil => exact refl world
  | cons chunk rest ih => exact (addToBatch chunk monotonic).trans ih

theorem privateRound (monotonic : ℚ) : SameBuffer world (world.privateRound session monotonic) := by
  unfold AudioWorld.privateRound
  split_ifs
  · exact refl world
  · have hempty : SameBuffer world { world with privateCloudQueue := [] } :=
      ⟨rfl, rfl, rfl, rfl, fun _ hchunk => by cases hchunk⟩
    have hdrained := hempty.trans (drain world.privateCloudQueue monotonic)
    exact ⟨hdrained.active, hdrained.buffer, hdrained.start, hdrained.current, hdrained.queue⟩

theorem startFlush : SameBuffer world world.startFlush := by
  unfold AudioWorld.startFlush
  split_ifs
  · exact refl world
  · cases world.convIdsToFlush with
    | nil => exact refl world
    | cons conversationId rest =>
      dsimp only
      cases world.pending.find? fun batch => batch.conversationId = conversationId <;>
        exact ⟨rfl, rfl, rfl, rfl, fun _ => id⟩

theorem uploadStored : SameBuffer world world.uploadStored := by
  unfold AudioWorld.uploadStored
  rcases world.flushing with - | ⟨batch, - | -⟩ <;> exact ⟨rfl, rfl, rfl, rfl, fun _ => id⟩

theorem uploadFailed (monotonic : ℚ) : SameBuffer world (world.uploadFailed monotonic) := by
  unfold AudioWorld.uploadFailed
  rcases world.flushing with - | ⟨batch, - | -⟩
  · exact refl world
  · dsimp only
    split_ifs <;> exact ⟨rfl, rfl, rfl, rfl, fun _ => id⟩
  · exact refl world

theorem finishFlush (ended : FlushEnd) : SameBuffer world (world.finishFlush ended) := by
  unfold AudioWorld.finishFlush
  rcases world.flushing with - | ⟨batch, - | -⟩
  · exact refl world
  · exact refl world
  · cases ended <;> exact ⟨rfl, rfl, rfl, rfl, fun _ => id⟩

theorem audioRound : SameBuffer world world.audioRound := by
  unfold AudioWorld.audioRound
  split_ifs <;> exact ⟨rfl, rfl, rfl, rfl, fun _ => id⟩

theorem itemProcessed : SameBuffer world world.itemProcessed := by
  unfold AudioWorld.itemProcessed
  cases world.processing <;> exact ⟨rfl, rfl, rfl, rfl, fun _ => id⟩

/-- Every action of the workers. -/
theorem work (action : AudioAction β) (hreceive : ∀ frame now, action ≠ .receive frame now)
    (hclose : ∀ now, action ≠ .close now) : SameBuffer world (world.step session action) := by
  cases action with
  | receive frame now => exact absurd rfl (hreceive frame now)
  | close now => exact absurd rfl (hclose now)
  | privateRound monotonic => exact privateRound monotonic
  | startFlush => exact startFlush
  | uploadStored => exact uploadStored
  | uploadFailed monotonic => exact uploadFailed monotonic
  | finishFlush ended => exact finishFlush ended
  | audioRound => exact audioRound
  | itemProcessed => exact itemProcessed

end SameBuffer

theorem mem_appendBounded {ι : Type*} {maxlen : ℕ} {sizeOf : ι → ℕ} {queue : List ι} {item other : ι}
    {budget : ByteBudget} (h : other ∈ (appendBounded maxlen sizeOf queue item budget).queue) :
    other ∈ queue ∨ other = item := by
  unfold appendBounded at h
  split_ifs at h
  · rcases List.mem_append.mp h with hold | hnew
    · exact .inl (List.mem_of_mem_tail hold)
    · exact .inr (List.mem_singleton.mp hnew)
  · rcases List.mem_append.mp h with hold | hnew
    · exact .inl hold
    · exact .inr (List.mem_singleton.mp hnew)

/-- What a step can do to the buffer: a frame of audio, a switch, the end, or nothing. -/
theorem heardStep_cases (session : PusherSession) (world : AudioWorld (HeardByte β))
    (action : AudioAction β) :
    (∃ timestamp data now, action = .receive (.audio timestamp data) now ∧
      world.websocketActive = true ∧ world.heardStep session action =
        world.receiveAudio session timestamp (world.heardData timestamp data)) ∨
    (∃ conversationId now, action = .receive (.conversation conversationId) now ∧
      world.websocketActive = true ∧ world.heardStep session action =
        world.receiveConversation session conversationId now) ∨
    (∃ now, action = .close now ∧ world.websocketActive = true ∧
      world.heardStep session action = world.close session now) ∨
    SameBuffer world (world.heardStep session action) := by
  by_cases hactive : world.websocketActive = true
  · cases action with
    | receive frame now =>
      cases frame with
      | audio timestamp data => exact .inl ⟨timestamp, data, now, rfl, hactive, if_pos hactive⟩
      | conversation conversationId =>
        exact .inr (.inl ⟨conversationId, now, rfl, hactive, if_pos hactive⟩)
      | heartbeat =>
        have hstep : world.heardStep session (.receive .heartbeat now) = world := if_pos hactive
        exact .inr (.inr (.inr (hstep.symm ▸ SameBuffer.refl world)))
      | other =>
        have hstep : world.heardStep session (.receive .other now) = world := if_pos hactive
        exact .inr (.inr (.inr (hstep.symm ▸ SameBuffer.refl world)))
    | close now => exact .inr (.inr (.inl ⟨now, rfl, hactive, if_pos hactive⟩))
    | _ => exact .inr (.inr (.inr (SameBuffer.work _ (by simp [heardAction]) (by simp [heardAction]))))
  · refine .inr (.inr (.inr ?_))
    cases action with
    | receive frame now =>
      have hstep : world.heardStep session (.receive frame now) = world := by
        cases frame <;> exact if_neg hactive
      exact hstep.symm ▸ SameBuffer.refl world
    | close now =>
      have hstep : world.heardStep session (.close now) = world := if_neg hactive
      exact hstep.symm ▸ SameBuffer.refl world
    | _ => exact SameBuffer.work _ (by simp [heardAction]) (by simp [heardAction])

/-! ### The buffer belongs to the current conversation -/

variable {world : AudioWorld (HeardByte β)}

/-- What is buffered came while the current conversation was current, and so did the bytes of
each queued chunk for its conversation. -/
structure Heard (session : PusherSession) (world : AudioWorld (HeardByte β)) : Prop where
  buffer : world.websocketActive = true → world.privateCloudSyncBuffer ≠ [] →
    session.privateCloudSyncEnabled = true ∧ ∃ conversationId,
      world.conversation = some conversationId ∧
        ∀ byte ∈ world.privateCloudSyncBuffer, byte.conversationId = conversationId
  queue : ∀ chunk ∈ world.privateCloudQueue, FromOwnConversation chunk

theorem conversation_congr {next : AudioWorld (HeardByte β)}
    (h : next.currentConversationId = world.currentConversationId) :
    next.conversation = world.conversation := by
  rw [AudioWorld.conversation, AudioWorld.conversation, h]

theorem Heard.of_same (h : world.Heard session) {next : AudioWorld (HeardByte β)}
    (hsame : SameBuffer world next) : next.Heard session where
  buffer := by
    rw [hsame.active, hsame.buffer, conversation_congr hsame.current]
    exact h.buffer
  queue := fun chunk hchunk => h.queue chunk (hsame.queue chunk hchunk)

theorem Heard.bufferedConversation (h : world.Heard session) (hactive : world.websocketActive = true)
    (hne : world.privateCloudSyncBuffer ≠ []) : ∃ conversationId,
      world.bufferedConversation session = some conversationId ∧
        world.conversation = some conversationId ∧
        ∀ byte ∈ world.privateCloudSyncBuffer, byte.conversationId = conversationId := by
  obtain ⟨hsync, conversationId, hconversation, hbytes⟩ := h.buffer hactive hne
  refine ⟨conversationId, ?_, hconversation, hbytes⟩
  have hlength : world.privateCloudSyncBuffer.length > 0 := List.length_pos_iff.mpr hne
  rw [AudioWorld.bufferedConversation, if_pos ⟨hsync, hlength⟩, hconversation]

/-- Queueing the buffer under the conversation that it belongs to. -/
theorem Heard.queueChunk (h : world.Heard session) {conversationId : String}
    (hbytes : ∀ byte ∈ world.privateCloudSyncBuffer, byte.conversationId = conversationId)
    (timestamp : ℚ) :
    ∀ chunk ∈ (world.queueChunk conversationId timestamp).privateCloudQueue,
      FromOwnConversation chunk := by
  intro chunk hchunk
  rcases mem_appendBounded hchunk with hold | rfl
  · exact h.queue chunk hold
  · exact hbytes

theorem buffered_of_bufferedConversation {current : String}
    (hbuffered : world.bufferedConversation session = some current) :
    world.privateCloudSyncBuffer ≠ [] ∧ world.conversation = some current := by
  unfold AudioWorld.bufferedConversation at hbuffered
  split_ifs at hbuffered with hsync
  exact ⟨List.length_pos_iff.mp hsync.2, hbuffered⟩

theorem Heard.receiveConversation (h : world.Heard session)
    (hactive : world.websocketActive = true) (newConversationId : String) (now : ℚ) :
    (world.receiveConversation session newConversationId now).Heard session := by
  unfold AudioWorld.receiveConversation
  cases hbuffered : world.bufferedConversation session with
  | none =>
    have hempty : world.privateCloudSyncBuffer = [] := by
      by_contra hne
      obtain ⟨conversationId, hsome, -⟩ := h.bufferedConversation hactive hne
      rw [hsome] at hbuffered
      cases hbuffered
    exact ⟨fun _ hne => absurd hempty hne, h.queue⟩
  | some current =>
    obtain ⟨hne, hcurrent⟩ := buffered_of_bufferedConversation hbuffered
    obtain ⟨hsync, conversationId, hconversation, hbytes⟩ := h.buffer hactive hne
    obtain rfl : conversationId = current := Option.some.inj (hconversation.symm.trans hcurrent)
    dsimp only
    split_ifs with hsame
    · subst hsame
      have hfiltered : world.currentConversationId = some conversationId :=
        (Option.filter_eq_some_iff.mp hcurrent).1
      have hkept : SameBuffer world { world with currentConversationId := some conversationId } :=
        ⟨rfl, rfl, rfl, hfiltered.symm, fun _ => id⟩
      exact h.of_same hkept
    · exact ⟨fun _ hempty => absurd rfl hempty, h.queueChunk hbytes _⟩

/-- The private-cloud buffer with the data of a frame, as the budget allows. -/
theorem Heard.extendPrivate (h : world.Heard session) (hsync : session.privateCloudSyncEnabled = true)
    {conversationId : String} (hconversation : world.conversation = some conversationId)
    (timestamp : ℚ) {data : List (HeardByte β)}
    (hdata : ∀ byte ∈ data, byte.conversationId = conversationId) :
    (world.extendPrivate conversationId timestamp data).Heard session := by
  unfold AudioWorld.extendPrivate
  cases hextend : extendBounded world.privateCloudSyncBuffer data world.budget with
  | none => exact ⟨h.buffer, h.queue⟩
  | some extended =>
    obtain ⟨hbuffer, -⟩ := Accounted.extendBounded_some hextend
    refine ⟨fun hactive _ => ⟨hsync, conversationId, hconversation, ?_⟩, h.queue⟩
    intro byte hbyte
    have hmem : byte ∈ world.privateCloudSyncBuffer ++ data := hbuffer ▸ hbyte
    rcases List.mem_append.mp hmem with hold | hnew
    · obtain ⟨-, other, hother, hbytes⟩ := h.buffer hactive (List.ne_nil_of_mem hold)
      obtain rfl : other = conversationId := Option.some.inj (hother.symm.trans hconversation)
      exact hbytes byte hold
    · exact hdata byte hnew

theorem Heard.record (h : world.Heard session) (event : CloudEvent (HeardByte β)) :
    (world.record event).Heard session :=
  ⟨h.buffer, h.queue⟩

theorem Heard.queueFullChunk (h : world.Heard session) (hactive : world.websocketActive = true)
    {conversationId : String} (hconversation : world.conversation = some conversationId)
    (timestamp : ℚ) : (world.queueFullChunk session conversationId timestamp).Heard session := by
  unfold AudioWorld.queueFullChunk
  split_ifs
  · refine ⟨fun _ hne => absurd rfl hne, h.queueChunk ?_ _⟩
    intro byte hbyte
    obtain ⟨-, other, hother, hbytes⟩ := h.buffer hactive (List.ne_nil_of_mem hbyte)
    obtain rfl : other = conversationId := Option.some.inj (hother.symm.trans hconversation)
    exact hbytes byte hbyte
  · exact h

theorem extendPrivate_current (conversationId : String) (timestamp : ℚ) (data : List (HeardByte β)) :
    (world.extendPrivate conversationId timestamp data).currentConversationId =
      world.currentConversationId := by
  unfold AudioWorld.extendPrivate
  cases extendBounded world.privateCloudSyncBuffer data world.budget <;> rfl

theorem Heard.receivePrivate (h : world.Heard session) (hactive : world.websocketActive = true)
    (timestamp : ℚ) {data : List (HeardByte β)}
    (hdata : ∀ byte ∈ data, byte.conversationId = world.conversation.getD "") :
    (world.receivePrivate session timestamp data).Heard session := by
  unfold AudioWorld.receivePrivate
  cases hconversation : world.conversation with
  | none => exact h
  | some conversationId =>
    rw [hconversation] at hdata
    dsimp only
    split_ifs with hsync
    · have hheard := h.record (.received conversationId data)
      have hextended := hheard.extendPrivate hsync hconversation timestamp hdata
      refine hextended.queueFullChunk ?_ ?_ timestamp
      · rw [Accounted.extendPrivate_active]
        exact hactive
      · rw [conversation_congr (extendPrivate_current conversationId timestamp data)]
        exact hconversation
    · exact (h.record _).record _

theorem Heard.receiveAudio (h : world.Heard session) (hactive : world.websocketActive = true)
    (timestamp : ℚ) {data : List (HeardByte β)}
    (hdata : ∀ byte ∈ data, byte.conversationId = world.conversation.getD "") :
    (world.receiveAudio session timestamp data).Heard session := by
  have hextend : SameBuffer world ((world.extendTrigger session data).extendWebhook session data) :=
    (SameBuffer.extendTrigger data).trans (SameBuffer.extendWebhook data)
  have hprivate := (h.of_same hextend).receivePrivate (hextend.active.trans hactive) timestamp
    (by rwa [conversation_congr hextend.current])
  exact hprivate.of_same (SameBuffer.queueTrigger.trans SameBuffer.queueWebhook)

theorem Heard.close (h : world.Heard session) (hactive : world.websocketActive = true) (now : ℚ) :
    (world.close session now).Heard session := by
  unfold AudioWorld.close
  cases hbuffered : world.bufferedConversation session with
  | none => exact ⟨fun hclosed => (Bool.false_ne_true hclosed).elim, h.queue⟩
  | some current =>
    obtain ⟨hne, hcurrent⟩ := buffered_of_bufferedConversation hbuffered
    obtain ⟨-, conversationId, hconversation, hbytes⟩ := h.buffer hactive hne
    obtain rfl : conversationId = current := Option.some.inj (hconversation.symm.trans hcurrent)
    exact ⟨fun hclosed => (Bool.false_ne_true hclosed).elim, h.queueChunk hbytes _⟩

theorem Heard.heardStep (h : world.Heard session) (action : AudioAction β) :
    (world.heardStep session action).Heard session := by
  rcases heardStep_cases session world action with
    ⟨timestamp, data, now, -, hactive, hstep⟩ | ⟨conversationId, now, -, hactive, hstep⟩ |
    ⟨now, -, hactive, hstep⟩ | hsame
  · rw [hstep]
    exact h.receiveAudio hactive timestamp (by simp [heardData])
  · rw [hstep]
    exact h.receiveConversation hactive conversationId now
  · rw [hstep]
    exact h.close hactive now
  · exact h.of_same hsame

/-! ### The pending start time -/

/-- The private-cloud buffer takes the data, once the other two buffers have had them. -/
def takes {β : Type*} (session : PusherSession) (world : AudioWorld β) (data : List β) : Bool :=
  (((world.extendTrigger session data).extendWebhook session data).budget.reserve
    data.length).isSome

/-- Audio that opens the buffer finds no start time but its own, and a buffer that is flushed by a
switch or at the end has not started at zero, which the code takes for no start time. -/
def FreshStart (session : PusherSession) (world : AudioWorld (HeardByte β)) :
    AudioAction β → Prop
  | .receive (.audio timestamp data) _ => world.websocketActive = true →
    session.privateCloudSyncEnabled = true → world.conversation.isSome = true →
    world.privateCloudSyncBuffer = [] → data ≠ [] →
    world.takes session (world.heardData timestamp data) = true →
    ∀ start ∈ world.privateCloudChunkStartTime, start = timestamp
  | .receive (.conversation conversationId) now => world.websocketActive = true →
    (∃ current ∈ world.bufferedConversation session, current ≠ conversationId) →
    world.privateCloudChunkStartTime = some 0 → now = 0
  | .close now => world.websocketActive = true → (world.bufferedConversation session).isSome = true →
    world.privateCloudChunkStartTime = some 0 → now = 0
  | _ => True

/-- The pending start time is that of the first buffered byte. -/
structure Started (world : AudioWorld (HeardByte β)) : Prop where
  buffer : world.websocketActive = true → ∀ first ∈ world.privateCloudSyncBuffer.head?,
    world.privateCloudChunkStartTime = some first.timestamp
  queue : ∀ chunk ∈ world.privateCloudQueue, StartsRight chunk

theorem Started.of_same (h : world.Started) {next : AudioWorld (HeardByte β)}
    (hsame : SameBuffer world next) : next.Started where
  buffer := by
    rw [hsame.active, hsame.buffer, hsame.start]
    exact h.buffer
  queue := fun chunk hchunk => h.queue chunk (hsame.queue chunk hchunk)

theorem Started.record (h : world.Started) (event : CloudEvent (HeardByte β)) :
    (world.record event).Started :=
  ⟨h.buffer, h.queue⟩

theorem Started.queueChunk (h : world.Started) (conversationId : String) {timestamp : ℚ}
    (htimestamp : ∀ first ∈ world.privateCloudSyncBuffer.head?, timestamp = first.timestamp) :
    ∀ chunk ∈ (world.queueChunk conversationId timestamp).privateCloudQueue, StartsRight chunk := by
  intro chunk hchunk
  rcases mem_appendBounded hchunk with hold | rfl
  · exact h.queue chunk hold
  · exact htimestamp

theorem Started.chunkTimestamp (h : world.Started) (hactive : world.websocketActive = true) {now : ℚ}
    (hzero : world.privateCloudChunkStartTime = some 0 → now = 0) :
    ∀ first ∈ world.privateCloudSyncBuffer.head?,
      world.chunkTimestamp now = first.timestamp := by
  intro first hfirst
  have hstart := h.buffer hactive first hfirst
  unfold AudioWorld.chunkTimestamp
  rw [hstart] at hzero ⊢
  by_cases htimestamp : first.timestamp = 0
  · rw [htimestamp] at hzero ⊢
    rw [hzero rfl]
    rfl
  · simp [Option.filter, htimestamp]

theorem Started.extendPrivate (h : world.Started) (hactive : world.websocketActive = true)
    (conversationId : String) {timestamp : ℚ} {data : List (HeardByte β)}
    (hdata : ∀ byte ∈ data, byte.timestamp = timestamp)
    (hfresh : world.privateCloudSyncBuffer = [] → data ≠ [] →
      (world.budget.reserve data.length).isSome = true →
      ∀ start ∈ world.privateCloudChunkStartTime, start = timestamp) :
    (world.extendPrivate conversationId timestamp data).Started := by
  unfold AudioWorld.extendPrivate
  cases hextend : extendBounded world.privateCloudSyncBuffer data world.budget with
  | none =>
    refine ⟨fun _ first hfirst => ?_, h.queue⟩
    have hstart := h.buffer hactive first hfirst
    simp only [AudioWorld.record, hstart, Option.orElse_eq_orElse, Option.orElse_eq_or,
      Option.some_or]
  | some extended =>
    obtain ⟨hbuffer, -⟩ := Accounted.extendBounded_some hextend
    refine ⟨fun _ first hfirst => ?_, h.queue⟩
    have hreserved : (world.budget.reserve data.length).isSome = true := by
      unfold extendBounded at hextend
      obtain ⟨budget, hbudget, -⟩ := Option.map_eq_some_iff.mp hextend
      rw [hbudget]
      rfl
    have hhead : first ∈ (world.privateCloudSyncBuffer ++ data).head? := hbuffer ▸ hfirst
    show (world.privateCloudChunkStartTime <|> some timestamp) = some first.timestamp
    cases hbuffered : world.privateCloudSyncBuffer with
    | cons oldest rest =>
      rw [hbuffered] at hhead
      obtain rfl : oldest = first := Option.some.inj hhead
      rw [h.buffer hactive oldest (by rw [hbuffered]; rfl)]
      rfl
    | nil =>
      rw [hbuffered, List.nil_append] at hhead
      have hmem : first ∈ data := List.mem_of_mem_head? hhead
      have hfound := hfresh hbuffered (List.ne_nil_of_mem hmem) hreserved
      rw [hdata first hmem]
      cases hstart : world.privateCloudChunkStartTime with
      | none => rfl
      | some start =>
        rw [hfound start hstart]
        rfl

theorem Started.queueFullChunk (h : world.Started) (hactive : world.websocketActive = true)
    (conversationId : String) (timestamp : ℚ) :
    (world.queueFullChunk session conversationId timestamp).Started := by
  unfold AudioWorld.queueFullChunk
  split_ifs
  · refine ⟨fun _ first hfirst => (Option.not_mem_none first hfirst).elim, h.queueChunk _ ?_⟩
    intro first hfirst
    rw [h.buffer hactive first hfirst]
    rfl
  · exact h

theorem Started.receivePrivate (h : world.Started) (session : PusherSession)
    (hactive : world.websocketActive = true) {timestamp : ℚ} {data : List (HeardByte β)}
    (hdata : ∀ byte ∈ data, byte.timestamp = timestamp)
    (hfresh : session.privateCloudSyncEnabled = true → world.conversation.isSome = true →
      world.privateCloudSyncBuffer = [] → data ≠ [] →
      (world.budget.reserve data.length).isSome = true →
      ∀ start ∈ world.privateCloudChunkStartTime, start = timestamp) :
    (world.receivePrivate session timestamp data).Started := by
  unfold AudioWorld.receivePrivate
  cases hconversation : world.conversation with
  | none => exact h
  | some conversationId =>
    dsimp only
    split_ifs with hsync
    · have hopened := hfresh hsync (by rw [hconversation]; rfl)
      have hextended := (h.record (.received conversationId data)).extendPrivate hactive
        conversationId hdata hopened
      refine hextended.queueFullChunk ?_ conversationId timestamp
      rw [Accounted.extendPrivate_active]
      exact hactive
    · exact (h.record _).record _

theorem Started.receiveAudio (h : world.Started) (hactive : world.websocketActive = true)
    {timestamp : ℚ} {data : List β} {now : ℚ}
    (hfresh : FreshStart session world (.receive (.audio timestamp data) now)) :
    (world.receiveAudio session timestamp (world.heardData timestamp data)).Started := by
  have hextend : SameBuffer world ((world.extendTrigger session
      (world.heardData timestamp data)).extendWebhook session (world.heardData timestamp data)) :=
    (SameBuffer.extendTrigger _).trans (SameBuffer.extendWebhook _)
  have htimes : ∀ byte ∈ world.heardData timestamp data, byte.timestamp = timestamp := by
    simp [heardData]
  have hprivate := (h.of_same hextend).receivePrivate session (hextend.active.trans hactive) htimes
    (by
      intro hsync hcurrent hempty hne htakes
      rw [conversation_congr hextend.current] at hcurrent
      rw [hextend.start]
      have hdata : data ≠ [] := fun hnil => hne (by rw [hnil]; rfl)
      exact hfresh hactive hsync hcurrent (hextend.buffer.symm.trans hempty) hdata htakes)
  exact hprivate.of_same (SameBuffer.queueTrigger.trans SameBuffer.queueWebhook)

theorem Started.receiveConversation (h : world.Started) (hactive : world.websocketActive = true)
    {newConversationId : String} {now : ℚ}
    (hfresh : FreshStart session world (.receive (.conversation newConversationId) now)) :
    (world.receiveConversation session newConversationId now).Started := by
  unfold AudioWorld.receiveConversation
  cases hbuffered : world.bufferedConversation session with
  | none => exact ⟨h.buffer, h.queue⟩
  | some current =>
    dsimp only
    split_ifs with hsame
    · exact ⟨h.buffer, h.queue⟩
    · have hzero := hfresh hactive ⟨current, hbuffered, hsame⟩
      exact ⟨fun _ first hfirst => (Option.not_mem_none first hfirst).elim,
        h.queueChunk current (h.chunkTimestamp hactive hzero)⟩

theorem Started.close (h : world.Started) (hactive : world.websocketActive = true) {now : ℚ}
    (hfresh : FreshStart session world (.close now : AudioAction β)) :
    (world.close session now).Started := by
  unfold AudioWorld.close
  cases hbuffered : world.bufferedConversation session with
  | none => exact ⟨fun hclosed => (Bool.false_ne_true hclosed).elim, h.queue⟩
  | some current =>
    have hzero := hfresh hactive (by rw [hbuffered]; rfl)
    exact ⟨fun hclosed => (Bool.false_ne_true hclosed).elim,
      h.queueChunk current (h.chunkTimestamp hactive hzero)⟩

theorem Started.heardStep (h : world.Started) {action : AudioAction β}
    (hfresh : FreshStart session world action) : (world.heardStep session action).Started := by
  rcases heardStep_cases session world action with
    ⟨timestamp, data, now, rfl, hactive, hstep⟩ | ⟨conversationId, now, rfl, hactive, hstep⟩ |
    ⟨now, rfl, hactive, hstep⟩ | hsame
  · rw [hstep]
    exact h.receiveAudio hactive hfresh
  · rw [hstep]
    exact h.receiveConversation hactive hfresh
  · rw [hstep]
    exact h.close hactive hfresh
  · exact h.of_same hsame

/-! ### Runs of a connection -/

/-- Every chunk queued in a run came while its conversation was current. Where no step leaves a
start time behind for bytes that are not its own, the chunk's timestamp is its first byte's. -/
theorem queuedChunks_startRight (session : PusherSession) (actions : List (AudioAction β)) :
    (∀ chunk ∈ (actions.foldl (heardStep session) {}).privateCloudQueue,
      FromOwnConversation chunk) ∧
    (EveryStep (heardStep session) (FreshStart session) {} actions →
      ∀ chunk ∈ (actions.foldl (heardStep session) {}).privateCloudQueue, StartsRight chunk) := by
  constructor
  · have hheard : (actions.foldl (heardStep session) {}).Heard session := by
      refine List.foldlRecOn actions (heardStep session) ?_ fun world hworld action _ => ?_
      · exact ⟨fun _ hne => absurd rfl hne, fun _ hchunk => absurd hchunk List.not_mem_nil⟩
      · exact hworld.heardStep action
    exact hheard.queue
  · intro hevery
    have hstarted : (actions.foldl (heardStep session) {}).Started := by
      refine hevery.invariant ?_ fun world action hworld hfresh => hworld.heardStep hfresh
      exact ⟨fun _ first hfirst => (Option.not_mem_none first hfirst).elim,
        fun _ hchunk => absurd hchunk List.not_mem_nil⟩
    exact hstarted.queue

def cloudSession : PusherSession where
  sampleRate := 16000
  hasAudioAppsEnabled := false
  audioBytesWebhookDelaySeconds := none
  privateCloudSyncEnabled := true

theorem queuedChunks_startRight_switch :
    ∀ chunk ∈ ([.receive (.conversation "a") 5, .receive (.audio 10 [1, 2]) 6,
        .receive (.audio 11 [3]) 7, .receive (.conversation "b") 8].foldl
          (heardStep (β := UInt8) cloudSession) {}).privateCloudQueue, StartsRight chunk := by
  refine (queuedChunks_startRight cloudSession _).2 ⟨?_, ?_, ?_, ?_, trivial⟩
  · rintro - ⟨current, hcurrent, -⟩
    exact absurd hcurrent (Option.not_mem_none current)
  · intro _ _ _ _ _ _ start hstart
    exact absurd hstart (Option.not_mem_none start)
  · intro _ _ _ hempty
    exact absurd hempty (List.cons_ne_nil _ _)
  · intro _ _ hstart
    have htimes : (10 : ℚ) = 0 := Option.some.inj hstart
    norm_num at htimes

/-- An empty frame at second 1 leaves its start time to the audio that comes at second 100. -/
theorem not_queuedChunks_startRight :
    ¬ ∀ (session : PusherSession) (actions : List (AudioAction UInt8)),
      ∀ chunk ∈ (actions.foldl (heardStep session) {}).privateCloudQueue,
        StartsRight chunk ∧ FromOwnConversation chunk := by
  intro hall
  have hright := hall cloudSession [.receive (.conversation "a") 0, .receive (.audio 1 []) 1,
    .receive (.audio 100 [7]) 100, .close 101] ⟨[⟨7, 100, "a"⟩], "a", 1⟩ (List.mem_singleton.mpr rfl)
  have htimes : (1 : ℚ) = 100 := hright.1 ⟨7, 100, "a"⟩ rfl
  norm_num at htimes

end AudioWorld
end Omi.PusherServer
