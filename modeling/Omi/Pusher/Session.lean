import Mathlib

/-! The state of a `ListenPusherSession` (`utils/listen_pusher_session.py`) and what it does
between two awaits. Bytes and segments are generic: no function looks into them. -/
namespace Omi.Pusher

inductive PusherReconnectState where
  | connected
  | reconnectBackoff
  | degraded
  | halfOpenProbe
  deriving DecidableEq, Repr

def targetSampleRate : ℕ := 16000

def pusherMaxReconnectAttempts : ℕ := 6

/-- `PUSHER_DEGRADED_COOLDOWN`, in milliseconds. -/
def pusherDegradedCooldown : ℤ := 60000

/-- The limits and the format of one session; the audio limit is a positive constant of the
listen router. -/
structure ListenPusherSessionConfig where
  sampleRate : ℕ
  isMultiChannel : Bool
  maxSegmentBufferSize : ℕ
  maxAudioBufferSize : ℕ
  maxAudioBufferSize_pos : 0 < maxAudioBufferSize

def ListenPusherSessionConfig.effectiveRate (config : ListenPusherSessionConfig) : ℕ :=
  if config.isMultiChannel then targetSampleRate else config.sampleRate

/-- The session's fields; a websocket is the number of its connection, and `reconnectTask` the
number of its loop. -/
structure ListenPusherSession (β σ : Type) where
  pusherWs : Option ℕ := none
  pusherConnected : Bool := false
  reconnectState : PusherReconnectState := .connected
  reconnectAttempts : ℕ := 0
  reconnectTask : Option ℕ := none
  degradedSince : ℤ := 0
  segmentBuffers : List σ := []
  lastSyncedConversationId : Option String := none
  audioChunks : List (List β) := []
  audioTotalSize : ℤ := 0
  audioBufferLastReceived : Option ℚ := none

/-- What is left of the buffered chunks, and what was dropped, oldest first. -/
structure Evicted (β : Type) where
  dropped : List β
  chunks : List (List β)
  totalSize : ℤ

/-- `while full: popleft()`. -/
def evict {β : Type} (full : ℤ → Bool) : List (List β) → ℤ → Evicted β
  | [], totalSize => ⟨[], [], totalSize⟩
  | chunk :: chunks, totalSize =>
    if full totalSize then
      let rest := evict full chunks (totalSize - chunk.length)
      { rest with dropped := chunk ++ rest.dropped }
    else ⟨[], chunk :: chunks, totalSize⟩

/-- The last elements, as a deque with `maxlen` keeps them. -/
def keepLast {σ : Type} (maxlen : ℕ) (items : List σ) : List σ :=
  items.drop (items.length - maxlen)

/-- What of the items a deque with `maxlen` drops. -/
def dropOldest {σ : Type} (maxlen : ℕ) (items : List σ) : List σ :=
  items.take (items.length - maxlen)

namespace ListenPusherSession
variable {β σ : Type} (config : ListenPusherSessionConfig) (session : ListenPusherSession β σ)

/-- `transcript_send`, with the segments that it drops. -/
def transcriptSend (segments : List σ) : ListenPusherSession β σ × List σ :=
  ({ session with
      segmentBuffers := keepLast config.maxSegmentBufferSize (session.segmentBuffers ++ segments) },
    dropOldest config.maxSegmentBufferSize (session.segmentBuffers ++ segments))

/-- A failed transcript send puts its segments back in front. -/
def restoreSegments (pendingSegments : List σ) : ListenPusherSession β σ × List σ :=
  ({ session with
      segmentBuffers :=
        keepLast config.maxSegmentBufferSize (pendingSegments ++ session.segmentBuffers) },
    dropOldest config.maxSegmentBufferSize (pendingSegments ++ session.segmentBuffers))

/-- `audio_bytes_send`, with the bytes that it drops. -/
def audioBytesSend (audioBytes : List β) (receivedAt : ℚ) : ListenPusherSession β σ × List β :=
  let chunk :=
    if config.maxAudioBufferSize < audioBytes.length then
      audioBytes.drop (audioBytes.length - config.maxAudioBufferSize)
    else audioBytes
  let evicted := evict (fun totalSize => config.maxAudioBufferSize < totalSize + chunk.length)
    session.audioChunks session.audioTotalSize
  ({ session with
      audioChunks := evicted.chunks ++ [chunk]
      audioTotalSize := evicted.totalSize + chunk.length
      audioBufferLastReceived := some receivedAt },
    evicted.dropped ++ audioBytes.take (audioBytes.length - chunk.length))

/-- A failed audio send puts its chunks back in front. -/
def restoreAudio (pendingChunks : List (List β)) (pendingTotalSize : ℤ) :
    ListenPusherSession β σ × List β :=
  let evicted := evict (fun totalSize => config.maxAudioBufferSize < totalSize)
    (pendingChunks ++ session.audioChunks) (session.audioTotalSize + pendingTotalSize)
  ({ session with audioChunks := evicted.chunks, audioTotalSize := evicted.totalSize },
    evicted.dropped)

/-- `buffer_start_time`; `none` where the division by the rate raises. -/
def bufferStartTime (now : ℚ) : Option ℚ :=
  if config.effectiveRate = 0 then none
  else
    some ((if session.audioBufferLastReceived.all (· = 0) then now
        else session.audioBufferLastReceived.getD now) -
      session.audioTotalSize / (config.effectiveRate * 2))

end ListenPusherSession
end Omi.Pusher
