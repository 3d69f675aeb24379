import Omi.Pusher.Session

/-! The tasks of one pusher session between their awaits: flushes, connects, the reconnect loop
and whatever else finds a connection closed, in any order. -/
namespace Omi.Pusher

/-- How an awaited send ends. -/
inductive SendOutcome where
  | ok
  | connectionClosed
  | failed
  | cancelled
  deriving DecidableEq, Repr

/-- A frame with the header 101, 102 or 103. -/
inductive Frame (β σ : Type) where
  | audio (bufferStartTime : ℚ) (audioData : List β)
  | transcript (segments : List σ) (memoryId : Option String)
  | conversation (conversationId : String)

/-- `_audio_bytes_flush` at one of its awaits; the id is the one current at its start. -/
inductive AudioFlush (β : Type) where
  | announcing (connection : ℕ) (conversationId : String)
  | sending (connection : ℕ) (bufferStartTime : ℚ) (pendingChunks : List (List β))
    (pendingTotalSize : ℤ)

/-- `_transcript_flush` at its await. -/
structure TranscriptFlush (σ : Type) where
  connection : ℕ
  pendingSegments : List σ
  memoryId : Option String

/-- `connect` at one of its awaits, past its lock. -/
inductive ConnectStage where
  | draining
  | dialing
  | resending
  deriving DecidableEq, Repr

inductive ConnectCaller where
  | first
  | loop (number : ℕ)
  deriving DecidableEq, Repr

/-- How a reconnect loop ends. -/
inductive LoopEnd where
  | condition
  | shutdown
  | reconnected
  | fallThrough
  deriving DecidableEq, Repr

/-- Where a `_pusher_reconnect_loop` stands: at the head of its `while`, waiting out a backoff
or a cooldown, in a call of `connect`, or done. -/
inductive LoopStage where
  | head
  | backoff
  | cooldown
  | connecting (probe : Bool)
  | done (how : LoopEnd)
  deriving DecidableEq, Repr

def LoopStage.running : LoopStage → Bool
  | .done _ => false
  | _ => true

/-- What has happened. A send names the conversation current when its flush began. -/
inductive PusherEntry (β σ : Type) where
  | sending (connection : ℕ) (frame : Frame β σ) (conversationId : Option String)
  | sent (connection : ℕ) (frame : Frame β σ)
  | discardedAudio (audioBytes : List β)
  | discardedSegments (segments : List σ)
  | lost
  | degraded
  | loopEnded (number : ℕ) (how : LoopEnd)

/-- The session with its tasks. What is received is numbered, so that a byte or a segment is
itself wherever it goes. -/
structure PusherWorld (σ : Type) where
  session : ListenPusherSession (UInt8 × ℕ) (σ × ℕ) := {}
  audioFlush : Option (AudioFlush (UInt8 × ℕ)) := none
  transcriptFlush : Option (TranscriptFlush (σ × ℕ)) := none
  connectCall : Option (ConnectCaller × ConnectStage) := none
  loops : List LoopStage := []
  currentConversationId : Option String := none
  isActive : Bool := true
  shutdown : Bool := false
  connections : ℕ := 0
  announcedOn : Option ℕ := none
  receivedAudio : List UInt8 := []
  receivedSegments : List σ := []
  log : List (PusherEntry (UInt8 × ℕ) (σ × ℕ)) := []

/-- How an await of `connect` goes on: its drain ends, its dial answers, a request is sent
again, or all have been; a first connect may be cancelled. -/
inductive ConnectEvent where
  | drained (ok : Bool)
  | opened
  | refused
  | circuitOpen
  | failed
  | resent (outcome : SendOutcome)
  | finished
  | cancelled
  deriving DecidableEq, Repr

inductive PusherAction (σ : Type) where
  | audioBytesSend (audioBytes : List UInt8) (receivedAt : ℚ)
  | transcriptSend (segments : List σ)
  | switchConversation (conversationId : Option String)
  | deactivate
  | shutDown
  | startAudioFlush (now : ℚ)
  | resumeAudioFlush (outcome : SendOutcome) (now : ℚ)
  | startTranscriptFlush
  | resumeTranscriptFlush (outcome : SendOutcome)
  | exchangeClosed
  | startDegraded (monotonic : ℤ)
  | startConnect
  | resumeConnect (event : ConnectEvent) (monotonic : ℤ)
  | resumeLoop (number : ℕ) (woken : Bool) (monotonic : ℤ)

namespace PusherWorld
variable {σ : Type} (config : ListenPusherSessionConfig) (world : PusherWorld σ)

def record (entry : PusherEntry (UInt8 × ℕ) (σ × ℕ)) : PusherWorld σ :=
  { world with log := world.log ++ [entry] }

/-- The current conversation as far as the session tests it for truth. -/
def conversation : Option String := world.currentConversationId.filter (· ≠ "")

/-- `create_task(self._pusher_reconnect_loop())`, unless one is running. -/
def ensureLoop : PusherWorld σ :=
  if (world.session.reconnectTask.bind (world.loops[·]?)).any LoopStage.running then world
  else
    { world with
      session := { world.session with reconnectTask := some world.loops.length }
      loops := world.loops ++ [LoopStage.head] }

/-- `_mark_disconnected`. -/
def markDisconnected : PusherWorld σ :=
  if !world.session.pusherConnected then world
  else
    ensureLoop
      { world with
        session :=
          { world.session with
            pusherConnected := false
            reconnectState :=
              if world.session.reconnectState = .connected then .reconnectBackoff
              else world.session.reconnectState }
        log := world.log ++ [PusherEntry.lost] }

/-- `start_degraded`. -/
def startDegraded (monotonic : ℤ) : PusherWorld σ :=
  ensureLoop
    { world with
      session :=
        { world.session with reconnectState := .degraded, degradedSince := monotonic }
      log := world.log ++ [PusherEntry.degraded] }

/-! ### Flushes -/

/-- The buffered audio leaves with a frame. -/
def detachAudio (ws : ℕ) (conversationId : Option String) (start : ℚ) : PusherWorld σ :=
  let session := world.session
  { world with
    audioFlush := some (.sending ws start session.audioChunks session.audioTotalSize)
    session := { session with audioChunks := [], audioTotalSize := 0 }
    log := world.log ++
      [.sending ws (.audio start session.audioChunks.flatten) conversationId] }

/-- The second half of `_audio_bytes_flush`. -/
def sendAudio (conversationId : Option String) (now : ℚ) : PusherWorld σ :=
  let session := world.session
  match session.pusherWs.filter fun _ => session.pusherConnected && 0 < session.audioTotalSize with
  | none => { world with audioFlush := none }
  | some ws =>
    match session.bufferStartTime config now with
    | none =>
      let detached := { session with audioChunks := [], audioTotalSize := 0 }
      { world with
        audioFlush := none
        session := (detached.restoreAudio config session.audioChunks session.audioTotalSize).1 }
    | some start => world.detachAudio ws conversationId start

/-- The connection and the id that the flush announces first. -/
def announcement : Option (ℕ × String) :=
  match world.session.pusherWs, world.conversation with
  | some ws, some conversationId =>
    if world.session.lastSyncedConversationId = some conversationId then none
    else some (ws, conversationId)
  | _, _ => none

/-- The conversation is sent ahead of the audio. -/
def announce (ws : ℕ) (conversationId : String) : PusherWorld σ :=
  { world with
    audioFlush := some (.announcing ws conversationId)
    log := world.log ++ [PusherEntry.sending ws (.conversation conversationId) world.conversation] }

/-- `_audio_bytes_flush` from its lock on. -/
def startAudioFlush (now : ℚ) : PusherWorld σ :=
  if world.audioFlush.isSome then world
  else
    match world.announcement with
    | none => world.sendAudio config world.conversation now
    | some (ws, conversationId) => world.announce ws conversationId

/-- A failed send keeps its audio. -/
def restoreAudio (pendingChunks : List (List (UInt8 × ℕ))) (pendingTotalSize : ℤ) :
    PusherWorld σ :=
  let restored := world.session.restoreAudio config pendingChunks pendingTotalSize
  { world with
    audioFlush := none
    session := restored.1
    log := world.log ++ [PusherEntry.discardedAudio restored.2] }

/-- An announcement that has been sent is remembered. -/
def announced (ws : ℕ) (conversationId : String) : PusherWorld σ :=
  { world with
    session := { world.session with lastSyncedConversationId := some conversationId }
    announcedOn := some ws
    log := world.log ++ [PusherEntry.sent ws (.conversation conversationId)] }

/-- The audio has been sent. -/
def sentAudio (ws : ℕ) (start : ℚ) (pendingChunks : List (List (UInt8 × ℕ))) : PusherWorld σ :=
  { world with
    audioFlush := none
    log := world.log ++ [PusherEntry.sent ws (.audio start pendingChunks.flatten)] }

def resumeAudioFlush (outcome : SendOutcome) (now : ℚ) : PusherWorld σ :=
  match world.audioFlush, outcome with
  | none, _ => world
  | some (.announcing ws conversationId), .ok =>
    (world.announced ws conversationId).sendAudio config (some conversationId) now
  | some (.announcing _ conversationId), .connectionClosed =>
    world.markDisconnected.sendAudio config (some conversationId) now
  | some (.announcing _ conversationId), .failed =>
    world.sendAudio config (some conversationId) now
  | some (.announcing _ _), .cancelled => { world with audioFlush := none }
  | some (.sending ws start pendingChunks _), .ok => world.sentAudio ws start pendingChunks
  | some (.sending _ _ pendingChunks pendingTotalSize), .connectionClosed =>
    (world.restoreAudio config pendingChunks pendingTotalSize).markDisconnected
  | some (.sending _ _ pendingChunks pendingTotalSize), _ =>
    world.restoreAudio config pendingChunks pendingTotalSize

/-- The buffered segments leave with a frame. -/
def detachSegments (ws : ℕ) : PusherWorld σ :=
  let session := world.session
  { world with
    transcriptFlush := some ⟨ws, session.segmentBuffers, world.currentConversationId⟩
    session := { session with segmentBuffers := [] }
    log := world.log ++
      [.sending ws (.transcript session.segmentBuffers world.currentConversationId)
        world.conversation] }

/-- `_transcript_flush` from its lock on. -/
def startTranscriptFlush : PusherWorld σ :=
  let session := world.session
  if world.transcriptFlush.isSome then world
  else
    match session.pusherWs.filter fun _ =>
        session.pusherConnected && !session.segmentBuffers.isEmpty with
    | none => world
    | some ws => world.detachSegments ws

/-- A failed send keeps its segments. -/
def restoreSegments (pendingSegments : List (σ × ℕ)) : PusherWorld σ :=
  let restored := world.session.restoreSegments config pendingSegments
  { world with
    transcriptFlush := none
    session := restored.1
    log := world.log ++ [PusherEntry.discardedSegments restored.2] }

/-- The segments have been sent. -/
def sentSegments (flush : TranscriptFlush (σ × ℕ)) : PusherWorld σ :=
  { world with
    transcriptFlush := none
    log := world.log ++
      [.sent flush.connection (.transcript flush.pendingSegments flush.memoryId)] }

def resumeTranscriptFlush (outcome : SendOutcome) : PusherWorld σ :=
  match world.transcriptFlush, outcome with
  | none, _ => world
  | some flush, .ok => world.sentSegments flush
  | some flush, .connectionClosed =>
    (world.restoreSegments config flush.pendingSegments).markDisconnected
  | some flush, _ => world.restoreSegments config flush.pendingSegments

/-! ### Connects and the reconnect loop -/

def setLoop (number : ℕ) (stage : LoopStage) : PusherWorld σ :=
  { world with loops := world.loops.set number stage }

def endLoop (number : ℕ) (how : LoopEnd) : PusherWorld σ :=
  { world with
    loops := world.loops.set number (.done how)
    log := world.log ++ [PusherEntry.loopEnded number how] }

/-- The cooldown starts now. -/
def enterDegraded (monotonic : ℤ) : PusherWorld σ :=
  { world with
    session :=
      { world.session with reconnectState := .degraded, degradedSince := monotonic } }

/-- The loop after its call of `connect`. -/
def afterConnect (number : ℕ) (probe circuitOpen : Bool) (monotonic : ℤ) : PusherWorld σ :=
  if !circuitOpen && world.session.pusherConnected then
    endLoop
      { world with
        session :=
          { world.session with reconnectState := .connected, reconnectAttempts := 0 } }
      number .reconnected
  else if probe then (world.enterDegraded monotonic).setLoop number .head
  else if circuitOpen then
    setLoop
      { world.enterDegraded monotonic with
        session :=
          { (world.enterDegraded monotonic).session with reconnectAttempts := 0 } } number .head
  else
    setLoop
      { world with
        session :=
          { world.session with reconnectAttempts := world.session.reconnectAttempts + 1 } }
      number .head

/-- `connect` returns to its caller, or raises that the circuit is open. -/
def returnConnect (caller : ConnectCaller) (circuitOpen : Bool) (monotonic : ℤ) :
    PusherWorld σ :=
  match caller with
  | .first => { world with connectCall := none }
  | .loop number =>
    match world.loops[number]? with
    | some (.connecting probe) =>
      afterConnect { world with connectCall := none } number probe circuitOpen monotonic
    | _ => { world with connectCall := none }

/-- `connect`, which waits while another call holds its lock. -/
def beginConnect (caller : ConnectCaller) (monotonic : ℤ) : PusherWorld σ :=
  if world.connectCall.isSome then world
  else if world.session.pusherConnected then world.returnConnect caller false monotonic
  else if world.session.pusherWs.isSome then
    { world with connectCall := some (caller, .draining) }
  else { world with connectCall := some (caller, .dialing) }

/-- `_connect` once the dial has answered with a websocket. -/
def opened (caller : ConnectCaller) : PusherWorld σ :=
  { world with
    session :=
      { world.session with
        pusherWs := some world.connections
        pusherConnected := true
        reconnectState := .connected
        reconnectAttempts := 0 }
    connections := world.connections + 1
    connectCall := some (caller, .resending) }

/-- A request that is sent again goes on to the next one; only a speaker request minds that the
connection is closed. -/
def resent (outcome : SendOutcome) : PusherWorld σ :=
  match outcome with
  | .connectionClosed => world.markDisconnected
  | _ => world

def resumeConnect (event : ConnectEvent) (monotonic : ℤ) : PusherWorld σ :=
  match world.connectCall, event with
  | some (caller, .draining), .drained ok =>
    { world with
      session :=
        { world.session with pusherWs := if ok then none else world.session.pusherWs }
      connectCall := some (caller, .dialing) }
  | some (caller, .dialing), .opened => world.opened caller
  | some (caller, .dialing), .refused =>
    returnConnect { world with session := { world.session with pusherWs := none } } caller false
      monotonic
  | some (caller, .dialing), .circuitOpen => world.returnConnect caller true monotonic
  | some (caller, .dialing), .failed => world.returnConnect caller false monotonic
  | some (_, .resending), .resent outcome => world.resent outcome
  | some (caller, .resending), .finished => world.returnConnect caller false monotonic
  | some (.first, _), .cancelled => { world with connectCall := none }
  | _, _ => world

/-- One turn of the loop's `while`, up to its next await. -/
def loopHead (number : ℕ) (monotonic : ℤ) : PusherWorld σ :=
  let session := world.session
  if !world.isActive || session.pusherConnected then world.endLoop number .condition
  else
    match session.reconnectState with
    | .reconnectBackoff =>
      if pusherMaxReconnectAttempts ≤ session.reconnectAttempts then
        { world.enterDegraded monotonic with
          session :=
            { (world.enterDegraded monotonic).session with reconnectAttempts := 0 } }
      else world.setLoop number .backoff
    | .degraded =>
      if 0 < pusherDegradedCooldown - (monotonic - session.degradedSince) then
        world.setLoop number .cooldown
      else { world with session := { session with reconnectState := .halfOpenProbe } }
    | .halfOpenProbe => world.setLoop number (.connecting true)
    | .connected => world.endLoop number .fallThrough

/-- The loop goes on. A wait is woken only by the shutdown event, which ends the loop. -/
def resumeLoop (number : ℕ) (woken : Bool) (monotonic : ℤ) : PusherWorld σ :=
  match world.loops[number]? with
  | some .head => world.loopHead number monotonic
  | some .backoff =>
    if world.shutdown && woken then world.endLoop number .shutdown
    else world.setLoop number (.connecting false)
  | some .cooldown =>
    if world.shutdown && woken then world.endLoop number .shutdown
    else world.setLoop number .head
  | some (.connecting _) => world.beginConnect (.loop number) monotonic
  | _ => world

/-! ### Steps -/

def receiveAudio (audioBytes : List UInt8) (receivedAt : ℚ) : PusherWorld σ :=
  let received := world.session.audioBytesSend config
    (audioBytes.zipIdx world.receivedAudio.length) receivedAt
  { world with
    session := received.1
    receivedAudio := world.receivedAudio ++ audioBytes
    log := world.log ++ [PusherEntry.discardedAudio received.2] }

def receiveSegments (segments : List σ) : PusherWorld σ :=
  let received := world.session.transcriptSend config
    (segments.zipIdx world.receivedSegments.length)
  { world with
    session := received.1
    receivedSegments := world.receivedSegments ++ segments
    log := world.log ++ [PusherEntry.discardedSegments received.2] }

/-- What runs between two awaits. A heartbeat, a receive or a speaker request that finds its
connection closed is `exchangeClosed`. -/
def step : PusherAction σ → PusherWorld σ
  | .audioBytesSend audioBytes receivedAt => world.receiveAudio config audioBytes receivedAt
  | .transcriptSend segments => world.receiveSegments config segments
  | .switchConversation conversationId =>
    { world with currentConversationId := conversationId }
  | .deactivate => { world with isActive := false }
  | .shutDown => { world with shutdown := true }
  | .startAudioFlush now => world.startAudioFlush config now
  | .resumeAudioFlush outcome now => world.resumeAudioFlush config outcome now
  | .startTranscriptFlush => world.startTranscriptFlush
  | .resumeTranscriptFlush outcome => world.resumeTranscriptFlush config outcome
  | .exchangeClosed => world.markDisconnected
  | .startDegraded monotonic => world.startDegraded monotonic
  | .startConnect => world.beginConnect .first 0
  | .resumeConnect event monotonic => world.resumeConnect event monotonic
  | .resumeLoop number woken monotonic => world.resumeLoop number woken monotonic

/-- The world after a list of actions, from a session that has just been made. -/
def run (actions : List (PusherAction σ)) : PusherWorld σ := actions.foldl (step config) {}

end PusherWorld
end Omi.Pusher
