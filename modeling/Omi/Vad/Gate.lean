import Mathlib.Algebra.Order.Field.Basic
import Mathlib.Tactic.Positivity
import Omi.Vad.WallTime

/-! The gate that keeps silence from the STT provider (`VADStreamingGate` of
`utils/stt/vad_gate.py`). Its clocks and totals are floats, rounded as the machine rounds them. The
decision of `_run_vad` on a chunk is an input of `processAudio`. -/
namespace Omi.Vad
open Omi.Foundation

/-- PCM16 audio. -/
abbrev Pcm := List UInt8

def vadGatePreRollMs : ℚ := 300

def vadGateHangoverMs : ℚ := 4000

def vadGateFinalizeSilenceMs : ℚ := 300

/-- Bytes per sample, always int16. -/
def sampleWidth : ℕ := 2

inductive GateState where
  | silence
  | speech
  | hangover
  deriving DecidableEq, Repr

inductive GateMode where
  | shadow
  | active
  deriving DecidableEq, Repr

structure GateOutput where
  audioToSend : Pcm
  shouldFinalize : Bool := false
  state : GateState := .silence
  isSpeech : Bool := false
  deriving DecidableEq, Repr

/-- The audio format a gate is built for, and the arithmetic of the machine it runs on. -/
structure GateConfig where
  sampleRate : ℕ := 16000
  channels : ℕ := 1
  rounding : Rounding := .binary64
  sampleRate_pos : 0 < sampleRate := by decide
  channels_pos : 0 < channels := by decide

namespace GateConfig
variable (config : GateConfig)

/-- The gate over exact arithmetic. -/
def exact : GateConfig := { config with rounding := .exact }

def bytesPerSecond : ℕ := sampleWidth * config.channels * config.sampleRate

/-- The length of audio in seconds, counted in bytes. -/
def durationSec (pcm : Pcm) : ℚ := config.rounding (pcm.length / config.bytesPerSecond)

def durationMs (pcm : Pcm) : ℚ := config.rounding (config.durationSec pcm * 1000)

/-- What the audio cursor advances by: whole samples only. -/
def chunkMs (pcm : Pcm) : ℚ :=
  let nSamples := pcm.length / (sampleWidth * config.channels)
  config.rounding
    (config.rounding (config.rounding nSamples * 1000) / config.rounding config.sampleRate)

theorem chunkMs_nonneg (pcm : Pcm) : 0 ≤ config.chunkMs pcm := by
  have hsamples := config.rounding.nonneg
    (Nat.cast_nonneg (pcm.length / (sampleWidth * config.channels)))
  have hrate := config.rounding.nonneg (Nat.cast_nonneg config.sampleRate)
  have hmillis := config.rounding.nonneg (mul_nonneg hsamples (by norm_num : (0 : ℚ) ≤ 1000))
  exact config.rounding.nonneg (div_nonneg hmillis hrate)

end GateConfig

/-- A chunk fed to `process_audio`, with the decision `_run_vad` makes on it. -/
structure AudioChunk where
  pcm : Pcm
  isSpeech : Bool
  wallTime : ℚ
  deriving DecidableEq, Repr

structure VADStreamingGate where
  config : GateConfig
  mode : GateMode := .active
  state : GateState := .silence
  audioCursorMs : ℚ := 0
  lastSpeechMs : ℚ := 0
  hangoverFinalized : Bool := false
  preRoll : List Pcm := []
  preRollTotalMs : ℚ := 0
  dgWallMapper : WallTimeMapper := { rounding := config.rounding }
  chunksTotal : ℕ := 0
  chunksSpeech : ℕ := 0
  chunksSilence : ℕ := 0
  finalizeCount : ℕ := 0
  bytesReceived : ℕ := 0
  bytesSent : ℕ := 0
  firstAudioWallTime : Option ℚ := none
  lastSendWallTime : Option ℚ := none
  speechMsTotal : ℚ := 0
  speechMsDelta : ℚ := 0
  prometheusBytesSent : ℕ := 0
  prometheusBytesSkipped : ℕ := 0

/-- The eviction loop: the oldest chunks go while the total exceeds the pre-roll and more than
one is left. -/
def evict (config : GateConfig) : List Pcm → ℚ → List Pcm × ℚ
  | evicted :: next :: rest, totalMs =>
    if vadGatePreRollMs < totalMs then
      evict config (next :: rest) (config.rounding (totalMs - config.durationMs evicted))
    else (evicted :: next :: rest, totalMs)
  | chunks, totalMs => (chunks, totalMs)

namespace VADStreamingGate

/-- Switch from shadow to active mode. -/
def activate (gate : VADStreamingGate) : VADStreamingGate :=
  if gate.mode = .shadow then
    { gate with
      mode := .active
      state := .silence
      preRoll := []
      preRollTotalMs := 0
      hangoverFinalized := false
      dgWallMapper :=
        { gate.dgWallMapper with
          providerCursorSec := gate.config.rounding (gate.audioCursorMs / 1000) } }
  else gate

/-- Remap provider timestamps if the gate is active. -/
def remapSegments (gate : VADStreamingGate) (segments : List SegmentTimes) : List SegmentTimes :=
  if gate.mode = .active then segments.map gate.dgWallMapper.remap else segments

/-- The bytes waiting in the pre-roll. -/
def pendingBytes (gate : VADStreamingGate) : ℕ := (gate.preRoll.map List.length).sum

/-- Advance the counters by the audio that has its final outcome. The difference of naturals is
the `max(0, ...)` of the source. -/
def recordPrometheusAudio (gate : VADStreamingGate) : VADStreamingGate :=
  { gate with
    prometheusBytesSent := gate.bytesSent
    prometheusBytesSkipped := gate.bytesReceived - gate.bytesSent - gate.pendingBytes }

/-- The accounting of `process_audio` before the mode is looked at. -/
def receive (gate : VADStreamingGate) (chunk : AudioChunk) : VADStreamingGate :=
  let chunkMs := gate.config.chunkMs chunk.pcm
  let cursorMs := gate.config.rounding (gate.audioCursorMs + chunkMs)
  let counted := chunk.isSpeech && gate.mode = .active
  { gate with
    firstAudioWallTime := some (gate.firstAudioWallTime.getD chunk.wallTime)
    chunksTotal := gate.chunksTotal + 1
    bytesReceived := gate.bytesReceived + chunk.pcm.length
    audioCursorMs := cursorMs
    lastSpeechMs := if chunk.isSpeech then cursorMs else gate.lastSpeechMs
    chunksSpeech := if chunk.isSpeech then gate.chunksSpeech + 1 else gate.chunksSpeech
    chunksSilence := if chunk.isSpeech then gate.chunksSilence else gate.chunksSilence + 1
    speechMsTotal :=
      if counted then gate.config.rounding (gate.speechMsTotal + chunkMs) else gate.speechMsTotal
    speechMsDelta :=
      if counted then gate.config.rounding (gate.speechMsDelta + chunkMs) else gate.speechMsDelta }

/-- A first wall time of zero counts as not set. -/
def wallRel (gate : VADStreamingGate) (wallTime : ℚ) : ℚ :=
  match gate.firstAudioWallTime with
  | none => 0
  | some first => if first = 0 then 0 else gate.config.rounding (wallTime - first)

/-- Send audio that began at `wallRelSec`. -/
def send (gate : VADStreamingGate) (audio : Pcm) (wallRelSec wallTime : ℚ) : VADStreamingGate :=
  { gate with
    dgWallMapper := gate.dgWallMapper.onAudioSent (gate.config.durationSec audio) wallRelSec
    bytesSent := gate.bytesSent + audio.length
    lastSendWallTime := some wallTime }

def skip (gate : VADStreamingGate) : VADStreamingGate :=
  { gate with dgWallMapper := gate.dgWallMapper.onSilenceSkipped }

/-- The pre-roll with the chunk at its end, after eviction. -/
def retained (gate : VADStreamingGate) (pcm : Pcm) : List Pcm × ℚ :=
  evict gate.config (gate.preRoll ++ [pcm])
    (gate.config.rounding (gate.preRollTotalMs + gate.config.durationMs pcm))

/-- `_update_state` in silence. -/
def updateSilence (gate : VADStreamingGate) (chunk : AudioChunk) :
    VADStreamingGate × GateOutput :=
  let wallRel := gate.wallRel chunk.wallTime
  let retained := gate.retained chunk.pcm
  if chunk.isSpeech then
    let preRollAudio := retained.1.flatten
    let beforePreRoll := gate.config.rounding (wallRel - gate.config.durationSec preRollAudio)
    let preRollWallRel :=
      max 0 (gate.config.rounding (beforePreRoll + gate.config.durationSec chunk.pcm))
    let opened := { gate with state := .speech, preRoll := [], preRollTotalMs := 0 }
    (opened.send preRollAudio preRollWallRel chunk.wallTime,
      { audioToSend := preRollAudio, state := .speech, isSpeech := true })
  else
    ({ gate.skip with preRoll := retained.1, preRollTotalMs := retained.2 },
      { audioToSend := [] })

/-- `_update_state` in speech: the audio is sent whatever the decision. -/
def updateSpeech (gate : VADStreamingGate) (chunk : AudioChunk) :
    VADStreamingGate × GateOutput :=
  let sent := gate.send chunk.pcm (gate.wallRel chunk.wallTime) chunk.wallTime
  let next := if chunk.isSpeech then sent
    else { sent with state := .hangover, hangoverFinalized := false }
  (next, { audioToSend := chunk.pcm, state := next.state, isSpeech := chunk.isSpeech })

/-- The hangover has expired: the chunk starts a new pre-roll. -/
def endHangover (gate : VADStreamingGate) (pcm : Pcm) : VADStreamingGate × GateOutput :=
  let needFinalize := !gate.hangoverFinalized
  ({ gate.skip with
      state := .silence
      finalizeCount := if needFinalize then gate.finalizeCount + 1 else gate.finalizeCount
      hangoverFinalized := false
      preRoll := [pcm]
      preRollTotalMs := gate.config.durationMs pcm },
    { audioToSend := [], shouldFinalize := needFinalize })

/-- `_update_state` in hangover. -/
def updateHangover (gate : VADStreamingGate) (chunk : AudioChunk) :
    VADStreamingGate × GateOutput :=
  let timeSinceSpeechMs := gate.config.rounding (gate.audioCursorMs - gate.lastSpeechMs)
  let sent := gate.send chunk.pcm (gate.wallRel chunk.wallTime) chunk.wallTime
  if chunk.isSpeech then
    ({ sent with state := .speech, hangoverFinalized := false },
      { audioToSend := chunk.pcm, state := .speech, isSpeech := true })
  else if vadGateHangoverMs < timeSinceSpeechMs then gate.endHangover chunk.pcm
  else
    let shouldFinalizeNow :=
      !gate.hangoverFinalized && vadGateFinalizeSilenceMs ≤ timeSinceSpeechMs
    ({ sent with
        hangoverFinalized := gate.hangoverFinalized || shouldFinalizeNow
        finalizeCount :=
          if shouldFinalizeNow then gate.finalizeCount + 1 else gate.finalizeCount },
      { audioToSend := chunk.pcm, shouldFinalize := shouldFinalizeNow, state := .hangover })

/-- The state machine of active mode. -/
def updateState (gate : VADStreamingGate) (chunk : AudioChunk) :
    VADStreamingGate × GateOutput :=
  match gate.state with
  | .silence => gate.updateSilence chunk
  | .speech => gate.updateSpeech chunk
  | .hangover => gate.updateHangover chunk

/-- Shadow mode: everything is sent. -/
def passThrough (gate : VADStreamingGate) (chunk : AudioChunk) :
    VADStreamingGate × GateOutput :=
  ({ gate with
      bytesSent := gate.bytesSent + chunk.pcm.length
      lastSendWallTime := some chunk.wallTime },
    { audioToSend := chunk.pcm, state := gate.state, isSpeech := chunk.isSpeech })

def processAudio (gate : VADStreamingGate) (chunk : AudioChunk) :
    VADStreamingGate × GateOutput :=
  let received := gate.receive chunk
  let (next, output) :=
    match gate.mode with
    | .shadow => received.passThrough chunk
    | .active => received.updateState chunk
  (next.recordPrometheusAudio, output)

end VADStreamingGate

end Omi.Vad
