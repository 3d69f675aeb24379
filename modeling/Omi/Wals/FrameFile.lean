import Mathlib.Data.List.TakeWhile
import Omi.Foundation.Framing

/-! Offline audio files: the frames the app captures (`audio_sources`), the file its flush
writes (`local_wal_sync.dart`) and the two decoders of the backend (`utils/sync/files.py`). -/
namespace Omi.Wals
open Omi.Foundation

abbrev Bytes := List UInt8

/-! ### Capture -/

/-- A captured frame with the key that marks it as synced. -/
structure WalFrame where
  payload : Bytes
  syncKey : Bytes
  deriving DecidableEq, Repr

/-- The firmware header of a BLE audio packet. -/
def headerSize : ℕ := 3

/-- `BleDeviceSource.processBytes`: a packet without audio is dropped. -/
def bleProcessBytes (rawBytes : Bytes) : List WalFrame :=
  if rawBytes.length ≤ headerSize then []
  else [⟨rawBytes.drop headerSize, rawBytes.take headerSize⟩]

/-- Ten milliseconds of 16 kHz PCM16. -/
def micFrameSize : ℕ := 320

/-- The state of a `PhoneMicSource`. -/
structure PhoneMicSource where
  buffer : Bytes := []
  frameIndex : UInt8 := 0
  deriving DecidableEq, Repr

namespace PhoneMicSource

/-- The loop of `processBytes`: full frames leave the buffer. -/
def split (source : PhoneMicSource) : List WalFrame × PhoneMicSource :=
  if _hfull : micFrameSize ≤ source.buffer.length then
    let frame : WalFrame := ⟨source.buffer.take micFrameSize, [source.frameIndex]⟩
    let rest := split ⟨source.buffer.drop micFrameSize, source.frameIndex + 1⟩
    (frame :: rest.1, rest.2)
  else ([], source)
termination_by source.buffer.length
decreasing_by
  simp only [List.length_drop]
  unfold micFrameSize at *
  omega

def processBytes (source : PhoneMicSource) (rawBytes : Bytes) :
    List WalFrame × PhoneMicSource :=
  split { source with buffer := source.buffer ++ rawBytes }

/-- What is left is padded with zeros to a whole frame. -/
def flush (source : PhoneMicSource) : List WalFrame × PhoneMicSource :=
  if source.buffer = [] then ([], source)
  else
    let padded := source.buffer ++ List.replicate (micFrameSize - source.buffer.length) 0
    ([⟨padded, [source.frameIndex]⟩], ⟨[], source.frameIndex + 1⟩)

end PhoneMicSource

/-! ### Files -/

/-- `Uint32List.fromList([n])`, little-endian. -/
def u32Bytes (n : ℕ) : Bytes :=
  [UInt8.ofNat n, UInt8.ofNat (n / 256), UInt8.ofNat (n / 65536), UInt8.ofNat (n / 16777216)]

/-- `struct.unpack('<I', ...)`. -/
def u32Value : Bytes → ℕ
  | [a, b, c, d] => a.toNat + 256 * b.toNat + 65536 * c.toNat + 16777216 * d.toNat
  | _ => 0

def maxSyncFrameBytes : ℕ := 65536

theorem u32Value_u32Bytes {n : ℕ} (h : n < 4294967296) : u32Value (u32Bytes n) = n := by
  simp only [u32Value, u32Bytes, UInt8.toNat_ofNat']
  omega

/-- The bytes the flush writes for one recording. -/
def flushData (frames : List Bytes) : Bytes :=
  frames.flatMap fun frame => u32Bytes frame.length ++ frame

theorem sizeWidth_pos : 0 < 4 := by decide

/-- What both decoders read: a zero or oversized length ends the stream. -/
def syncFraming : Framing UInt8 where
  width := 4
  width_pos := sizeWidth_pos
  header := u32Bytes
  length := u32Value
  legal frameLength := !(frameLength = 0 || maxSyncFrameBytes < frameLength)
  length_header _ := rfl
  header_inv n hlegal := by
    have hbound : ¬n = 0 ∧ n ≤ maxSyncFrameBytes := by simpa using hlegal
    exact u32Value_u32Bytes (by unfold maxSyncFrameBytes at hbound; omega)

theorem flushData_eq (frames : List Bytes) : flushData frames = syncFraming.encode frames := rfl

/-! ### The Opus path -/

/-- What the Opus decoder has made of the stream: its own state, the frames it decoded and the
audio written. -/
structure OpusStream (σ : Type) where
  decoder : σ
  frames : List Bytes := []
  pcm : Bytes := []

/-- Decode one frame; `none` where `decoder.decode` raises. -/
def OpusStream.decodeFrame {σ : Type} (decode : σ → Bytes → Option (Bytes × σ))
    (stream : OpusStream σ) (opusData : Bytes) : Option (OpusStream σ) :=
  (decode stream.decoder opusData).map fun decoded =>
    ⟨decoded.2, stream.frames ++ [opusData], stream.pcm ++ decoded.1⟩

/-- The loop of `decode_opus_file_to_wav`. -/
def decodeOpusStream {σ : Type} (decode : σ → Bytes → Option (Bytes × σ)) (decoder : σ)
    (file : Bytes) : OpusStream σ :=
  (syncFraming.scan (OpusStream.decodeFrame decode) ⟨decoder, [], []⟩ file).1

/-- The audio of the WAV file, if the file is there and a frame was decoded. -/
def decodeOpusFileToWav {σ : Type} (decode : σ → Bytes → Option (Bytes × σ)) (decoder : σ)
    (file : Option Bytes) : Option Bytes :=
  file.bind fun file =>
    let stream := decodeOpusStream decode decoder file
    if stream.frames = [] then none else some stream.pcm

/-! ### The PCM path -/

/-- The layout of PCM samples. -/
structure PcmFormat where
  sampleWidth : ℕ := 2
  channels : ℕ := 1
  sampleWidth_pos : 0 < sampleWidth := by decide
  channels_pos : 0 < channels := by decide

/-- A frame that holds whole samples. -/
def PcmFormat.Aligned (format : PcmFormat) (frame : Bytes) : Prop :=
  frame.length % (format.sampleWidth * format.channels) = 0

instance (format : PcmFormat) (frame : Bytes) : Decidable (format.Aligned frame) :=
  inferInstanceAs (Decidable (_ = 0))

/-- Collect one frame; a misaligned one ends the stream. -/
def collectFrame (format : PcmFormat) (frames : List Bytes) (frameData : Bytes) :
    Option (List Bytes) :=
  if format.Aligned frameData then some (frames ++ [frameData]) else none

/-- The frames that `decode_pcm_file_to_wav` collects; its `pcm_data` is their
concatenation. -/
def pcmFrames (format : PcmFormat) (file : Bytes) : List Bytes :=
  (syncFraming.scan (collectFrame format) [] file).1

/-- The audio of the WAV file, if the file can be read and holds any. -/
def decodePcmFileToWav (format : PcmFormat) (file : Option Bytes) : Option Bytes :=
  file.bind fun file =>
    let pcmData := (pcmFrames format file).flatten
    if pcmData = [] then none else some pcmData

/-! ### Round trips -/

/-- Both sources of the app capture frames with audio in them. -/
theorem bleProcessBytes_payload {rawBytes : Bytes} {frame : WalFrame}
    (h : frame ∈ bleProcessBytes rawBytes) : 0 < frame.payload.length := by
  unfold bleProcessBytes at h
  split_ifs at h with hshort
  · cases h
  · rw [List.mem_singleton.1 h, List.length_drop]
    omega

theorem PhoneMicSource.split_payload (source : PhoneMicSource) :
    ∀ frame ∈ source.split.1, frame.payload.length = micFrameSize := by
  fun_induction PhoneMicSource.split source with
  | case1 source hfull frame rest ih =>
    intro other hmem
    rcases List.mem_cons.1 hmem with rfl | hmem
    · exact List.length_take_of_le hfull
    · exact ih other hmem
  | case2 source hshort =>
    intro frame hmem
    cases hmem

theorem PhoneMicSource.flush_payload (source : PhoneMicSource)
    (hshort : source.buffer.length ≤ micFrameSize) :
    ∀ frame ∈ source.flush.1, frame.payload.length = micFrameSize := by
  intro frame hmem
  unfold flush at hmem
  split_ifs at hmem
  · cases hmem
  · rw [List.mem_singleton.1 hmem]
    simp only [List.length_append, List.length_replicate]
    omega

theorem syncFraming_legal {frame : Bytes} (hne : frame ≠ [])
    (hsize : frame.length ≤ maxSyncFrameBytes) : syncFraming.legal frame.length = true := by
  simp [syncFraming, hne, hsize]

/-- The frames decoded before one the Opus decoder refuses. -/
def acceptedFrames {σ : Type} (decode : σ → Bytes → Option (Bytes × σ)) (decoder : σ) :
    List Bytes → List Bytes
  | [] => []
  | frame :: rest =>
    match decode decoder frame with
    | none => []
    | some decoded => frame :: acceptedFrames decode decoded.2 rest

theorem acceptedFrames_eq_self {σ : Type} {decode : σ → Bytes → Option (Bytes × σ)}
    {decoder : σ} {frames : List Bytes}
    (h : ∀ state, ∀ frame ∈ frames, decode state frame ≠ none) :
    acceptedFrames decode decoder frames = frames := by
  induction frames generalizing decoder with
  | nil => rfl
  | cons frame rest ih =>
    have hfirst := h decoder frame List.mem_cons_self
    cases hdecode : decode decoder frame with
    | none => exact absurd hdecode hfirst
    | some decoded =>
      simp only [acceptedFrames, hdecode]
      rw [ih fun state other hother => h state other (List.mem_cons_of_mem frame hother)]

theorem feed_decodeFrame {σ : Type} (decode : σ → Bytes → Option (Bytes × σ))
    (stream : OpusStream σ) (frames : List Bytes) :
    (Framing.feed (OpusStream.decodeFrame decode) stream frames).frames =
      stream.frames ++ acceptedFrames decode stream.decoder frames := by
  induction frames generalizing stream with
  | nil => simp [Framing.feed, acceptedFrames]
  | cons frame rest ih =>
    cases hdecode : decode stream.decoder frame with
    | none => simp [Framing.feed, acceptedFrames, OpusStream.decodeFrame, hdecode]
    | some decoded =>
      simp only [Framing.feed, acceptedFrames, OpusStream.decodeFrame, hdecode, Option.map_some]
      rw [ih]
      simp

theorem feed_collectFrame (format : PcmFormat) (collected frames : List Bytes) :
    Framing.feed (collectFrame format) collected frames =
      collected ++ frames.takeWhile fun frame => format.Aligned frame := by
  induction frames generalizing collected with
  | nil => simp [Framing.feed]
  | cons frame rest ih =>
    by_cases haligned : format.Aligned frame
    · simp only [Framing.feed, collectFrame, haligned, if_true]
      rw [ih]
      simp [haligned]
    · simp [Framing.feed, collectFrame, haligned]

/-- The PCM decoder stops at a frame of one byte that the Opus decoder is given, and both stop at
an empty one, whatever follows it. -/
theorem not_everyFrameReturns :
    let echo : Unit → Bytes → Option (Bytes × Unit) := fun _ opusData => some (opusData, ())
    (decodeOpusStream echo () (flushData [[7]])).frames = [[7]] ∧
      pcmFrames {} (flushData [[7]]) = [] ∧
      (decodeOpusStream echo () (flushData [[], [7]])).frames = [] ∧
      pcmFrames {} (flushData [[], [7, 7]]) = [] := by
  have hlegal : ∀ frame ∈ ([[7]] : List Bytes), syncFraming.legal frame.length = true := by
    decide
  refine ⟨?_, ?_, ?_, ?_⟩
  · have hscan := Framing.scan_take_encode (OpusStream.decodeFrame fun _ opusData =>
      some (opusData, ())) ⟨(), [], []⟩ hlegal 5
    exact (congrArg OpusStream.frames hscan).trans rfl
  · exact (Framing.scan_take_encode (collectFrame {}) [] hlegal 5).trans rfl
  · rw [decodeOpusStream, Framing.scan]
    rfl
  · rw [pcmFrames, Framing.scan]
    rfl

/-- Uploads of flushed frames, whole or cut off anywhere, decode to the frames they wholly
contain: on the Opus path up to a frame the Opus decoder refuses, on the PCM path up to one
that does not hold whole samples. -/
theorem offlineFileRoundTrip {σ : Type} (decode : σ → Bytes → Option (Bytes × σ)) (decoder : σ)
    (format : PcmFormat) (frames : List Bytes)
    (hframes : ∀ frame ∈ frames, frame ≠ [] ∧ frame.length ≤ maxSyncFrameBytes) (count : ℕ) :
    let upload := (flushData frames).take count
    let whole := syncFraming.contained frames count
    (decodeOpusStream decode decoder upload).frames = acceptedFrames decode decoder whole ∧
    pcmFrames format upload = whole.takeWhile (fun frame => format.Aligned frame) ∧
    (whole <+: frames ∧ ∀ k ≤ frames.length,
      (flushData (frames.take k)).length ≤ count ↔ k ≤ whole.length) ∧
    ((flushData frames).length ≤ count → whole = frames) ∧
    ((∀ state, ∀ frame ∈ frames, decode state frame ≠ none) →
      (∀ frame ∈ frames, format.Aligned frame) →
      (decodeOpusStream decode decoder upload).frames = whole ∧
        pcmFrames format upload = whole) := by
  intro upload whole
  have hlegal : ∀ frame ∈ frames, syncFraming.legal frame.length = true := by
    intro frame hmem
    exact syncFraming_legal (hframes frame hmem).1 (hframes frame hmem).2
  have hopus : (decodeOpusStream decode decoder upload).frames =
      acceptedFrames decode decoder whole := by
    have hscan := Framing.scan_take_encode (OpusStream.decodeFrame decode) ⟨decoder, [], []⟩
      hlegal count
    rw [decodeOpusStream]
    simp only [upload, flushData_eq, hscan, feed_decodeFrame, List.nil_append, whole]
  have hpcm : pcmFrames format upload =
      whole.takeWhile (fun frame => format.Aligned frame) := by
    have hscan := Framing.scan_take_encode (collectFrame format) [] hlegal count
    rw [pcmFrames]
    simp only [upload, flushData_eq, hscan, feed_collectFrame, List.nil_append, whole]
  have hfront : whole <+: frames := Framing.contained_prefix frames count
  have hmem : ∀ frame ∈ whole, frame ∈ frames := fun frame hframe => hfront.subset hframe
  have hfits : ∀ k ≤ frames.length,
      (flushData (frames.take k)).length ≤ count ↔ k ≤ whole.length := by
    intro k hk
    rw [flushData_eq]
    exact Framing.length_encode_take_le_iff frames count k hk
  have hall : (flushData frames).length ≤ count → whole = frames := by
    intro hlength
    rw [flushData_eq] at hlength
    exact Framing.contained_eq_self hlength
  refine ⟨hopus, hpcm, ⟨hfront, hfits⟩, hall, fun hdecodes haligned => ⟨?_, ?_⟩⟩
  · rw [hopus]
    exact acceptedFrames_eq_self fun state frame hframe => hdecodes state frame (hmem frame hframe)
  · rw [hpcm, List.takeWhile_eq_self_iff]
    intro frame hframe
    exact decide_eq_true (haligned frame (hmem frame hframe))

/-- Two frames, the second cut short. -/
theorem offlineFileRoundTrip_cut :
    pcmFrames {} ((flushData [[1, 2], [3, 4, 5, 6]]).take 13) = [[1, 2]] := by
  have hframes : ∀ frame ∈ ([[1, 2], [3, 4, 5, 6]] : List Bytes),
      frame ≠ [] ∧ frame.length ≤ maxSyncFrameBytes := by
    decide
  have h := (offlineFileRoundTrip (fun _ _ => none) () {} _ hframes 13).2.1
  exact h.trans (by decide)

end Omi.Wals
