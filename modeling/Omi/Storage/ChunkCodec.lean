import Mathlib
import Omi.Foundation.BytePack
import Omi.Foundation.Framing

/-! The two formats of a private-cloud chunk: length-prefixed Opus packets
(`utils/other/storage.py`) and length-prefixed encrypted payloads (`utils/encryption.py`). -/
namespace Omi.Storage
open Omi.Foundation

abbrev Bytes := List UInt8

/-- What the codecs raise. -/
inductive ChunkError where
  | valueError (message : String)
  | structError
  | opusError
  | invalidTag
  deriving DecidableEq, Repr

/-- `data[offset : offset + length]`. -/
def slice (data : Bytes) (offset length : ℕ) : Bytes :=
  (data.drop offset).take length

/-- `struct.pack` of an unsigned integer, in the given byte order. -/
def structPack (layout : ℕ → ℕ → Bytes) (width n : ℕ) : Except ChunkError Bytes :=
  if n < 256 ^ width then .ok (layout width n) else .error .structError

/-! ### Opus chunks -/

/-- `opuslib`, whose coders keep a state. `decode` is `none` where it raises. -/
structure OpusLib where
  Encoder : Type
  Decoder : Type
  newEncoder : ℕ → ℕ → Encoder
  newDecoder : ℕ → ℕ → Decoder
  encode : Encoder → Bytes → ℕ → Bytes × Encoder
  decode : Decoder → Bytes → ℕ → Option (Bytes × Decoder)

/-- A sample rate in Hz and a number of channels, for which a frame is not empty. -/
structure OpusFormat where
  sampleRate : ℕ := 16000
  channels : ℕ := 1
  frame_pos : 0 < sampleRate * 20 / 1000 * channels * 2

namespace OpusFormat

def frameDurationMs : ℕ := 20

variable (format : OpusFormat)

def frameSize : ℕ := format.sampleRate * frameDurationMs / 1000

def bytesPerFrame : ℕ := format.frameSize * format.channels * 2

theorem bytesPerFrame_pos : 0 < format.bytesPerFrame := format.frame_pos

end OpusFormat

variable (opus : OpusLib) (format : OpusFormat)

/-- The loop over whole frames, and the last frame padded with silence. -/
def encodeFrames (encoder : opus.Encoder) (pcmData : Bytes) : List Bytes :=
  if _hfull : format.bytesPerFrame ≤ pcmData.length then
    let encoded := opus.encode encoder (pcmData.take format.bytesPerFrame) format.frameSize
    encoded.1 :: encodeFrames encoded.2 (pcmData.drop format.bytesPerFrame)
  else if pcmData = [] then []
  else
    let padded := pcmData ++ List.replicate (format.bytesPerFrame - pcmData.length) 0
    [(opus.encode encoder padded format.frameSize).1]
termination_by pcmData.length
decreasing_by
  have hpos := format.bytesPerFrame_pos
  rw [List.length_drop]
  omega

def opusPackets (pcmData : Bytes) : List Bytes :=
  encodeFrames opus format (opus.newEncoder format.sampleRate format.channels) pcmData

def packPacket (packet : Bytes) : Except ChunkError Bytes := do
  let header ← structPack littleEndian 2 packet.length
  return header ++ packet

def encodePcmToOpus (pcmData : Bytes) : Except ChunkError Bytes := do
  let packets := opusPackets opus format pcmData
  let packetCount ← structPack littleEndian 4 packets.length
  let originalPcmLen ← structPack littleEndian 4 pcmData.length
  let packed ← packets.mapM packPacket
  return packetCount ++ originalPcmLen ++ packed.flatten

/-- The loop over `packet_count` packets, of which `remaining` are left, from an offset. -/
def readPackets (opusData : Bytes) (packetCount : ℕ) : ℕ → ℕ → Except ChunkError (List Bytes)
  | 0, _ => .ok []
  | remaining + 1, offset =>
    let i := packetCount - (remaining + 1)
    if opusData.length < offset + 2 then
      .error (.valueError
        s!"Truncated Opus data: expected packet {i}/{packetCount} length at offset {offset}")
    else
      let pktLen := littleEndianValue (slice opusData offset 2)
      let start := offset + 2
      let available := opusData.length - start
      if opusData.length < start + pktLen then
        .error (.valueError
          s!"Truncated Opus data: packet {i} needs {pktLen} bytes at offset {start}, only {available} available")
      else do
        let rest ← readPackets opusData packetCount remaining (start + pktLen)
        return slice opusData start pktLen :: rest

/-- The frames that the decoder makes of the packets. -/
def decodePackets (decoder : opus.Decoder) : List Bytes → Except ChunkError (List Bytes)
  | [] => .ok []
  | packet :: rest =>
    match opus.decode decoder packet format.frameSize with
    | none => .error .opusError
    | some (decoded, next) => do
      let parts ← decodePackets next rest
      return decoded :: parts

def decodedFrames (packets : List Bytes) : Except ChunkError (List Bytes) :=
  decodePackets opus format (opus.newDecoder format.sampleRate format.channels) packets

def decodeOpusToPcm (opusData : Bytes) : Except ChunkError Bytes := do
  let length := opusData.length
  if length < 8 then
    .error (.valueError s!"Opus data too short: {length} bytes (need at least 8 for header)")
  else
    let packetCount := littleEndianValue (slice opusData 0 4)
    let originalPcmLen := littleEndianValue (slice opusData 4 4)
    let packets ← readPackets opusData packetCount packetCount 8
    let pcmParts ← decodedFrames opus format packets
    let result := pcmParts.flatten
    if 0 < originalPcmLen ∧ originalPcmLen < result.length then
      return result.take originalPcmLen
    else return result

/-! ### Encrypted chunks -/

/-- The key derivation and AES-GCM; `decrypt` is `none` where it raises. -/
structure Aead where
  Key : Type
  deriveKey : String → Key
  encrypt : Key → Bytes → Bytes → Bytes
  decrypt : Key → Bytes → Bytes → Option Bytes

/-- Twelve random bytes. -/
abbrev Nonce := { nonce : Bytes // nonce.length = 12 }

variable (aead : Aead)

/-- The nonce and the ciphertext of a chunk. -/
def encryptedPayload (uid : String) (nonce : Nonce) (data : Bytes) : Bytes :=
  nonce.1 ++ aead.encrypt (aead.deriveKey uid) nonce.1 data

def encryptAudioChunk (uid : String) (nonce : Nonce) (data : Bytes) : Except ChunkError Bytes := do
  let payload := encryptedPayload aead uid nonce data
  let header ← structPack bigEndian 4 payload.length
  return header ++ payload

/-- The data and the bytes consumed. -/
def decryptAudioChunk (encryptedData : Bytes) (uid : String) (offset : ℕ) :
    Except ChunkError (Bytes × ℕ) :=
  let header := slice encryptedData offset 4
  if header.length ≠ 4 then .error .structError
  else
    let length := bigEndianValue header
    let payload := slice encryptedData (offset + 4) length
    match aead.decrypt (aead.deriveKey uid) (payload.take 12) (payload.drop 12) with
    | none => .error .invalidTag
    | some decrypted => .ok (decrypted, 4 + length)

variable {aead} in
theorem decryptAudioChunk_consumed {encryptedData : Bytes} {uid : String} {offset : ℕ}
    {chunk : Bytes × ℕ} (h : decryptAudioChunk aead encryptedData uid offset = .ok chunk) :
    4 ≤ chunk.2 := by
  unfold decryptAudioChunk at h
  dsimp only at h
  split_ifs at h with hheader
  split at h
  · cases h
  · cases h
    exact Nat.le_add_right 4 _

/-- The loop of `decrypt_audio_file`, from an offset. -/
def decryptFrom (encryptedData : Bytes) (uid : String) (offset : ℕ) : Except ChunkError Bytes :=
  if _hmore : offset < encryptedData.length then
    match _hchunk : decryptAudioChunk aead encryptedData uid offset with
    | .error error => .error error
    | .ok chunk => do
      let rest ← decryptFrom encryptedData uid (offset + chunk.2)
      return chunk.1 ++ rest
  else .ok []
termination_by encryptedData.length - offset
decreasing_by
  have hconsumed := decryptAudioChunk_consumed _hchunk
  omega

def decryptAudioFile (encryptedData : Bytes) (uid : String) : Except ChunkError Bytes :=
  decryptFrom aead encryptedData uid 0

/-! ### The packets of a chunk -/

variable {opus format aead}

theorem structPack_ok {layout : ℕ → ℕ → Bytes} {width n : ℕ} (h : n < 256 ^ width) :
    structPack layout width n = .ok (layout width n) :=
  if_pos h

theorem take_append_right {front back : Bytes} {count : ℕ} (h : front.length ≤ count) :
    (front ++ back).take count = front ++ back.take (count - front.length) := by
  rw [List.take_append, List.take_of_length_le h]

theorem slice_append (front back : Bytes) {offset : ℕ} (h : offset = front.length) (length : ℕ) :
    slice (front ++ back) offset length = back.take length := by
  rw [slice, List.drop_left' h.symm]

def packetFraming : Framing UInt8 where
  width := 2
  width_pos := Nat.two_pos
  header := littleEndian 2
  length := littleEndianValue
  legal pktLen := decide (pktLen < 256 ^ 2)
  length_header := length_littleEndian 2
  header_inv _ hlegal := littleEndianValue_littleEndian (of_decide_eq_true hlegal)

theorem packPackets_ok {packets : List Bytes} (h : ∀ packet ∈ packets, packet.length < 256 ^ 2) :
    packets.mapM packPacket =
      .ok (packets.map fun packet => littleEndian 2 packet.length ++ packet) := by
  induction packets with
  | nil => rfl
  | cons packet rest ih =>
    have hpacket : packPacket packet = .ok (littleEndian 2 packet.length ++ packet) := by
      rw [packPacket, structPack_ok (h packet List.mem_cons_self)]
      rfl
    have hrest := ih fun other hother => h other (List.mem_cons_of_mem packet hother)
    rw [List.mapM_cons, hpacket, hrest]
    rfl

/-- The chunk of a count, a length and packets. -/
def opusChunk (originalPcmLen : ℕ) (packets : List Bytes) : Bytes :=
  littleEndian 4 packets.length ++ littleEndian 4 originalPcmLen ++ packetFraming.encode packets

theorem encodePcmToOpus_ok {pcmData : Bytes}
    (hshort : ∀ packet ∈ opusPackets opus format pcmData, packet.length < 256 ^ 2)
    (hcount : (opusPackets opus format pcmData).length < 256 ^ 4)
    (hlength : pcmData.length < 256 ^ 4) :
    encodePcmToOpus opus format pcmData =
      .ok (opusChunk pcmData.length (opusPackets opus format pcmData)) := by
  simp only [encodePcmToOpus]
  rw [structPack_ok hcount, structPack_ok hlength, packPackets_ok hshort]
  rfl

/-! ### Reading them back -/

theorem packetFraming_encode_cons (packet : Bytes) (rest : List Bytes) :
    packetFraming.encode (packet :: rest) =
      littleEndian 2 packet.length ++ (packet ++ packetFraming.encode rest) := by
  simp [Framing.encode, packetFraming]

/-- One round of the reading loop, where a whole packet follows the offset. -/
theorem readPackets_packet (front packet back : Bytes) (packetCount remaining : ℕ)
    (hpacket : packet.length < 256 ^ 2) :
    readPackets (front ++ (littleEndian 2 packet.length ++ (packet ++ back))) packetCount
        (remaining + 1) front.length =
      (do
        let rest ← readPackets (front ++ (littleEndian 2 packet.length ++ (packet ++ back)))
          packetCount remaining (front.length + 2 + packet.length)
        return packet :: rest) := by
  have hheader : slice (front ++ (littleEndian 2 packet.length ++ (packet ++ back))) front.length 2 =
      littleEndian 2 packet.length := by
    rw [slice_append _ _ rfl, List.take_left' (length_littleEndian 2 _)]
  have hbody : slice (front ++ (littleEndian 2 packet.length ++ (packet ++ back)))
      (front.length + 2) packet.length = packet := by
    rw [← List.append_assoc, slice_append _ _ (by simp), List.take_left' rfl]
  have hlength := littleEndianValue_littleEndian hpacket
  rw [readPackets]
  simp only [hheader, hlength, hbody]
  rw [if_neg (by simp; omega), if_neg (by simp; omega)]

theorem readPackets_encode (front back : Bytes) {packets : List Bytes} (packetCount : ℕ)
    (hshort : ∀ packet ∈ packets, packet.length < 256 ^ 2) :
    readPackets (front ++ (packetFraming.encode packets ++ back)) packetCount packets.length
      front.length = .ok packets := by
  induction packets generalizing front with
  | nil => rfl
  | cons packet rest ih =>
    have hrest := ih (front ++ (littleEndian 2 packet.length ++ packet))
      fun other hother => hshort other (List.mem_cons_of_mem packet hother)
    have hoffset : (front ++ (littleEndian 2 packet.length ++ packet)).length =
        front.length + 2 + packet.length := by
      simp [Nat.add_assoc]
    rw [hoffset] at hrest
    have hstep := readPackets_packet front packet (packetFraming.encode rest ++ back) packetCount
      rest.length (hshort packet List.mem_cons_self)
    simp only [packetFraming_encode_cons, List.append_assoc, List.length_cons] at hrest hstep ⊢
    rw [hstep, hrest]
    rfl

/-- Packets that are cut short are not read. -/
theorem readPackets_truncated (front : Bytes) {packets : List Bytes} (packetCount : ℕ)
    (hshort : ∀ packet ∈ packets, packet.length < 256 ^ 2) {cut : ℕ}
    (hcut : cut < (packetFraming.encode packets).length) :
    ∃ message, readPackets (front ++ (packetFraming.encode packets).take cut) packetCount
      packets.length front.length = .error (.valueError message) := by
  induction packets generalizing front cut with
  | nil => exact absurd hcut (Nat.not_lt_zero cut)
  | cons packet rest ih =>
    have hpacket := hshort packet List.mem_cons_self
    have htotal : (packetFraming.encode (packet :: rest)).length =
        2 + (packet.length + (packetFraming.encode rest).length) := by
      rw [packetFraming_encode_cons, List.length_append, List.length_append, length_littleEndian]
    rw [htotal] at hcut
    rcases Nat.lt_or_ge cut 2 with hheader | hheader
    · -- the cut is in the header
      rw [List.length_cons, readPackets]
      rw [if_pos (by simp; omega)]
      exact ⟨_, rfl⟩
    · have hsplit : (packetFraming.encode (packet :: rest)).take cut = littleEndian 2 packet.length ++
          (packet ++ packetFraming.encode rest).take (cut - 2) := by
        rw [packetFraming_encode_cons, take_append_right (by simpa using hheader),
          length_littleEndian]
      rw [hsplit]
      rcases Nat.lt_or_ge (cut - 2) packet.length with hbody | hbody
      · -- the cut is in the packet
        rw [List.length_cons, readPackets]
        have hlength : littleEndianValue (slice (front ++ (littleEndian 2 packet.length ++
            (packet ++ packetFraming.encode rest).take (cut - 2))) front.length 2) =
              packet.length := by
          rw [slice_append _ _ rfl, List.take_left' (length_littleEndian 2 _),
            littleEndianValue_littleEndian hpacket]
        simp only [hlength]
        rw [if_neg (by simp; omega), if_pos (by simp; omega)]
        exact ⟨_, rfl⟩
      · rw [take_append_right hbody, List.length_cons, readPackets_packet _ _ _ _ _ hpacket]
        have hcutRest : cut - 2 - packet.length < (packetFraming.encode rest).length := by
          omega
        obtain ⟨message, hrest⟩ := ih (front ++ (littleEndian 2 packet.length ++ packet))
          (fun other hother => hshort other (List.mem_cons_of_mem packet hother)) hcutRest
        have hoffset : (front ++ (littleEndian 2 packet.length ++ packet)).length =
            front.length + 2 + packet.length := by
          simp [Nat.add_assoc]
        rw [hoffset] at hrest
        simp only [List.append_assoc] at hrest
        exact ⟨message, by rw [hrest]; rfl⟩

/-! ### The round trip of an Opus chunk -/

theorem slice_take {data : Bytes} {offset length cut : ℕ} (h : offset + length ≤ cut) :
    slice (data.take cut) offset length = slice data offset length := by
  rw [slice, slice, List.drop_take, List.take_take, min_eq_left (by omega)]

/-- A chunk's header. -/
theorem opusChunk_header (originalPcmLen : ℕ) {packets : List Bytes}
    (hcount : packets.length < 256 ^ 4) (hlength : originalPcmLen < 256 ^ 4) :
    littleEndianValue (slice (opusChunk originalPcmLen packets) 0 4) = packets.length ∧
      littleEndianValue (slice (opusChunk originalPcmLen packets) 4 4) = originalPcmLen := by
  constructor
  · rw [opusChunk, List.append_assoc, slice, List.drop_zero,
      List.take_left' (length_littleEndian 4 _), littleEndianValue_littleEndian hcount]
  · rw [opusChunk, List.append_assoc, slice_append _ _ (length_littleEndian 4 _).symm,
      List.take_left' (length_littleEndian 4 _), littleEndianValue_littleEndian hlength]

/-- The decoder makes one whole frame of every packet of the encoder, and packets are short. -/
structure OpusLib.FullFrames (opus : OpusLib) (format : OpusFormat) : Prop where
  packet_short : ∀ encoder frame, frame.length = format.bytesPerFrame →
    (opus.encode encoder frame format.frameSize).1.length < 65536
  frame_full : ∀ encoder frame decoder, frame.length = format.bytesPerFrame →
    ∃ decoded, opus.decode decoder (opus.encode encoder frame format.frameSize).1
      format.frameSize = some decoded ∧ decoded.1.length = format.bytesPerFrame

theorem encodeFrames_short (hfull : opus.FullFrames format) (encoder : opus.Encoder)
    (pcmData : Bytes) : ∀ packet ∈ encodeFrames opus format encoder pcmData,
      packet.length < 256 ^ 2 := by
  fun_induction encodeFrames opus format encoder pcmData with
  | case1 encoder pcmData hlong encoded ih =>
    intro packet hpacket
    rcases List.mem_cons.mp hpacket with rfl | hrest
    · exact hfull.packet_short _ _ (List.length_take_of_le hlong)
    · exact ih packet hrest
  | case2 => simp
  | case3 encoder pcmData hlong hne padded =>
    intro packet hpacket
    obtain rfl := List.mem_singleton.mp hpacket
    refine hfull.packet_short _ _ ?_
    simp only [padded, List.length_append, List.length_replicate]
    omega

theorem length_encodeFrames_le (encoder : opus.Encoder) (pcmData : Bytes) :
    (encodeFrames opus format encoder pcmData).length ≤ pcmData.length := by
  have hpos := format.bytesPerFrame_pos
  fun_induction encodeFrames opus format encoder pcmData with
  | case1 encoder pcmData hlong encoded ih =>
    rw [List.length_drop] at ih
    rw [List.length_cons]
    omega
  | case2 => simp
  | case3 encoder pcmData hlong hne padded =>
    exact List.length_pos_iff.mpr hne

/-- The decoded frames are as long as the audio, but for the padding of the last. -/
theorem decodePackets_encodeFrames (hfull : opus.FullFrames format) (encoder : opus.Encoder)
    (decoder : opus.Decoder) (pcmData : Bytes) :
    ∃ frames, decodePackets opus format decoder (encodeFrames opus format encoder pcmData) =
      .ok frames ∧ pcmData.length ≤ frames.flatten.length ∧ (pcmData = [] → frames = []) := by
  have hpos := format.bytesPerFrame_pos
  fun_induction encodeFrames opus format encoder pcmData generalizing decoder with
  | case1 encoder pcmData hlong encoded ih =>
    obtain ⟨decoded, hdecode, hlength⟩ := hfull.frame_full encoder
      (pcmData.take format.bytesPerFrame) decoder (List.length_take_of_le hlong)
    obtain ⟨frames, hframes, hrest, -⟩ := ih decoded.2
    refine ⟨decoded.1 :: frames, ?_, ?_, ?_⟩
    · rw [decodePackets, hdecode]
      simp only [hframes]
      rfl
    · rw [List.length_drop] at hrest
      rw [List.flatten_cons, List.length_append]
      omega
    · rintro rfl
      rw [List.length_nil] at hlong
      omega
  | case2 => exact ⟨[], rfl, by simp, fun _ => rfl⟩
  | case3 encoder pcmData hlong hne padded =>
    have hpadded : padded.length = format.bytesPerFrame := by
      simp only [padded, List.length_append, List.length_replicate]
      omega
    obtain ⟨decoded, hdecode, hlength⟩ := hfull.frame_full encoder padded decoder hpadded
    refine ⟨[decoded.1], ?_, ?_, fun hempty => absurd hempty hne⟩
    · rw [decodePackets, hdecode]
      rfl
    · rw [List.flatten_singleton, hlength]
      omega

theorem decodeOpusToPcm_opusChunk {pcmData : Bytes} {packets frames : List Bytes}
    (hcount : packets.length < 256 ^ 4) (hlength : pcmData.length < 256 ^ 4)
    (hshort : ∀ packet ∈ packets, packet.length < 256 ^ 2)
    (hframes : decodedFrames opus format packets = .ok frames)
    (hlong : pcmData.length ≤ frames.flatten.length) (hempty : pcmData = [] → frames = []) :
    decodeOpusToPcm opus format (opusChunk pcmData.length packets) =
      .ok (frames.flatten.take pcmData.length) := by
  obtain ⟨hpacketCount, hpcmLen⟩ := opusChunk_header pcmData.length hcount hlength
  have hread : readPackets (opusChunk pcmData.length packets) packets.length packets.length 8 =
      .ok packets := by
    have hoffset : (littleEndian 4 packets.length ++ littleEndian 4 pcmData.length).length = 8 := by
      simp
    have hpackets := readPackets_encode
      (littleEndian 4 packets.length ++ littleEndian 4 pcmData.length) [] packets.length hshort
    rwa [hoffset, List.append_nil] at hpackets
  have hheader : ¬(opusChunk pcmData.length packets).length < 8 := by
    simp [opusChunk]
    omega
  simp only [decodeOpusToPcm]
  rw [if_neg hheader, hpacketCount, hpcmLen, hread]
  simp only [bind, Except.bind, hframes]
  split_ifs with htrim
  · rfl
  · have hall : frames.flatten.take pcmData.length = frames.flatten := by
      rw [not_and_or] at htrim
      rcases htrim with hnone | hwhole
      · have hnil : pcmData = [] := List.eq_nil_of_length_eq_zero (by omega)
        rw [hempty hnil, List.flatten_nil, List.take_nil]
      · exact List.take_of_length_le (by omega)
    rw [hall]
    rfl

theorem decodeOpusToPcm_truncated {originalPcmLen : ℕ} {packets part : List _}
    (hcount : packets.length < 256 ^ 4) (hlength : originalPcmLen < 256 ^ 4)
    (hshort : ∀ packet ∈ packets, packet.length < 256 ^ 2)
    (hpartOf : part <+: opusChunk originalPcmLen packets)
    (hne : part ≠ opusChunk originalPcmLen packets) :
    ∃ message, decodeOpusToPcm opus format part = .error (.valueError message) := by
  have hpart := List.prefix_iff_eq_take.mp hpartOf
  have hcut : part.length < (opusChunk originalPcmLen packets).length := by
    refine lt_of_le_of_ne hpartOf.length_le fun hsame => hne ?_
    rw [hpart, hsame, List.take_length]
  simp only [decodeOpusToPcm]
  rcases Nat.lt_or_ge part.length 8 with hheader | hheader
  · rw [if_pos hheader]
    exact ⟨_, rfl⟩
  · obtain ⟨hpacketCount, -⟩ := opusChunk_header originalPcmLen hcount hlength
    have hfront : (littleEndian 4 packets.length ++ littleEndian 4 originalPcmLen).length = 8 := by
      simp
    have hcount' : littleEndianValue (slice part 0 4) = packets.length := by
      rw [hpart, slice_take (by omega), hpacketCount]
    have hsplit : part = littleEndian 4 packets.length ++ littleEndian 4 originalPcmLen ++
        (packetFraming.encode packets).take (part.length - 8) := by
      conv_lhs => rw [hpart, opusChunk]
      rw [take_append_right (by omega), hfront]
    rw [opusChunk, List.length_append, hfront] at hcut
    have hcutPackets : part.length - 8 < (packetFraming.encode packets).length := by
      omega
    obtain ⟨message, hread⟩ := readPackets_truncated
      (littleEndian 4 packets.length ++ littleEndian 4 originalPcmLen) packets.length hshort
      hcutPackets
    rw [← hsplit, hfront] at hread
    rw [if_neg (by omega), hcount', hread]
    exact ⟨message, rfl⟩

/-- Audio of 4 GiB has no chunk: its length does not fit the header. -/
theorem encodePcmToOpus_long {pcmData : Bytes} (h : 2 ^ 32 ≤ pcmData.length) :
    encodePcmToOpus opus format pcmData = .error .structError := by
  have hlength : structPack littleEndian 4 pcmData.length = .error .structError :=
    if_neg (by omega)
  simp only [encodePcmToOpus, hlength]
  unfold structPack
  split_ifs <;> rfl

/-! ### The round trip of an encrypted file -/

/-- Decryption inverts encryption, and rejects what was cut short. -/
structure Aead.Authentic (aead : Aead) : Prop where
  decrypt_encrypt : ∀ key (nonce : Nonce) data,
    aead.decrypt key nonce.1 (aead.encrypt key nonce.1 data) = some data
  decrypt_truncated : ∀ key (nonce : Nonce) data payload,
    payload <+: nonce.1 ++ aead.encrypt key nonce.1 data →
    payload ≠ nonce.1 ++ aead.encrypt key nonce.1 data →
      aead.decrypt key (payload.take 12) (payload.drop 12) = none

def chunkFraming : Framing UInt8 where
  width := 4
  width_pos := by decide
  header := bigEndian 4
  length := bigEndianValue
  legal length := decide (length < 256 ^ 4)
  length_header := length_bigEndian 4
  header_inv _ hlegal := bigEndianValue_bigEndian (of_decide_eq_true hlegal)

/-- The payloads of a file's chunks. -/
def payloads (aead : Aead) (uid : String) (chunks : List (Nonce × Bytes)) : List Bytes :=
  chunks.map fun chunk => encryptedPayload aead uid chunk.1 chunk.2

theorem chunkFraming_encode_cons (payload : Bytes) (rest : List Bytes) :
    chunkFraming.encode (payload :: rest) =
      bigEndian 4 payload.length ++ (payload ++ chunkFraming.encode rest) := by
  simp [Framing.encode, chunkFraming]

variable {uid : String} {chunks : List (Nonce × Bytes)}

/-- The chunks up to one of them are a file of their own. -/
theorem flatten_take_chunks (count : ℕ) :
    (((payloads aead uid chunks).map fun payload =>
      bigEndian 4 payload.length ++ payload).take count).flatten =
        chunkFraming.encode (payloads aead uid (chunks.take count)) := by
  rw [payloads, payloads, ← List.map_take, ← List.map_take]
  rfl

theorem encryptAudioChunks_ok
    (h : ∀ chunk ∈ chunks, (encryptedPayload aead uid chunk.1 chunk.2).length < 256 ^ 4) :
    (chunks.mapM fun chunk => encryptAudioChunk aead uid chunk.1 chunk.2) =
      .ok ((payloads aead uid chunks).map fun payload =>
        bigEndian 4 payload.length ++ payload) := by
  induction chunks with
  | nil => rfl
  | cons chunk rest ih =>
    have hchunk : encryptAudioChunk aead uid chunk.1 chunk.2 =
        .ok (bigEndian 4 (encryptedPayload aead uid chunk.1 chunk.2).length ++
          encryptedPayload aead uid chunk.1 chunk.2) := by
      simp only [encryptAudioChunk, structPack_ok (h chunk List.mem_cons_self)]
      rfl
    have hrest := ih fun other hother => h other (List.mem_cons_of_mem chunk hother)
    rw [List.mapM_cons, hchunk, hrest]
    rfl

/-- What is encrypted for a chunk is decrypted to its data. -/
theorem Aead.Authentic.decrypt_payload (hauth : aead.Authentic) (uid : String)
    (chunk : Nonce × Bytes) :
    aead.decrypt (aead.deriveKey uid) ((encryptedPayload aead uid chunk.1 chunk.2).take 12)
      ((encryptedPayload aead uid chunk.1 chunk.2).drop 12) = some chunk.2 := by
  rw [encryptedPayload, List.take_left' chunk.1.2, List.drop_left' chunk.1.2]
  exact hauth.decrypt_encrypt _ _ _

/-- A whole chunk at the offset. -/
theorem decryptAudioChunk_whole {payload data : Bytes} (front back : Bytes)
    (hdecrypt : aead.decrypt (aead.deriveKey uid) (payload.take 12) (payload.drop 12) = some data)
    (hshort : payload.length < 256 ^ 4) :
    decryptAudioChunk aead (front ++ (bigEndian 4 payload.length ++ (payload ++ back))) uid
      front.length = .ok (data, 4 + payload.length) := by
  have hheader : slice (front ++ (bigEndian 4 payload.length ++ (payload ++ back)))
      front.length 4 = bigEndian 4 payload.length := by
    rw [slice_append _ _ rfl, List.take_left' (length_bigEndian 4 _)]
  have hpayload : slice (front ++ (bigEndian 4 payload.length ++ (payload ++ back)))
      (front.length + 4) payload.length = payload := by
    rw [← List.append_assoc, slice_append _ _ (by simp), List.take_left' rfl]
  simp only [decryptAudioChunk, hheader, bigEndianValue_bigEndian hshort, hpayload, hdecrypt]
  rw [if_neg (by simp)]

/-- A round of the loop, on a whole chunk. -/
theorem decryptFrom_whole {payload data : Bytes} (front back : Bytes)
    (hdecrypt : aead.decrypt (aead.deriveKey uid) (payload.take 12) (payload.drop 12) = some data)
    (hshort : payload.length < 256 ^ 4) :
    decryptFrom aead (front ++ (bigEndian 4 payload.length ++ (payload ++ back))) uid
      front.length =
      (decryptFrom aead ((front ++ (bigEndian 4 payload.length ++ payload)) ++ back) uid
        (front ++ (bigEndian 4 payload.length ++ payload)).length).map (data ++ ·) := by
  have hwhole := decryptAudioChunk_whole front back hdecrypt hshort
  have hoffset : (front ++ (bigEndian 4 payload.length ++ payload)).length =
      front.length + (4 + payload.length) := by
    simp
  rw [hoffset, List.append_assoc, List.append_assoc, decryptFrom, dif_pos (by simp)]
  split
  next error herror => exact absurd (hwhole.symm.trans herror) (by simp)
  next found hfound =>
    obtain rfl := Except.ok.inj (hwhole.symm.trans hfound)
    cases decryptFrom aead (front ++ (bigEndian 4 payload.length ++ (payload ++ back))) uid
      (front.length + (4 + payload.length)) <;> rfl

/-- A chunk that is cut short is not decrypted. -/
theorem decryptAudioChunk_truncated {payload : Bytes} (front back : Bytes)
    (hdecrypt : ∀ part, part <+: payload → part ≠ payload →
      aead.decrypt (aead.deriveKey uid) (part.take 12) (part.drop 12) = none)
    (hshort : payload.length < 256 ^ 4) {cut : ℕ} (hcut : cut < 4 + payload.length) :
    ∃ error, decryptAudioChunk aead
      (front ++ (bigEndian 4 payload.length ++ (payload ++ back)).take cut) uid front.length =
      .error error := by
  rcases Nat.lt_or_ge cut 4 with hheader | hheader
  · refine ⟨.structError, if_pos ?_⟩
    rw [slice_append _ _ rfl, List.length_take, List.length_take]
    omega
  · have hheader' : slice (front ++ (bigEndian 4 payload.length ++
        (payload ++ back).take (cut - 4))) front.length 4 = bigEndian 4 payload.length := by
      rw [slice_append _ _ rfl, List.take_left' (length_bigEndian 4 _)]
    have hpayload : slice (front ++ (bigEndian 4 payload.length ++
        (payload ++ back).take (cut - 4))) (front.length + 4) payload.length =
          payload.take (cut - 4) := by
      rw [← List.append_assoc, slice_append _ _ (by simp), List.take_take,
        List.take_append_of_le_length (by omega), min_eq_right (by omega)]
    have hlength : (payload.take (cut - 4)).length < payload.length := by
      rw [List.length_take]
      omega
    have hnone := hdecrypt (payload.take (cut - 4)) (List.take_prefix _ _)
      fun hsame => absurd (congrArg List.length hsame) hlength.ne
    refine ⟨.invalidTag, ?_⟩
    rw [take_append_right (by simpa using hheader), length_bigEndian]
    simp only [decryptAudioChunk, hheader', bigEndianValue_bigEndian hshort, hpayload, hnone]
    rw [if_neg (by simp)]

theorem decryptFrom_encode (hauth : aead.Authentic) (front : Bytes)
    (h : ∀ chunk ∈ chunks, (encryptedPayload aead uid chunk.1 chunk.2).length < 256 ^ 4) :
    decryptFrom aead (front ++ chunkFraming.encode (payloads aead uid chunks)) uid front.length =
      .ok (chunks.flatMap fun chunk => chunk.2) := by
  induction chunks generalizing front with
  | nil =>
    rw [decryptFrom]
    exact dif_neg (by simp [payloads, Framing.encode])
  | cons chunk rest ih =>
    rw [payloads, List.map_cons, ← payloads, chunkFraming_encode_cons,
      decryptFrom_whole front _ (hauth.decrypt_payload uid chunk) (h chunk List.mem_cons_self),
      ih _ fun other hother => h other (List.mem_cons_of_mem chunk hother)]
    rfl

/-- A file that is cut at no boundary of a chunk is not decrypted. -/
theorem decryptFrom_truncated (hauth : aead.Authentic) (front : Bytes)
    (h : ∀ chunk ∈ chunks, (encryptedPayload aead uid chunk.1 chunk.2).length < 256 ^ 4) {cut : ℕ}
    (hcut : cut < (chunkFraming.encode (payloads aead uid chunks)).length)
    (hboundary : ∀ count,
      cut ≠ (chunkFraming.encode (payloads aead uid (chunks.take count))).length) :
    ∃ error, decryptFrom aead (front ++ (chunkFraming.encode (payloads aead uid chunks)).take cut)
      uid front.length = .error error := by
  induction chunks generalizing front cut with
  | nil => exact absurd hcut (Nat.not_lt_zero cut)
  | cons chunk rest ih =>
    obtain ⟨payload, hchunk⟩ : ∃ payload, encryptedPayload aead uid chunk.1 chunk.2 = payload :=
      ⟨_, rfl⟩
    have hdecrypt := hauth.decrypt_payload uid chunk
    have hshort := h chunk List.mem_cons_self
    have htotal : ∀ others : List (Nonce × Bytes),
        (chunkFraming.encode (payloads aead uid (chunk :: others))).length =
          4 + (payload.length + (chunkFraming.encode (payloads aead uid others)).length) := by
      intro others
      rw [payloads, List.map_cons, ← payloads, hchunk, chunkFraming_encode_cons,
        List.length_append, List.length_append, length_bigEndian]
    have hstart : cut ≠ 0 := hboundary 0
    rw [htotal] at hcut
    rw [payloads, List.map_cons, ← payloads, hchunk, chunkFraming_encode_cons]
    rw [hchunk] at hdecrypt hshort
    rcases Nat.lt_or_ge cut (4 + payload.length) with hpartial | hwhole
    · -- the cut is in the first chunk
      have htruncated : ∀ part, part <+: payload → part ≠ payload →
          aead.decrypt (aead.deriveKey uid) (part.take 12) (part.drop 12) = none := by
        intro part
        rw [← hchunk]
        exact hauth.decrypt_truncated (aead.deriveKey uid) chunk.1 chunk.2 part
      obtain ⟨error, herror⟩ := decryptAudioChunk_truncated front
        (chunkFraming.encode (payloads aead uid rest)) htruncated hshort hpartial
      rw [decryptFrom, dif_pos (by simp; omega)]
      split
      next other hother => exact ⟨other, rfl⟩
      next found hfound => exact absurd (herror.symm.trans hfound) (by simp)
    · have hcutRest : cut - 4 - payload.length <
          (chunkFraming.encode (payloads aead uid rest)).length := by
        omega
      obtain ⟨error, herror⟩ := ih (front ++ (bigEndian 4 payload.length ++ payload))
        (fun other hother => h other (List.mem_cons_of_mem chunk hother)) hcutRest
        (by
          intro count hsame
          have hcount := hboundary (count + 1)
          rw [List.take_succ_cons, htotal] at hcount
          omega)
      rw [take_append_right (by simpa using by omega), length_bigEndian,
        take_append_right (by omega), decryptFrom_whole front _ hdecrypt hshort, herror]
      exact ⟨error, rfl⟩

/-! ### Both formats -/

/-- What was encoded or encrypted comes back, and what was cut short is refused. -/
theorem privateCloudChunk_roundTrip (hfull : opus.FullFrames format) (hauth : aead.Authentic) :
    (∀ pcmData : Bytes, pcmData.length < 2 ^ 32 → ∃ encoded frames,
      encodePcmToOpus opus format pcmData = .ok encoded ∧
      decodedFrames opus format (opusPackets opus format pcmData) = .ok frames ∧
      decodeOpusToPcm opus format encoded = .ok (frames.flatten.take pcmData.length) ∧
      (frames.flatten.take pcmData.length).length = pcmData.length ∧
      ∀ part, part <+: encoded → part ≠ encoded →
        ∃ message, decodeOpusToPcm opus format part = .error (.valueError message)) ∧
    (∀ uid (chunks : List (Nonce × Bytes)),
      (∀ chunk ∈ chunks, (encryptedPayload aead uid chunk.1 chunk.2).length < 2 ^ 32) →
      ∃ encrypted, (chunks.mapM fun chunk => encryptAudioChunk aead uid chunk.1 chunk.2) =
          .ok encrypted ∧
        decryptAudioFile aead encrypted.flatten uid = .ok (chunks.flatMap fun chunk => chunk.2) ∧
        ∀ part, part <+: encrypted.flatten →
          (∀ count, part ≠ (encrypted.take count).flatten) →
          ∃ error, decryptAudioFile aead part uid = .error error) := by
  have hword : 2 ^ 32 = 256 ^ 4 := by norm_num
  constructor
  · intro pcmData hlength
    rw [hword] at hlength
    have hcount : (opusPackets opus format pcmData).length < 256 ^ 4 :=
      lt_of_le_of_lt (length_encodeFrames_le _ _) hlength
    have hshort := encodeFrames_short hfull (opus.newEncoder format.sampleRate format.channels)
      pcmData
    obtain ⟨frames, hframes, hlong, hempty⟩ := decodePackets_encodeFrames hfull
      (opus.newEncoder format.sampleRate format.channels)
      (opus.newDecoder format.sampleRate format.channels) pcmData
    refine ⟨_, frames, encodePcmToOpus_ok hshort hcount hlength, hframes, ?_, ?_, ?_⟩
    · exact decodeOpusToPcm_opusChunk hcount hlength hshort hframes hlong hempty
    · exact List.length_take_of_le hlong
    · intro part hpartOf hne
      exact decodeOpusToPcm_truncated hcount hlength hshort hpartOf hne
  · intro uid chunks hshort
    rw [hword] at hshort
    have hfile : ((payloads aead uid chunks).map fun payload =>
        bigEndian 4 payload.length ++ payload).flatten =
          chunkFraming.encode (payloads aead uid chunks) := rfl
    refine ⟨_, encryptAudioChunks_ok hshort, decryptFrom_encode hauth [] hshort, ?_⟩
    intro part hpartOf hboundary
    rw [hfile] at hpartOf
    have hpart := List.prefix_iff_eq_take.mp hpartOf
    have hcut : part.length < (chunkFraming.encode (payloads aead uid chunks)).length := by
      refine lt_of_le_of_ne hpartOf.length_le fun hsame => hboundary chunks.length ?_
      rw [flatten_take_chunks, List.take_length, hpart, hsame, List.take_length]
    have hinside : ∀ count,
        part.length ≠ (chunkFraming.encode (payloads aead uid (chunks.take count))).length := by
      intro count hsame
      have hfront : chunkFraming.encode (payloads aead uid (chunks.take count)) <+:
          chunkFraming.encode (payloads aead uid chunks) := by
        rw [← flatten_take_chunks, ← hfile]
        exact (List.take_prefix count _).flatten
      apply hboundary count
      rw [flatten_take_chunks, hpart, List.prefix_iff_eq_take.mp hfront, hsame]
    obtain ⟨error, herror⟩ := decryptFrom_truncated hauth [] hshort hcut hinside
    rw [List.nil_append, ← hpart] at herror
    exact ⟨error, herror⟩

/-- The default rate and channels. -/
def defaultOpusFormat : OpusFormat where
  frame_pos := by decide

/-- A codec whose packets are the frames. -/
def rawOpus : OpusLib where
  Encoder := Unit
  Decoder := Unit
  newEncoder _ _ := ()
  newDecoder _ _ := ()
  encode _ frame _ := (frame, ())
  decode _ packet _ := some (packet, ())

theorem rawOpus_fullFrames : rawOpus.FullFrames defaultOpusFormat where
  packet_short := by
    intro _ frame hframe
    have hlength : frame.length = 640 := hframe
    show frame.length < 65536
    omega
  frame_full := fun _ frame _ hframe => ⟨(frame, ()), rfl, hframe⟩

/-- A marked byte for each byte, and an end mark. -/
def markBytes (data : Bytes) : Bytes := (data.flatMap fun byte => [1, byte]) ++ [0]

def unmarkBytes : Bytes → Option Bytes
  | [0] => some []
  | 1 :: byte :: rest => (unmarkBytes rest).map (byte :: ·)
  | _ => none

theorem unmarkBytes_markBytes (data : Bytes) : unmarkBytes (markBytes data) = some data := by
  induction data with
  | nil => rfl
  | cons byte rest ih =>
    show (unmarkBytes (markBytes rest)).map (byte :: ·) = some (byte :: rest)
    rw [ih]
    rfl

theorem unmarkBytes_truncated {data part : Bytes} (hpartOf : part <+: markBytes data)
    (hne : part ≠ markBytes data) : unmarkBytes part = none := by
  induction data generalizing part with
  | nil =>
    cases part with
    | nil => rfl
    | cons byte rest =>
      obtain ⟨rfl, hrest⟩ := List.cons_prefix_cons.mp hpartOf
      rw [List.prefix_nil.mp hrest] at hne
      exact absurd rfl hne
  | cons byte data ih =>
    have hmark : markBytes (byte :: data) = 1 :: byte :: markBytes data := rfl
    rw [hmark] at hpartOf hne
    rcases part with - | ⟨mark, - | ⟨first, rest⟩⟩
    · rfl
    · obtain ⟨rfl, -⟩ := List.cons_prefix_cons.mp hpartOf
      rfl
    · obtain ⟨rfl, hbody⟩ := List.cons_prefix_cons.mp hpartOf
      obtain ⟨rfl, hrest⟩ := List.cons_prefix_cons.mp hbody
      have hnone := ih hrest fun hsame => hne (by rw [hsame])
      show (unmarkBytes rest).map (first :: ·) = none
      rw [hnone]
      rfl

def markAead : Aead where
  Key := Unit
  deriveKey _ := ()
  encrypt _ _ data := markBytes data
  decrypt _ nonce ciphertext := if nonce.length = 12 then unmarkBytes ciphertext else none

theorem markAead_authentic : markAead.Authentic where
  decrypt_encrypt _ nonce data := (if_pos nonce.2).trans (unmarkBytes_markBytes data)
  decrypt_truncated := by
    intro _ nonce data payload hpartOf hne
    show (if (payload.take 12).length = 12 then unmarkBytes (payload.drop 12) else none) = none
    split_ifs with hnonce
    · rw [List.length_take] at hnonce
      have hpayload := List.prefix_iff_eq_take.mp hpartOf
      rw [take_append_right (by rw [nonce.2]; omega)] at hpayload
      have hbody : payload.drop 12 <+: markBytes data := by
        rw [hpayload, List.drop_left' nonce.2]
        exact List.take_prefix _ _
      refine unmarkBytes_truncated hbody fun hsame => hne ?_
      · rw [← List.take_append_drop 12 payload, hsame, hpayload, List.take_left' nonce.2]
        rfl
    · rfl

theorem privateCloudChunk_roundTrip_silence :
    (∃ encoded, encodePcmToOpus rawOpus defaultOpusFormat [0, 0] = .ok encoded ∧
      ∀ part, part <+: encoded → part ≠ encoded →
        ∃ message, decodeOpusToPcm rawOpus defaultOpusFormat part = .error (.valueError message)) ∧
    (∃ encrypted, (([(⟨List.replicate 12 5, rfl⟩, [7]), (⟨List.replicate 12 6, rfl⟩, [8, 9])] :
        List (Nonce × Bytes)).mapM fun chunk => encryptAudioChunk markAead "uid" chunk.1 chunk.2) =
          .ok encrypted ∧
      decryptAudioFile markAead encrypted.flatten "uid" = .ok [7, 8, 9]) := by
  obtain ⟨hopus, haead⟩ := privateCloudChunk_roundTrip rawOpus_fullFrames markAead_authentic
  constructor
  · obtain ⟨encoded, frames, hencoded, -, -, -, hpart⟩ := hopus [0, 0] (by decide)
    exact ⟨encoded, hencoded, hpart⟩
  · obtain ⟨encrypted, hencrypted, hdecrypted, -⟩ := haead "uid"
      [(⟨List.replicate 12 5, rfl⟩, [7]), (⟨List.replicate 12 6, rfl⟩, [8, 9])] (by decide)
    exact ⟨encrypted, hencrypted, hdecrypted⟩

/-- The length of 4 GiB of silence does not fit the header of its chunk. -/
theorem not_privateCloudChunk_roundTrip :
    ¬ ∀ (opus : OpusLib) (format : OpusFormat), opus.FullFrames format →
      ∀ pcmData : Bytes, ∃ encoded frames,
        encodePcmToOpus opus format pcmData = .ok encoded ∧
        decodedFrames opus format (opusPackets opus format pcmData) = .ok frames ∧
        decodeOpusToPcm opus format encoded = .ok (frames.flatten.take pcmData.length) := by
  intro hall
  obtain ⟨encoded, -, hencoded, -⟩ := hall rawOpus defaultOpusFormat rawOpus_fullFrames
    (List.replicate (2 ^ 32) 0)
  rw [encodePcmToOpus_long (le_of_eq List.length_replicate.symm)] at hencoded
  cases hencoded

end Omi.Storage
