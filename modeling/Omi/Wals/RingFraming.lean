import Omi.Wals.RingSync

/-! The framing of ring audio: the frames of a packed payload and the records of a stream of
notifications (`parseAudioPayload` and `RingRecordReassembler` of `ring_protocol.dart`). -/
namespace Omi.Wals
open Omi.Foundation

namespace RingProtocol

def audioPayloadBytes : ℕ := recordSize - timestampBytes

/-! ### Packed payloads -/

/-- A frame behind its size. -/
def sizedFrame (frame : Bytes) : Bytes := UInt8.ofNat frame.length :: frame

/-- What follows the last frame of a payload, behind `used` bytes: padding, or the size of a
frame that goes to the next payload and bytes of an earlier write. A frame that would end at the
payload's last byte goes to the next one too. -/
inductive PayloadTail (used : ℕ) : Bytes → Prop
  | padding (count : ℕ) : PayloadTail used (List.replicate (count + 1) 0)
  | overflow (size : UInt8) (stale : Bytes) (hsize : size ≠ 0)
      (hfull : audioPayloadBytes ≤ used + 1 + size.toNat) : PayloadTail used (size :: stale)

/-- A payload as the firmware packs it. -/
structure PackedPayload (frames : List Bytes) (payload : Bytes) : Prop where
  frame_length : ∀ frame ∈ frames, 1 ≤ frame.length ∧ frame.length ≤ 255
  length : payload.length = audioPayloadBytes
  packed : ∃ tail, payload = frames.flatMap sizedFrame ++ tail ∧
    PayloadTail (frames.flatMap sizedFrame).length tail

theorem length_le_sizedFrames (frames : List Bytes) :
    frames.length ≤ (frames.flatMap sizedFrame).length := by
  induction frames with
  | nil => exact Nat.zero_le _
  | cons frame frames ih =>
    simp only [List.flatMap_cons, List.length_append, List.length_cons, sizedFrame]
    omega

theorem toNat_size {frame : Bytes} (hbyte : frame.length ≤ 255) :
    (UInt8.ofNat frame.length).toNat = frame.length := by
  rw [UInt8.toNat_ofNat']
  omega

theorem size_ne_zero {frame : Bytes} (hpos : 1 ≤ frame.length) (hbyte : frame.length ≤ 255) :
    UInt8.ofNat frame.length ≠ 0 := by
  intro hzero
  have hsize := toNat_size hbyte
  rw [hzero] at hsize
  have hempty : frame.length = 0 := hsize.symm
  omega

/-- One frame of the scan; what follows it is not empty. -/
theorem unpack_sizedFrame {frame rest : Bytes} (hpos : 1 ≤ frame.length)
    (hbyte : frame.length ≤ 255) (hrest : rest ≠ []) (fuel : ℕ) :
    unpack (fuel + 1) (sizedFrame frame ++ rest) = frame :: unpack fuel rest := by
  have hsize := toNat_size hbyte
  have hnonzero := size_ne_zero hpos hbyte
  have hmore : 0 < rest.length := List.length_pos_iff.mpr hrest
  have hfits : ¬ (frame ++ rest).length ≤ frame.length := by
    rw [List.length_append]
    omega
  have hne : frame ++ rest ≠ [] := List.append_ne_nil_of_right_ne_nil _ hrest
  rw [sizedFrame, List.cons_append, unpack, hsize, if_neg hne, if_neg hnonzero, if_neg hfits,
    List.take_left, List.drop_left]

theorem unpack_frames {frames : List Bytes} {tail : Bytes}
    (hframes : ∀ frame ∈ frames, 1 ≤ frame.length ∧ frame.length ≤ 255) (htail : tail ≠ [])
    (fuel : ℕ) :
    unpack (frames.length + fuel) (frames.flatMap sizedFrame ++ tail) =
      frames ++ unpack fuel tail := by
  induction frames with
  | nil => rw [List.length_nil, Nat.zero_add]; rfl
  | cons frame frames ih =>
    obtain ⟨hpos, hbyte⟩ := hframes frame List.mem_cons_self
    have hrest : frames.flatMap sizedFrame ++ tail ≠ [] :=
      List.append_ne_nil_of_right_ne_nil _ htail
    have ih := ih fun f hf => hframes f (List.mem_cons_of_mem _ hf)
    rw [List.flatMap_cons, List.append_assoc, List.length_cons, Nat.add_right_comm,
      unpack_sizedFrame hpos hbyte hrest, ih, List.cons_append]

/-- Nothing is read of a tail. -/
theorem unpack_tail {used : ℕ} {tail : Bytes} (h : PayloadTail used tail)
    (hlength : used + tail.length = audioPayloadBytes) (fuel : ℕ) : unpack fuel tail = [] := by
  cases h with
  | padding count => exact unpack_replicate_zero fuel (count + 1)
  | overflow size stale hsize hfull =>
    rw [List.length_cons] at hlength
    have hover : stale.length ≤ size.toNat := by omega
    cases fuel with
    | zero => rfl
    | succ fuel =>
      rw [unpack, if_neg hsize, if_pos hover, ite_self]

theorem parseAudioPayload_packed {frames : List Bytes} {payload : Bytes}
    (h : PackedPayload frames payload) : parseAudioPayload payload = frames := by
  obtain ⟨tail, rfl, htail⟩ := h.packed
  have hlength := h.length
  rw [List.length_append] at hlength
  have hne : tail ≠ [] := by
    cases htail with
    | padding count => exact List.cons_ne_nil _ _
    | overflow size stale hsize hfull => exact List.cons_ne_nil _ _
  have hcount : frames.length ≤ (frames.flatMap sizedFrame ++ tail).length := by
    rw [List.length_append]
    exact (length_le_sizedFrames frames).trans (Nat.le_add_right _ _)
  obtain ⟨fuel, hfuel⟩ := Nat.exists_eq_add_of_le hcount
  rw [parseAudioPayload, hfuel, unpack_frames h.frame_length hne, unpack_tail htail hlength,
    List.append_nil]

/-- The frame that ends at the payload's last byte is left out: the firmware writes none. -/
theorem parseAudioPayload_full {frames : List Bytes} {last : Bytes}
    (hframes : ∀ frame ∈ frames ++ [last], 1 ≤ frame.length ∧ frame.length ≤ 255) :
    parseAudioPayload ((frames ++ [last]).flatMap sizedFrame) = frames := by
  obtain ⟨hpos, hbyte⟩ := hframes last (List.mem_append_right _ List.mem_cons_self)
  have hbefore : ∀ frame ∈ frames, 1 ≤ frame.length ∧ frame.length ≤ 255 := fun frame hframe =>
    hframes frame (List.mem_append_left _ hframe)
  have hlast : ∀ fuel, unpack fuel (sizedFrame last) = [] := by
    intro fuel
    cases fuel with
    | zero => rfl
    | succ fuel =>
      rw [sizedFrame, unpack, toNat_size hbyte, if_neg (size_ne_zero hpos hbyte), if_pos le_rfl,
        ite_self]
  have hcount : frames.length ≤ ((frames ++ [last]).flatMap sizedFrame).length := by
    rw [List.flatMap_append, List.length_append]
    exact (length_le_sizedFrames frames).trans (Nat.le_add_right _ _)
  obtain ⟨fuel, hfuel⟩ := Nat.exists_eq_add_of_le hcount
  have hne : sizedFrame last ≠ [] := List.cons_ne_nil _ _
  rw [parseAudioPayload, hfuel, List.flatMap_append, List.flatMap_singleton,
    unpack_frames hbefore hne, hlast, List.append_nil]

end RingProtocol

/-! ### The reassembler -/

/-- `RingRecordReassembler`. -/
structure RingRecordReassembler where
  buffer : Bytes := []

namespace RingRecordReassembler

def append (reassembler : RingRecordReassembler) (bytes : Bytes) : RingRecordReassembler :=
  { buffer := reassembler.buffer ++ bytes }

def drainRecords (reassembler : RingRecordReassembler) : List Bytes × RingRecordReassembler :=
  let drained := RingProtocol.drainRecords reassembler.buffer
  (drained.1, { buffer := drained.2 })

/-- What the sync calls: a notification's bytes are appended, complete records are drained. -/
inductive Call where
  | append (bytes : Bytes)
  | drainRecords

def Call.bytes : Call → Bytes
  | .append bytes => bytes
  | .drainRecords => []

def call (reassembler : RingRecordReassembler) : Call → List Bytes × RingRecordReassembler
  | .append bytes => ([], reassembler.append bytes)
  | .drainRecords => reassembler.drainRecords

/-- The records of a sequence of calls, and the reassembler behind them. -/
def run : RingRecordReassembler → List Call → List Bytes × RingRecordReassembler
  | reassembler, [] => ([], reassembler)
  | reassembler, c :: calls =>
    let turn := reassembler.call c
    let rest := turn.2.run calls
    (turn.1 ++ rest.1, rest.2)

variable (reassembler : RingRecordReassembler)

/-- No call loses a byte. -/
theorem call_bytes (c : Call) :
    (reassembler.call c).1.flatten ++ (reassembler.call c).2.buffer =
      reassembler.buffer ++ c.bytes := by
  cases c with
  | append bytes => rfl
  | drainRecords =>
    rw [Call.bytes, List.append_nil]
    exact flatten_drainBlocks RingProtocol.recordSize _ reassembler.buffer

theorem call_records (c : Call) :
    ∀ record ∈ (reassembler.call c).1, record.length = RingProtocol.recordSize := by
  cases c with
  | append bytes => exact fun record hmem => absurd hmem List.not_mem_nil
  | drainRecords => exact length_of_mem_drainBlocks RingProtocol.recordSize _ reassembler.buffer

theorem run_bytes (calls : List Call) :
    (reassembler.run calls).1.flatten ++ (reassembler.run calls).2.buffer =
      reassembler.buffer ++ calls.flatMap Call.bytes := by
  induction calls generalizing reassembler with
  | nil => exact (List.append_nil _).symm
  | cons c calls ih =>
    have hcall := reassembler.call_bytes c
    have hrest := ih (reassembler.call c).2
    rw [run, List.flatten_append, List.append_assoc, hrest, ← List.append_assoc, hcall,
      List.append_assoc, List.flatMap_cons]

theorem run_records (calls : List Call) :
    ∀ record ∈ (reassembler.run calls).1, record.length = RingProtocol.recordSize := by
  induction calls generalizing reassembler with
  | nil => exact fun record hmem => absurd hmem List.not_mem_nil
  | cons c calls ih =>
    intro record hmem
    rcases List.mem_append.mp hmem with hnow | hlater
    · exact reassembler.call_records c record hnow
    · exact ih (reassembler.call c).2 record hlater

theorem run_append (calls later : List Call) :
    reassembler.run (calls ++ later) =
      let first := reassembler.run calls
      (first.1 ++ (first.2.run later).1, (first.2.run later).2) := by
  induction calls generalizing reassembler with
  | nil => rfl
  | cons c calls ih => simp [run, ih]

/-- Behind a drain less than a record is buffered. -/
theorem buffer_lt_of_drained (calls : List Call) :
    (reassembler.run (calls ++ [.drainRecords])).2.buffer.length < RingProtocol.recordSize := by
  rw [run_append]
  exact length_drainBlocks_lt (by decide) le_rfl

end RingRecordReassembler

open RingProtocol RingRecordReassembler

/-- A packed payload is read back frame by frame, and a stream of records is cut into these
records and its incomplete rest, however it comes in and whenever it is drained in between. -/
theorem ring_framing :
    (∀ frames payload, PackedPayload frames payload → parseAudioPayload payload = frames) ∧
      ∀ calls records rest, (∀ record ∈ records, record.length = recordSize) →
        rest.length < recordSize → calls.flatMap Call.bytes = records.flatten ++ rest →
          RingRecordReassembler.run {} (calls ++ [.drainRecords]) =
            (records, { buffer := rest }) := by
  constructor
  · intro frames payload h
    exact parseAudioPayload_packed h
  · intro calls records rest hrecords hrest hstream
    let last := RingRecordReassembler.run {} (calls ++ [.drainRecords])
    have hbytes := run_bytes {} (calls ++ [.drainRecords])
    have hcut : last.1.flatten ++ last.2.buffer = records.flatten ++ rest := by
      rw [hbytes, List.flatMap_append, hstream]
      simp [Call.bytes]
    obtain ⟨hemitted, hkept⟩ := blocks_unique (by decide) (run_records {} _) hrecords
      (buffer_lt_of_drained {} calls) hrest hcut
    exact Prod.ext hemitted (congrArg RingRecordReassembler.mk hkept)

/-- Two frames, and the size of a third that did not fit before bytes of an earlier write. -/
def overflowing : Bytes :=
  (200 :: List.replicate 200 1) ++ (200 :: List.replicate 200 2) ++ (100 :: List.replicate 37 9)

/-- Two records and a rest that come in three notifications, drained in between. -/
theorem ring_framing_small :
    parseAudioPayload overflowing = [List.replicate 200 1, List.replicate 200 2] ∧
      RingRecordReassembler.run {} ([.append (List.replicate 400 7), .drainRecords,
        .append (List.replicate 44 7 ++ List.replicate 400 8), .drainRecords,
        .append (List.replicate 50 8)] ++ [.drainRecords]) =
          ([List.replicate 444 7, List.replicate 444 8], { buffer := List.replicate 6 8 }) := by
  have hpacked : PackedPayload [List.replicate 200 1, List.replicate 200 2] overflowing := by
    constructor
    · intro frame hframe
      obtain rfl | rfl : frame = List.replicate 200 1 ∨ frame = List.replicate 200 2 := by
        simpa using hframe
      · rw [List.length_replicate]
        decide
      · rw [List.length_replicate]
        decide
    · decide +kernel
    · exact ⟨100 :: List.replicate 37 9, by decide +kernel,
        .overflow 100 (List.replicate 37 9) (by decide) (by decide +kernel)⟩
  have hrecords : ∀ record ∈ [List.replicate 444 (7 : UInt8), List.replicate 444 8],
      record.length = recordSize := by
    decide +kernel
  obtain ⟨hparse, hreassemble⟩ := ring_framing
  exact ⟨hparse _ _ hpacked, hreassemble _ _ _ hrecords (by decide) (by decide +kernel)⟩

end Omi.Wals
