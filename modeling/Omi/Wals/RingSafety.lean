import Omi.Wals.RingSync

/-! What a ring advance promises: every frame of the records it gives up is on the phone as part
of a pending recording, or uploaded. -/
namespace Omi.Wals
open Omi.Foundation

/-! ### The promise -/

/-- The frames are in a file of this content, side by side. -/
def Holds (content : Bytes) (frames : List Bytes) : Prop :=
  ∃ all, content = flushData all ∧ frames <:+: all

namespace Phone

/-- The recording is still to be uploaded from this file, and what an upload of it has read
already holds the frames. -/
def WaitsAt (phone : Phone) (index : ℕ) (path : String) (frames : List Bytes) : Prop :=
  (∃ wal, phone.sync.wals[index]? = some wal ∧ wal.status = .miss ∧ wal.storage = .disk ∧
    wal.filePath = path) ∧
  ∀ content, (index, content) ∈ phone.inFlight → Holds content frames

/-- The frames are in the file of a recording that is pending or uploading, or uploaded. -/
def Keeps (phone : Phone) (path : String) (frames : List Bytes) : Prop :=
  (∃ index content, phone.WaitsAt index path frames ∧
    phone.sync.files.get path = some content ∧ Holds content frames) ∨
  ∃ content ∈ phone.uploaded, Holds content frames

end Phone

/-- The frames of the records before the new sequence are the frames of chunks the phone keeps. -/
def RingAdvance.Safe (advance : RingAdvance) (readSeq : ℕ) (ring : List RingRecord) : Prop :=
  ∃ (count : ℕ) (chunks : List (List Bytes)), advance.nextSeq = readSeq + count ∧ count ≤ ring.length ∧
    chunks.flatten = (ring.take count).flatMap (fun record => recordFrames record.bytes) ∧
    ∀ chunk ∈ chunks, ∃ path, advance.phone.Keeps path chunk

/-! ### What keeps it -/

namespace RingWorld

/-- The phone takes the chunk over: its recording is new, or it is the one that waits for the
same file and no upload has read too little of it, or the frames are uploaded already. -/
def HandsOver (world : RingWorld) (attempt : RingAttempt) (frames : List Bytes) : Prop :=
  (world.hasLocalSync ∧
    ¬world.phone.sync.Knows (attempt.wal.device, attempt.chunkTimerStart)) ∨
  (∃ index, world.phone.WaitsAt index
    (attempt.wal.getFileNameByTimeStarts attempt.chunkTimerStart) frames) ∨
  ∃ content ∈ world.phone.uploaded, Holds content frames

/-- Every chunk that is written is taken over. -/
def Careful (world : RingWorld) : RingAction → Prop
  | .flush .written => ∀ attempt ∈ world.attempt, ∀ flush ∈ attempt.inFlightFlush,
    world.HandsOver attempt flush.frames
  | _ => True

end RingWorld

/-! ### The phone -/

theorem holds_flushData (frames : List Bytes) : Holds (flushData frames) frames :=
  ⟨frames, rfl, List.infix_refl frames⟩

namespace Phone
variable {phone : Phone} {path : String} {frames : List Bytes} {index : ℕ}

/-- A running upload belongs to a recording of the list. -/
def InFlightKnown (phone : Phone) : Prop :=
  ∀ entry ∈ phone.inFlight, entry.1 < phone.sync.wals.length

theorem getElem?_setStatus (other : ℕ) (status : WalStatus) (h : other ≠ index) :
    (phone.setStatus other status).sync.wals[index]? = phone.sync.wals[index]? := by
  simp [setStatus, h]

theorem length_setStatus (other : ℕ) (status : WalStatus) :
    (phone.setStatus other status).sync.wals.length = phone.sync.wals.length := by
  simp [setStatus]

/-- Another file may be written and a recording added; what waits and is kept stays so. -/
theorem WaitsAt.replace (h : phone.WaitsAt index path frames) {sync : LocalSync}
    (hwals : ∀ (i : ℕ) old, phone.sync.wals[i]? = some old → sync.wals[i]? = some old) :
    { phone with sync := sync }.WaitsAt index path frames := by
  obtain ⟨⟨wal, hat, hwal⟩, hread⟩ := h
  exact ⟨⟨wal, hwals index wal hat, hwal⟩, hread⟩

theorem Keeps.replace (h : phone.Keeps path frames) {sync : LocalSync}
    (hwals : ∀ (i : ℕ) old, phone.sync.wals[i]? = some old → sync.wals[i]? = some old)
    (hfile : sync.files.get path = phone.sync.files.get path) :
    { phone with sync := sync }.Keeps path frames := by
  rcases h with ⟨index, content, hwaits, hget, hholds⟩ | huploaded
  · exact .inl ⟨index, content, hwaits.replace hwals, hfile.trans hget, hholds⟩
  · exact .inr huploaded

theorem keeps_uploadRead (h : phone.Keeps path frames) (other : ℕ) :
    (phone.uploadRead other).Keeps path frames := by
  unfold uploadRead
  cases hwal : phone.sync.wals[other]? with
  | none => exact h
  | some wal =>
    dsimp only
    split_ifs with hmiss
    · rcases h with ⟨index, content, ⟨⟨old, hat, hold⟩, hread⟩, hget, hholds⟩ | huploaded
      · cases hfile : phone.sync.files.get wal.filePath with
        | none =>
          -- The recording that keeps the frames has its file, so it is another one.
          have hother : other ≠ index := by
            rintro rfl
            obtain rfl := Option.some.inj (hwal.symm.trans hat)
            rw [hold.2.2, hget] at hfile
            cases hfile
          refine .inl ⟨index, content, ⟨⟨old, ?_, hold⟩, hread⟩, hget, hholds⟩
          rw [getElem?_setStatus other _ hother]
          exact hat
        | some readContent =>
          refine .inl ⟨index, content, ⟨⟨old, hat, hold⟩, ?_⟩, hget, hholds⟩
          intro found hmem
          rcases List.mem_cons.1 hmem with hnew | hrest
          · obtain ⟨rfl, rfl⟩ := Prod.mk.inj hnew
            obtain rfl := Option.some.inj (hwal.symm.trans hat)
            rw [hold.2.2, hget] at hfile
            rw [← Option.some.inj hfile]
            exact hholds
          · exact hread found (List.mem_filter.1 hrest).1
      · cases phone.sync.files.get wal.filePath <;> exact .inr huploaded
    · exact h

theorem keeps_uploadFinished (h : phone.Keeps path frames) (other : ℕ) (answer : UploadAnswer) :
    (phone.uploadFinished other answer).Keeps path frames := by
  unfold uploadFinished
  cases hentry : phone.inFlight.find? (fun entry => entry.1 = other) with
  | none => exact h
  | some entry =>
    obtain ⟨found, read⟩ := entry
    have hmem : (found, read) ∈ phone.inFlight := List.mem_of_find?_eq_some hentry
    have hfound : found = other := by simpa using List.find?_some hentry
    subst hfound
    dsimp only
    rcases h with ⟨index, content, ⟨⟨old, hat, hold⟩, hread⟩, hget, hholds⟩ |
        ⟨content, hcontent, hholds⟩
    · have hrest (found' : Bytes)
          (h : (index, found') ∈ phone.inFlight.filter fun entry => entry.1 ≠ found) :
          Holds found' frames := hread found' (List.mem_filter.1 h).1
      by_cases hsame : found = index
      · have huploaded : Holds read frames := hread read (hsame ▸ hmem)
        cases answer with
        | failed => exact .inl ⟨index, content, ⟨⟨old, hat, hold⟩, hrest⟩, hget, hholds⟩
        | uploaded => exact .inr ⟨read, by simp, huploaded⟩
        | synced => exact .inr ⟨read, by simp, huploaded⟩
      · cases answer with
        | failed => exact .inl ⟨index, content, ⟨⟨old, hat, hold⟩, hrest⟩, hget, hholds⟩
        | uploaded =>
          refine .inl ⟨index, content, ⟨⟨old, ?_, hold⟩, hrest⟩, hget, hholds⟩
          exact (getElem?_setStatus found .uploaded hsame).trans hat
        | synced =>
          refine .inl ⟨index, content, ⟨⟨old, ?_, hold⟩, hrest⟩, hget, hholds⟩
          exact (getElem?_setStatus found .synced hsame).trans hat
    · cases answer with
      | failed => exact .inr ⟨content, hcontent, hholds⟩
      | uploaded => exact .inr ⟨content, List.mem_append_left _ hcontent, hholds⟩
      | synced => exact .inr ⟨content, List.mem_append_left _ hcontent, hholds⟩

theorem inFlightKnown_uploadRead (h : phone.InFlightKnown) (index : ℕ) :
    (phone.uploadRead index).InFlightKnown := by
  unfold uploadRead
  cases hwal : phone.sync.wals[index]? with
  | none => exact h
  | some wal =>
    dsimp only
    split_ifs
    · cases phone.sync.files.get wal.filePath with
      | none =>
        intro entry hmem
        rw [length_setStatus]
        exact h entry hmem
      | some content =>
        intro entry hmem
        rcases List.mem_cons.1 hmem with rfl | hrest
        · exact (List.getElem?_eq_some_iff.1 hwal).1
        · exact h entry (List.mem_filter.1 hrest).1
    · exact h

theorem inFlightKnown_uploadFinished (h : phone.InFlightKnown) (index : ℕ)
    (answer : UploadAnswer) : (phone.uploadFinished index answer).InFlightKnown := by
  unfold uploadFinished
  cases phone.inFlight.find? (fun entry => entry.1 = index) with
  | none => exact h
  | some entry =>
    have hrest : ∀ other ∈ phone.inFlight.filter (fun entry => entry.1 ≠ index),
        other.1 < phone.sync.wals.length := fun other hmem => h other (List.mem_filter.1 hmem).1
    cases answer with
    | failed => exact hrest
    | uploaded =>
      intro other hmem
      exact (hrest other hmem).trans_eq (length_setStatus index .uploaded).symm
    | synced =>
      intro other hmem
      exact (hrest other hmem).trans_eq (length_setStatus index .synced).symm

end Phone

/-! ### The attempt -/

namespace RingAttempt
variable {readSeq : ℕ} {ring : List RingRecord} {phone : Phone} {attempt : RingAttempt}

/-- What the attempt has consumed of the ring. -/
structure Streamed (readSeq : ℕ) (ring : List RingRecord) (attempt : RingAttempt) : Prop where
  consumed : attempt.consumed <+: ring.map RingRecord.bytes
  sent : attempt.sent ≤ (ring.flatMap RingRecord.bytes).length
  streaming : attempt.completed = none →
    attempt.consumed.flatten ++ attempt.buffer =
      (ring.flatMap RingRecord.bytes).take attempt.sent ∧
    attempt.buffer.length < RingProtocol.recordSize
  done : ∀ nextSeq ∈ attempt.doneNextSeq,
    nextSeq = readSeq + attempt.consumed.length ∧ attempt.completed.isSome

/-- Frames or records may still come. -/
def Unfinished (attempt : RingAttempt) : Prop :=
  attempt.completed = none ∨ attempt.inFlightFlush.isSome ∨ attempt.bytesData ≠ []

/-- The consumed frames are in the chunks handed over, in flight or waiting; the phone keeps
the chunks handed over, each under a start time of its own. -/
structure Chunked (phone : Phone) (attempt : RingAttempt) : Prop where
  frames : attempt.handed.flatMap RingChunk.frames ++
    (attempt.inFlightFlush.elim [] RingFlush.frames ++ attempt.bytesData) =
      attempt.consumed.flatMap recordFrames
  kept : ∀ chunk ∈ attempt.handed,
    phone.Keeps (attempt.wal.getFileNameByTimeStarts chunk.timerStart) chunk.frames
  earlier : attempt.Unfinished → ∀ chunk ∈ attempt.handed,
    chunk.timerStart < attempt.chunkTimerStart
  unanchored : attempt.firstRecordTs = none → attempt.consumed = [] ∧ attempt.handed = []
  flight : ∀ flush ∈ attempt.inFlightFlush, flush.frames ≠ [] ∧
    (flush.frames.length = attempt.chunkFrames ∨
      attempt.completed.isSome ∧ flush.finalFlush ∧ attempt.bytesData = [])

/-- What an attempt keeps; after a flush error its chunks no longer matter. -/
structure Sound (readSeq : ℕ) (ring : List RingRecord) (phone : Phone) (attempt : RingAttempt) :
    Prop where
  streamed : Streamed readSeq ring attempt
  chunked : attempt.flushError = false → Chunked phone attempt
  failed : attempt.finalFailed → attempt.flushError

theorem chunkFrames_pos (attempt : RingAttempt) : 0 < attempt.chunkFrames :=
  Nat.mul_pos (by decide) attempt.wal.codec.getFramesPerSecond_pos

theorem sound_start (wal : Wal) (rtcValid : Bool) :
    Sound readSeq ring phone { wal := wal, rtcValid := rtcValid } where
  streamed :=
    { consumed := List.nil_prefix
      sent := Nat.zero_le _
      streaming := fun _ => ⟨by simp, Nat.zero_lt_succ _⟩
      done := fun _ hmem => by cases hmem }
  chunked _ :=
    { frames := rfl
      kept := fun _ hmem => absurd hmem List.not_mem_nil
      earlier := fun _ _ hmem => absurd hmem List.not_mem_nil
      unanchored := fun _ => ⟨rfl, rfl⟩
      flight := fun _ hmem => by cases hmem }
  failed h := by cases h

/-- New records at the end of the ring change nothing for a running attempt. -/
theorem Streamed.recorded (h : Streamed readSeq ring attempt) (records : List RingRecord) :
    Streamed readSeq (ring ++ records) attempt where
  consumed := by
    rw [List.map_append]
    exact h.consumed.trans (List.prefix_append _ _)
  sent := by
    rw [List.flatMap_append, List.length_append]
    exact h.sent.trans (Nat.le_add_right _ _)
  streaming hopen := by
    rw [List.flatMap_append, List.take_append_of_le_length h.sent]
    exact h.streaming hopen
  done := h.done

/-- The phone may change as long as it keeps what was handed over. -/
theorem Sound.replacePhone (h : Sound readSeq ring phone attempt) {next : Phone}
    (hkeeps : ∀ path frames, phone.Keeps path frames → next.Keeps path frames) :
    Sound readSeq ring next attempt where
  streamed := h.streamed
  chunked hok :=
    { h.chunked hok with kept := fun chunk hmem => hkeeps _ _ ((h.chunked hok).kept chunk hmem) }
  failed := h.failed

/-! ### Notifications -/

theorem foldl_consume (now : ℕ) (records : List Bytes) (attempt : RingAttempt) :
    ∃ firstRecordTs chunkTimerStart,
      records.foldl (consume now) attempt =
        { attempt with
          firstRecordTs := firstRecordTs
          chunkTimerStart := chunkTimerStart
          bytesData := attempt.bytesData ++ records.flatMap recordFrames
          consumed := attempt.consumed ++ records } ∧
      (attempt.firstRecordTs.isSome → chunkTimerStart = attempt.chunkTimerStart) ∧
      (firstRecordTs = none → attempt.firstRecordTs = none ∧ records = []) := by
  induction records generalizing attempt with
  | nil => exact ⟨attempt.firstRecordTs, attempt.chunkTimerStart, by simp, by simp, by simp⟩
  | cons record rest ih =>
    obtain ⟨firstRecordTs, chunkTimerStart, hfold, hkept, hnone⟩ := ih (consume now attempt record)
    have hanchored : (consume now attempt record).firstRecordTs ≠ none ∧
        (attempt.firstRecordTs.isSome →
          (consume now attempt record).chunkTimerStart = attempt.chunkTimerStart) := by
      unfold consume anchor
      cases hfirst : attempt.firstRecordTs with
      | none => exact ⟨by simp, by simp⟩
      | some ts => exact ⟨by simp [hfirst], fun _ => rfl⟩
    refine ⟨firstRecordTs, chunkTimerStart, ?_, fun hsome => ?_, fun h => ?_⟩
    · rw [List.foldl_cons, hfold]
      unfold consume anchor
      cases attempt.firstRecordTs <;> simp
    · rw [← hanchored.2 hsome]
      exact hkept (Option.isSome_iff_ne_none.2 hanchored.1)
    · exact absurd (hnone h).1 hanchored.1

/-- Taking a chunk moves its frames from the waiting ones into the flush. -/
theorem chunked_takeChunk (h : Chunked phone attempt) (hidle : attempt.inFlightFlush = none)
    (hbytes : attempt.bytesData ≠ []) {finalFlush : Bool}
    (hfull : attempt.chunkFrames ≤ attempt.bytesData.length ∨
      attempt.completed.isSome ∧ finalFlush) :
    Chunked phone (attempt.takeChunk finalFlush) := by
  have hpos := attempt.chunkFrames_pos
  constructor
  case frames =>
    have hframes := h.frames
    rw [hidle] at hframes
    change attempt.handed.flatMap RingChunk.frames ++
      (attempt.bytesData.take attempt.chunkFrames ++
        attempt.bytesData.drop attempt.chunkFrames) = _
    rw [List.take_append_drop]
    exact hframes
  case kept => exact h.kept
  case earlier => exact fun _ => h.earlier (.inr (.inr hbytes))
  case unanchored => exact h.unanchored
  case flight =>
    intro flush hmem
    obtain rfl : ⟨attempt.bytesData.take attempt.chunkFrames, finalFlush⟩ = flush :=
      Option.some.inj hmem
    refine ⟨?_, ?_⟩
    · change attempt.bytesData.take attempt.chunkFrames ≠ []
      rw [Ne, List.take_eq_nil_iff]
      rintro (hzero | hnil)
      · exact hpos.ne' hzero
      · exact hbytes hnil
    · by_cases hlong : attempt.chunkFrames ≤ attempt.bytesData.length
      · exact .inl (List.length_take_of_le hlong)
      · rcases hfull with hle | ⟨hcompleted, hfinal⟩
        · exact absurd hle hlong
        · exact .inr ⟨hcompleted, hfinal, List.drop_eq_nil_of_le (Nat.le_of_not_le hlong)⟩

theorem chunked_flushFull (h : Chunked phone attempt) : Chunked phone attempt.flushFull := by
  unfold flushFull
  split_ifs with hfull
  · obtain ⟨hidle, hlong⟩ : attempt.inFlightFlush = none ∧
        attempt.chunkFrames ≤ attempt.bytesData.length := by simpa using hfull
    have hbytes : attempt.bytesData ≠ [] := by
      rintro hnil
      rw [hnil] at hlong
      exact absurd hlong (Nat.not_le_of_lt attempt.chunkFrames_pos)
    exact chunked_takeChunk h hidle hbytes (.inl hlong)
  · exact h

theorem streamed_flushFull (h : Streamed readSeq ring attempt) :
    Streamed readSeq ring attempt.flushFull := by
  unfold flushFull
  split_ifs
  · exact ⟨h.consumed, h.sent, h.streaming, h.done⟩
  · exact h

/-- The records drained from the buffer are the next of the ring. -/
theorem consumed_drainRecords {consumed : List Bytes} {buffer : Bytes}
    (hold : ∀ record ∈ consumed, record.length = RingProtocol.recordSize)
    (h : consumed.flatten ++ buffer <+: ring.flatMap RingRecord.bytes) :
    consumed ++ (RingProtocol.drainRecords buffer).1 <+: ring.map RingRecord.bytes := by
  have hflatten := flatten_drainBlocks RingProtocol.recordSize buffer.length buffer
  have hlengths := length_of_mem_drainBlocks RingProtocol.recordSize buffer.length buffer
  refine prefix_of_flatten (by decide : 0 < RingProtocol.recordSize) ?_ ?_ ?_
  · intro record hmem
    rcases List.mem_append.1 hmem with hmem | hmem
    · exact hold record hmem
    · exact hlengths record hmem
  · intro record hmem
    obtain ⟨entry, -, rfl⟩ := List.mem_map.1 hmem
    exact entry.length_bytes
  · refine List.IsPrefix.trans ?_ h
    rw [List.flatten_append]
    refine ⟨(RingProtocol.drainRecords buffer).2, ?_⟩
    rw [List.append_assoc]
    exact congrArg (consumed.flatten ++ ·) hflatten

theorem length_consumed (h : Streamed readSeq ring attempt) :
    ∀ record ∈ attempt.consumed, record.length = RingProtocol.recordSize := by
  intro record hmem
  obtain ⟨entry, -, rfl⟩ := List.mem_map.1 (h.consumed.subset hmem)
  exact entry.length_bytes

theorem flushFull_withSent (attempt : RingAttempt) (sent : ℕ) :
    { attempt.flushFull with sent := sent } = RingAttempt.flushFull { attempt with sent := sent } := by
  unfold flushFull takeChunk chunkFrames
  split_ifs <;> rfl

theorem Sound.flushFull (h : Sound readSeq ring phone attempt) :
    Sound readSeq ring phone attempt.flushFull where
  streamed := streamed_flushFull h.streamed
  chunked hok := by
    have hsame : attempt.flushFull.flushError = attempt.flushError := by
      unfold RingAttempt.flushFull
      split_ifs <;> rfl
    exact chunked_flushFull (h.chunked (hsame ▸ hok))
  failed := by
    unfold RingAttempt.flushFull
    split_ifs <;> exact h.failed

/-- A data notification carries the next bytes of the ring. -/
theorem sound_receiveData (h : Sound readSeq ring phone attempt) (hopen : attempt.completed = none)
    (now count : ℕ) :
    let payload := ((ring.flatMap RingRecord.bytes).drop attempt.sent).take count
    Sound readSeq ring phone
      { attempt.receiveData now payload with sent := attempt.sent + payload.length } := by
  intro payload
  let stream := ring.flatMap RingRecord.bytes
  let drained := RingProtocol.drainRecords (attempt.buffer ++ payload)
  obtain ⟨hbytes, -⟩ := h.streamed.streaming hopen
  have htake : stream.take attempt.sent ++ payload =
      stream.take (attempt.sent + payload.length) := by
    rw [List.take_add]
    congr 1
    simp [payload, stream]
  have hbuffered : attempt.consumed.flatten ++ (attempt.buffer ++ payload) =
      stream.take (attempt.sent + payload.length) := by
    rw [← List.append_assoc, hbytes, htake]
  have hdrained : drained.1.flatten ++ drained.2 = attempt.buffer ++ payload :=
    flatten_drainBlocks _ _ _
  obtain ⟨firstRecordTs, chunkTimerStart, hfold, hanchor, hnone⟩ :=
    foldl_consume now drained.1 { attempt with buffer := drained.2 }
  have hreceived : attempt.receiveData now payload =
      RingAttempt.flushFull (drained.1.foldl (consume now) { attempt with buffer := drained.2 }) :=
    rfl
  rw [hreceived, hfold, flushFull_withSent]
  apply Sound.flushFull
  constructor
  case streamed =>
    constructor
    case consumed =>
      apply consumed_drainRecords (length_consumed h.streamed)
      rw [hbuffered]
      exact List.take_prefix _ _
    case sent =>
      have hsent := h.streamed.sent
      change attempt.sent + ((stream.drop attempt.sent).take count).length ≤ stream.length
      rw [List.length_take, List.length_drop]
      change attempt.sent ≤ stream.length at hsent
      omega
    case streaming =>
      intro _
      refine ⟨?_, length_drainBlocks_lt (by decide) le_rfl⟩
      change (attempt.consumed ++ drained.1).flatten ++ drained.2 = _
      rw [List.flatten_append, List.append_assoc, hdrained, hbuffered]
    case done =>
      intro nextSeq hmem
      have hcompleted := (h.streamed.done nextSeq hmem).2
      rw [hopen] at hcompleted
      cases hcompleted
  case chunked =>
    intro hok
    have hchunked := h.chunked hok
    constructor
    case frames =>
      change attempt.handed.flatMap RingChunk.frames ++
        (attempt.inFlightFlush.elim [] RingFlush.frames ++
          (attempt.bytesData ++ drained.1.flatMap recordFrames)) =
        (attempt.consumed ++ drained.1).flatMap recordFrames
      rw [List.flatMap_append, ← hchunked.frames]
      simp only [List.append_assoc]
    case kept => exact hchunked.kept
    case earlier =>
      intro _ chunk hmem
      cases hfirst : attempt.firstRecordTs with
      | none =>
        have hempty := (hchunked.unanchored hfirst).2
        change chunk ∈ attempt.handed at hmem
        rw [hempty] at hmem
        exact absurd hmem List.not_mem_nil
      | some ts =>
        have hsame : chunkTimerStart = attempt.chunkTimerStart := hanchor (by simp [hfirst])
        exact (hchunked.earlier (.inl hopen) chunk hmem).trans_eq hsame.symm
    case unanchored =>
      intro hfirst
      obtain ⟨hold, hrecords⟩ := hnone hfirst
      obtain ⟨hconsumed, hhanded⟩ := hchunked.unanchored hold
      refine ⟨?_, hhanded⟩
      change attempt.consumed ++ drained.1 = []
      rw [hconsumed, hrecords]
      rfl
    case flight =>
      intro flush hmem
      obtain ⟨hframes, hlong | ⟨hcompleted, -⟩⟩ := hchunked.flight flush hmem
      · exact ⟨hframes, .inl hlong⟩
      · rw [hopen] at hcompleted
        cases hcompleted
  case failed => exact h.failed

theorem Sound.complete (h : Sound readSeq ring phone attempt) (reachedDone : Bool) :
    Sound readSeq ring phone (attempt.complete reachedDone) := by
  have hsome : (attempt.complete reachedDone).completed.isSome := by
    simp [RingAttempt.complete]
  constructor
  case streamed =>
    refine ⟨h.streamed.consumed, h.streamed.sent, fun hnone => ?_, fun nextSeq hmem => ?_⟩
    · rw [hnone] at hsome
      cases hsome
    · exact ⟨(h.streamed.done nextSeq hmem).1, hsome⟩
  case chunked =>
    intro hok
    have hchunked := h.chunked hok
    refine ⟨hchunked.frames, hchunked.kept, fun hunfinished => ?_, hchunked.unanchored, ?_⟩
    · apply hchunked.earlier
      rcases hunfinished with hnone | hrest
      · rw [hnone] at hsome
        cases hsome
      · exact .inr hrest
    · intro flush hmem
      obtain ⟨hframes, hlong | ⟨-, hfinal⟩⟩ := hchunked.flight flush hmem
      · exact ⟨hframes, .inl hlong⟩
      · exact ⟨hframes, .inr ⟨hsome, hfinal⟩⟩
  case failed => exact h.failed

theorem Sound.notified (h : Sound readSeq ring phone attempt) {handle : RingAttempt → RingAttempt}
    (hhandle : attempt.completed = none → Sound readSeq ring phone (handle attempt)) :
    Sound readSeq ring phone (attempt.notified handle) := by
  unfold RingAttempt.notified
  split_ifs with hcompleted hcancelled
  · exact h
  · exact h.complete false
  · exact hhandle (by simpa using hcompleted)

/-- What the device streams after the end is not looked at. -/
theorem Sound.streamOn (h : Sound readSeq ring phone attempt) (hclosed : attempt.completed.isSome)
    {sent : ℕ} (hsent : sent ≤ (ring.flatMap RingRecord.bytes).length) :
    Sound readSeq ring phone { attempt with sent := sent } := by
  constructor
  case streamed =>
    refine ⟨h.streamed.consumed, hsent, fun hnone => ?_, h.streamed.done⟩
    change attempt.completed = none at hnone
    rw [hnone] at hclosed
    cases hclosed
  case chunked =>
    intro hok
    have hchunked := h.chunked hok
    exact ⟨hchunked.frames, hchunked.kept, hchunked.earlier, hchunked.unanchored, hchunked.flight⟩
  case failed => exact h.failed

theorem sound_data (h : Sound readSeq ring phone attempt) (count now : ℕ) :
    let payload := ((ring.flatMap RingRecord.bytes).drop attempt.sent).take count
    Sound readSeq ring phone
      { attempt.notified (fun attempt => attempt.receiveData now payload) with
        sent := attempt.sent + payload.length } := by
  intro payload
  have hsent : attempt.sent + payload.length ≤ (ring.flatMap RingRecord.bytes).length := by
    have hsent := h.streamed.sent
    simp only [payload, List.length_take, List.length_drop]
    omega
  unfold RingAttempt.notified
  split_ifs with hcompleted hcancelled
  · exact h.streamOn hcompleted hsent
  · exact (h.complete false).streamOn (by simp [RingAttempt.complete]) hsent
  · exact sound_receiveData h (by simpa using hcompleted) now count

/-- The sequence NOTIFY_DONE reports is the one behind the records consumed. -/
theorem sound_receiveDone (h : Sound readSeq ring phone attempt) (hopen : attempt.completed = none)
    (status : ℕ) :
    Sound readSeq ring phone
      (attempt.receiveDone status (readSeq + attempt.sent / RingProtocol.recordSize)) := by
  obtain ⟨hbytes, hshort⟩ := h.streamed.streaming hopen
  have hcount : attempt.sent / RingProtocol.recordSize = attempt.consumed.length := by
    have hlength := congrArg List.length hbytes
    have hflatten : attempt.consumed.flatten.length =
        attempt.consumed.length * RingProtocol.recordSize := by
      rw [List.length_flatten]
      have hsizes : attempt.consumed.map List.length =
          List.replicate attempt.consumed.length RingProtocol.recordSize :=
        List.eq_replicate_iff.2 ⟨List.length_map _, fun size hmem => by
          obtain ⟨record, hrecord, rfl⟩ := List.mem_map.1 hmem
          exact length_consumed h.streamed record hrecord⟩
      rw [hsizes, List.sum_replicate_nat]
    rw [List.length_append, List.length_take, hflatten, Nat.min_eq_left h.streamed.sent] at hlength
    rw [← hlength]
    unfold RingProtocol.recordSize at hshort ⊢
    omega
  have hdone : Sound readSeq ring phone (attempt.complete true) := h.complete true
  constructor
  case streamed =>
    refine ⟨h.streamed.consumed, h.streamed.sent, hdone.streamed.streaming, ?_⟩
    intro nextSeq hmem
    obtain rfl : readSeq + attempt.sent / RingProtocol.recordSize = nextSeq := Option.some.inj hmem
    refine ⟨?_, ?_⟩
    · rw [hcount]
      rfl
    · simp [receiveDone, RingAttempt.complete]
  case chunked =>
    intro hok
    have hchunked := hdone.chunked hok
    exact ⟨hchunked.frames, hchunked.kept, hchunked.earlier, hchunked.unanchored, hchunked.flight⟩
  case failed => exact h.failed

/-! ### Flushes -/

theorem sound_cancel (h : Sound readSeq ring phone attempt) :
    Sound readSeq ring phone { attempt with isCancelled := true } where
  streamed := ⟨h.streamed.consumed, h.streamed.sent, h.streamed.streaming, h.streamed.done⟩
  chunked hok := by
    have hchunked := h.chunked hok
    exact ⟨hchunked.frames, hchunked.kept, hchunked.earlier, hchunked.unanchored, hchunked.flight⟩
  failed := h.failed

/-- A chunk that the phone keeps joins those handed over, and the next one starts later. -/
theorem chunked_flushed {next : Phone} (h : Chunked phone attempt) {flush : RingFlush}
    (hflush : attempt.inFlightFlush = some flush)
    (hkept : ∀ chunk ∈ attempt.handed,
      next.Keeps (attempt.wal.getFileNameByTimeStarts chunk.timerStart) chunk.frames)
    (hnew : next.Keeps (attempt.wal.getFileNameByTimeStarts attempt.chunkTimerStart)
      flush.frames) :
    Chunked next (attempt.flushed flush) := by
  obtain ⟨hframes, hsize⟩ := h.flight flush hflush
  have hearlier := h.earlier (.inr (.inl (by simp [hflush])))
  let framesPerSecond := attempt.wal.codec.getFramesPerSecond
  let handed : RingAttempt :=
    { attempt with
      inFlightFlush := none
      chunkTimerStart := attempt.chunkTimerStart + flush.frames.length / framesPerSecond
      handed := attempt.handed ++ [⟨attempt.chunkTimerStart, flush.frames⟩] }
  have hhanded : Chunked next handed := by
    constructor
    case frames =>
      have hold := h.frames
      rw [hflush] at hold
      rw [show handed.consumed = attempt.consumed from rfl, ← hold]
      simp [handed]
    case kept =>
      intro chunk hmem
      rcases List.mem_append.1 hmem with hold | hlast
      · exact hkept chunk hold
      · obtain rfl := List.mem_singleton.1 hlast
        exact hnew
    case earlier =>
      intro hunfinished chunk hmem
      have hfull : flush.frames.length = attempt.chunkFrames := by
        rcases hsize with hfull | ⟨hcompleted, -, hbytes⟩
        · exact hfull
        · rcases hunfinished with hopen | hflight | hmore
          · change attempt.completed = none at hopen
            rw [hopen] at hcompleted
            cases hcompleted
          · cases hflight
          · exact absurd hbytes hmore
      have hstep : flush.frames.length / framesPerSecond = sdcardChunkSizeSecs := by
        rw [hfull]
        exact Nat.mul_div_cancel _ attempt.wal.codec.getFramesPerSecond_pos
      have hle : chunk.timerStart ≤ attempt.chunkTimerStart := by
        rcases List.mem_append.1 hmem with hold | hlast
        · exact (hearlier chunk hold).le
        · obtain rfl := List.mem_singleton.1 hlast
          exact le_rfl
      change chunk.timerStart <
        attempt.chunkTimerStart + flush.frames.length / framesPerSecond
      rw [hstep]
      unfold sdcardChunkSizeSecs
      omega
    case unanchored =>
      intro hfirst
      obtain ⟨hconsumed, hold⟩ := h.unanchored hfirst
      have hall := h.frames
      rw [hconsumed, hold, hflush] at hall
      have hnil : flush.frames ++ attempt.bytesData = [] := hall
      exact absurd (List.append_eq_nil_iff.1 hnil).1 hframes
    case flight => exact fun _ hmem => by cases hmem
  unfold flushed
  dsimp only
  split_ifs
  · exact hhanded
  · exact chunked_flushFull hhanded

theorem sound_flushed {next : Phone} (h : Sound readSeq ring phone attempt) {flush : RingFlush}
    (hflush : attempt.inFlightFlush = some flush)
    (hkept : attempt.flushError = false → ∀ chunk ∈ attempt.handed,
      next.Keeps (attempt.wal.getFileNameByTimeStarts chunk.timerStart) chunk.frames)
    (hnew : next.Keeps (attempt.wal.getFileNameByTimeStarts attempt.chunkTimerStart)
      flush.frames) :
    Sound readSeq ring next (attempt.flushed flush) := by
  have hstreamed : Streamed readSeq ring (attempt.flushed flush) := by
    unfold flushed
    dsimp only
    split_ifs
    · exact ⟨h.streamed.consumed, h.streamed.sent, h.streamed.streaming, h.streamed.done⟩
    · exact streamed_flushFull
        ⟨h.streamed.consumed, h.streamed.sent, h.streamed.streaming, h.streamed.done⟩
  have herror : (attempt.flushed flush).flushError = attempt.flushError ∧
      (attempt.flushed flush).finalFailed = attempt.finalFailed := by
    unfold flushed flushFull
    dsimp only
    split_ifs <;> exact ⟨rfl, rfl⟩
  refine ⟨hstreamed, fun hok => ?_, ?_⟩
  · rw [herror.1] at hok
    exact chunked_flushed (h.chunked hok) hflush (hkept hok) hnew
  · rw [herror.1, herror.2]
    exact h.failed

theorem sound_flushFailed {next : Phone} (h : Sound readSeq ring phone attempt)
    (flush : RingFlush) : Sound readSeq ring next (attempt.flushFailed flush) := by
  have herror : (attempt.flushFailed flush).flushError = true := by
    unfold flushFailed RingAttempt.complete
    dsimp only
    split_ifs <;> rfl
  refine ⟨?_, fun hok => ?_, fun _ => herror⟩
  · unfold flushFailed
    dsimp only
    split_ifs
    · exact ⟨h.streamed.consumed, h.streamed.sent, h.streamed.streaming, h.streamed.done⟩
    · have hstreamed := (h.complete false).streamed
      exact ⟨hstreamed.consumed, hstreamed.sent, hstreamed.streaming, hstreamed.done⟩
  · rw [herror] at hok
    cases hok

/-- Where the ring is advanced, every frame given up is in a chunk handed over. -/
theorem safe_advanceTo (h : Sound readSeq ring phone attempt) {nextSeq : ℕ}
    (hadvance : RingWorld.advanceTo attempt = some nextSeq) (hidle : attempt.inFlightFlush = none)
    (hrest : attempt.bytesData = [] ∨ attempt.finalFailed) :
    RingAdvance.Safe ⟨nextSeq, phone⟩ readSeq ring := by
  unfold RingWorld.advanceTo at hadvance
  split_ifs at hadvance with hgate
  obtain ⟨⟨-, hok⟩, -⟩ : ((attempt.completed = some true ∧ attempt.doneOk = true) ∧
      attempt.flushError = false) ∧ attempt.isCancelled = false := by simpa using hgate
  have hbytes : attempt.bytesData = [] := by
    rcases hrest with hbytes | hfailed
    · exact hbytes
    · have herror := h.failed hfailed
      rw [hok] at herror
      cases herror
  have hchunked := h.chunked hok
  have hcount : attempt.consumed.length ≤ ring.length := by
    simpa using h.streamed.consumed.length_le
  refine ⟨attempt.consumed.length, attempt.handed.map RingChunk.frames,
    (h.streamed.done nextSeq hadvance).1, hcount, ?_, ?_⟩
  · have hframes := hchunked.frames
    rw [hidle, hbytes] at hframes
    have hconsumed : attempt.consumed = (ring.take attempt.consumed.length).map RingRecord.bytes := by
      rw [List.map_take]
      exact List.prefix_iff_eq_take.1 h.streamed.consumed
    calc
      (attempt.handed.map RingChunk.frames).flatten
        = attempt.handed.flatMap RingChunk.frames := rfl
      _ = attempt.consumed.flatMap recordFrames := by simpa using hframes
      _ = ((ring.take attempt.consumed.length).map RingRecord.bytes).flatMap recordFrames := by
        rw [← hconsumed]
      _ = _ := List.flatMap_map _ _ _
  · intro chunk hmem
    obtain ⟨handed, hhanded, rfl⟩ := List.mem_map.1 hmem
    exact ⟨_, hchunked.kept handed hhanded⟩

end RingAttempt

/-! ### The world -/

theorem RingAdvance.Safe.recorded {advance : RingAdvance} {readSeq : ℕ} {ring : List RingRecord}
    (h : advance.Safe readSeq ring) (records : List RingRecord) :
    advance.Safe readSeq (ring ++ records) := by
  obtain ⟨count, chunks, hseq, hcount, hframes, hkept⟩ := h
  refine ⟨count, chunks, hseq, ?_, ?_, hkept⟩
  · rw [List.length_append]
    exact hcount.trans (Nat.le_add_right _ _)
  · rw [List.take_append_of_le_length hcount]
    exact hframes

namespace RingWorld
variable {world : RingWorld}

structure Sound (world : RingWorld) : Prop where
  inFlight : world.phone.InFlightKnown
  attempt : ∀ attempt ∈ world.attempt,
    attempt.Sound world.readSeq world.ring world.phone
  advances : ∀ advance ∈ world.advances, advance.Safe world.readSeq world.ring

theorem sound_update (h : Sound world) {change : RingAttempt → RingAttempt}
    (hchange : ∀ attempt ∈ world.attempt,
      (change attempt).Sound world.readSeq world.ring world.phone) :
    Sound (world.update change) where
  inFlight := h.inFlight
  attempt attempt hmem := by
    obtain ⟨old, hold, rfl⟩ := Option.map_eq_some_iff.1 hmem
    exact hchange old hold
  advances := h.advances

/-- A chunk in its new file is kept by the phone that takes it over. -/
theorem keeps_handsOver (h : Sound world) {attempt : RingAttempt} {frames : List Bytes}
    (hhands : world.HandsOver attempt frames) :
    { world.phone with sync := world.register attempt frames }.Keeps
      (attempt.wal.getFileNameByTimeStarts attempt.chunkTimerStart) frames := by
  have hfile : (world.register attempt frames).files.get
      (attempt.wal.getFileNameByTimeStarts attempt.chunkTimerStart) = some (flushData frames) := by
    rw [register, LocalSync.files_register, if_pos rfl]
  rcases hhands with ⟨hlocal, hnew⟩ | ⟨index, hwaits⟩ | huploaded
  · let wal := attempt.wal.chunkWal attempt.chunkTimerStart frames.length
    have hwals : (world.register attempt frames).wals = world.phone.sync.wals ++ [wal] := by
      rw [register, hlocal]
      exact LocalSync.wals_register attempt.wal attempt.chunkTimerStart frames hnew
    refine .inl ⟨world.phone.sync.wals.length, flushData frames, ⟨⟨wal, ?_, rfl, rfl, rfl⟩, ?_⟩,
      hfile, holds_flushData frames⟩
    · change (world.register attempt frames).wals[world.phone.sync.wals.length]? = some wal
      rw [hwals, List.getElem?_concat_length]
    · intro content hmem
      exact absurd (h.inFlight _ hmem) (Nat.lt_irrefl _)
  · exact .inl ⟨index, flushData frames, hwaits.replace fun _ _ =>
      LocalSync.getElem?_register _ _ _ frames, hfile, holds_flushData frames⟩
  · exact .inr huploaded

theorem sound_flush (h : Sound world) {answer : FlushAnswer}
    (hcareful : world.Careful (.flush answer)) : Sound (world.flush answer) := by
  unfold RingWorld.flush
  cases hattempt : world.attempt with
  | none => exact h
  | some attempt =>
    have hsound := h.attempt attempt hattempt
    dsimp only
    cases hflight : attempt.inFlightFlush with
    | none => exact h
    | some flush =>
      have hlength := LocalSync.length_register world.hasLocalSync attempt.wal
        attempt.chunkTimerStart flush.frames world.phone.sync
      cases answer with
      | written =>
        have hnew := keeps_handsOver h (hcareful attempt hattempt flush hflight)
        refine ⟨fun entry hmem => (h.inFlight entry hmem).trans_le hlength, ?_, h.advances⟩
        intro _ hmem
        obtain rfl := Option.some.inj hmem
        refine RingAttempt.sound_flushed hsound hflight (fun hok chunk hmem => ?_) hnew
        -- The file of an earlier chunk has another name.
        have hchunked := hsound.chunked hok
        have hearlier := hchunked.earlier (.inr (.inl (by simp [hflight]))) chunk hmem
        have hother : attempt.wal.getFileNameByTimeStarts chunk.timerStart ≠
            attempt.wal.getFileNameByTimeStarts attempt.chunkTimerStart :=
          fun hsame => hearlier.ne (Wal.getFileNameByTimeStarts_inj hsame)
        refine (hchunked.kept chunk hmem).replace
          (fun _ _ => LocalSync.getElem?_register _ _ _ flush.frames) ?_
        rw [register, LocalSync.files_register, if_neg hother]
      | writeFailed begun =>
        refine ⟨fun entry hmem => ?_, ?_, h.advances⟩
        · have hknown := h.inFlight entry hmem
          cases begun <;> exact hknown
        · intro _ hmem
          obtain rfl := Option.some.inj hmem
          exact RingAttempt.sound_flushFailed hsound flush
      | registerFailed =>
        refine ⟨fun entry hmem => (h.inFlight entry hmem).trans_le hlength, ?_, h.advances⟩
        intro _ hmem
        obtain rfl := Option.some.inj hmem
        exact RingAttempt.sound_flushFailed hsound flush

theorem sound_settle (h : Sound world) : Sound world.settle := by
  unfold RingWorld.settle
  cases hattempt : world.attempt with
  | none => exact h
  | some attempt =>
    have hsound := h.attempt attempt hattempt
    dsimp only
    split_ifs with hbusy hmore
    · exact h
    · obtain ⟨hclosed, hidle⟩ : ¬attempt.completed = none ∧ attempt.inFlightFlush = none := by
        simpa using hbusy
      obtain ⟨hbytes, -⟩ : attempt.bytesData ≠ [] ∧ attempt.finalFailed = false := by
        simpa using hmore
      refine ⟨h.inFlight, ?_, h.advances⟩
      intro _ hmem
      obtain rfl := Option.some.inj hmem
      constructor
      case streamed =>
        have hstreamed := hsound.streamed
        exact ⟨hstreamed.consumed, hstreamed.sent, hstreamed.streaming, hstreamed.done⟩
      case chunked =>
        intro hok
        exact RingAttempt.chunked_takeChunk (hsound.chunked hok) hidle hbytes
          (.inr ⟨Option.isSome_iff_ne_none.2 hclosed, rfl⟩)
      case failed => exact hsound.failed
    · obtain ⟨-, hidle⟩ : ¬attempt.completed = none ∧ attempt.inFlightFlush = none := by
        simpa using hbusy
      have hrest : attempt.bytesData = [] ∨ attempt.finalFailed := by
        by_cases hbytes : attempt.bytesData = []
        · exact .inl hbytes
        · exact .inr (by simpa [hbytes] using hmore)
      refine ⟨h.inFlight, fun _ hmem => (by cases hmem), ?_⟩
      intro advance hmem
      cases hadvance : advanceTo attempt with
      | none =>
        rw [hadvance] at hmem
        exact h.advances advance hmem
      | some nextSeq =>
        rw [hadvance] at hmem
        rcases List.mem_append.1 hmem with hold | hnew
        · exact h.advances advance hold
        · obtain rfl := List.mem_singleton.1 hnew
          exact RingAttempt.safe_advanceTo hsound hadvance hidle hrest

theorem sound_step (h : Sound world) (action : RingAction) (hcareful : world.Careful action) :
    Sound (world.step action) := by
  cases action with
  | recorded records =>
    refine ⟨h.inFlight, fun attempt hmem => ?_, fun advance hmem => ?_⟩
    · have hsound := h.attempt attempt hmem
      exact ⟨hsound.streamed.recorded records, hsound.chunked, hsound.failed⟩
    · exact (h.advances advance hmem).recorded records
  | syncRing wal rtcValid =>
    simp only [step, syncRing]
    split_ifs
    · refine ⟨h.inFlight, ?_, h.advances⟩
      intro _ hmem
      obtain rfl := Option.some.inj hmem
      exact RingAttempt.sound_start wal rtcValid
    · exact h
  | data count now =>
    exact sound_update h fun attempt hmem =>
      RingAttempt.sound_data (h.attempt attempt hmem) count now
  | done status =>
    exact sound_update h fun attempt hmem => (h.attempt attempt hmem).notified fun hopen =>
      RingAttempt.sound_receiveDone (h.attempt attempt hmem) hopen status
  | other =>
    exact sound_update h fun attempt hmem => (h.attempt attempt hmem).notified fun _ =>
      h.attempt attempt hmem
  | closed => exact sound_update h fun attempt hmem => (h.attempt attempt hmem).complete false
  | cancel =>
    exact sound_update h fun attempt hmem => RingAttempt.sound_cancel (h.attempt attempt hmem)
  | flush answer => exact sound_flush h hcareful
  | settle => exact sound_settle h
  | uploadRead index =>
    refine ⟨Phone.inFlightKnown_uploadRead h.inFlight index, fun attempt hmem => ?_, h.advances⟩
    exact (h.attempt attempt hmem).replacePhone fun _ _ hkeeps =>
      Phone.keeps_uploadRead hkeeps index
  | uploadFinished index answer =>
    refine ⟨Phone.inFlightKnown_uploadFinished h.inFlight index answer, fun attempt hmem => ?_,
      h.advances⟩
    exact (h.attempt attempt hmem).replacePhone fun _ _ hkeeps =>
      Phone.keeps_uploadFinished hkeeps index answer

end RingWorld

/-- Where the phone takes over every chunk that is written, no attempt gives up a record whose
frames are neither on the phone, waiting to be uploaded, nor uploaded. -/
theorem ringAdvancesSafe (readSeq : ℕ) (ring : List RingRecord) (sync : LocalSync)
    (hasLocalSync : Bool) (actions : List RingAction)
    (hcareful : EveryStep RingWorld.step RingWorld.Careful
      (.start readSeq ring sync hasLocalSync) actions) :
    let world := actions.foldl RingWorld.step (.start readSeq ring sync hasLocalSync)
    ∀ advance ∈ world.advances, advance.Safe world.readSeq world.ring := by
  intro world
  have hstart : RingWorld.Sound (.start readSeq ring sync hasLocalSync) := by
    constructor
    case inFlight => exact fun _ hmem => absurd hmem List.not_mem_nil
    case attempt => exact fun _ hmem => by cases hmem
    case advances => exact fun _ hmem => absurd hmem List.not_mem_nil
  have hsound : RingWorld.Sound world :=
    hcareful.invariant hstart fun _ action h => RingWorld.sound_step h action
  exact hsound.advances

/-! ### A retry after a partial chunk -/

/-- A record with one frame, at second 5. -/
def loneFrame (frame : Bytes) (h : frame.length < 439) : RingRecord where
  bytes := 0 :: 0 :: 0 :: 5 :: UInt8.ofNat frame.length ::
    (frame ++ List.replicate (439 - frame.length) 0)
  length_bytes := by
    simp only [List.length_cons, List.length_append, List.length_replicate]
    unfold RingProtocol.recordSize
    omega

def ringWal : Wal := { timerStart := 0, codec := .opus, seconds := 0, device := "omi" }

/-- The write of two records fails; they are read again, handed over and given up. -/
theorem ringAdvancesSafe_retry :
    let actions : List RingAction :=
      [.syncRing ringWal true, .data 888 0, .done 0, .settle, .flush (.writeFailed none), .settle,
        .syncRing ringWal true, .data 500 0, .data 388 0, .done 0, .settle, .flush .written,
        .settle, .uploadRead 0, .uploadFinished 0 .uploaded]
    let start : RingWorld :=
      .start 3 [loneFrame [7] (by decide), loneFrame [8, 9] (by decide)] {} true
    let world := actions.foldl RingWorld.step start
    world.advances.map RingAdvance.nextSeq = [5] ∧
      ∀ advance ∈ world.advances, advance.Safe world.readSeq world.ring := by
  intro actions start world
  refine ⟨by decide +kernel, ringAdvancesSafe 3 _ {} true actions ?_⟩
  let before := (actions.take 11).foldl RingWorld.step start
  have hbefore : before.hasLocalSync = true ∧ before.phone.sync.wals = [] := by decide +kernel
  have hwritten : before.Careful (.flush .written) := by
    intro attempt _ flush _
    refine .inl ⟨hbefore.1, ?_⟩
    rintro ⟨wal, hmem, -⟩
    rw [hbefore.2] at hmem
    exact absurd hmem List.not_mem_nil
  have hread : EveryStep RingWorld.step RingWorld.Careful start (actions.take 11) :=
    ⟨trivial, trivial, trivial, trivial, trivial, trivial, trivial, trivial, trivial, trivial,
      trivial, trivial⟩
  exact hread.append ⟨hwritten, trivial, trivial, trivial, trivial⟩

theorem length_flushData_le {frames : List Bytes} {frame : Bytes} (h : frame ∈ frames) :
    frame.length + 4 ≤ (flushData frames).length := by
  have hinside : u32Bytes frame.length ++ frame <:+: flushData frames :=
    List.infix_of_mem_flatten (List.mem_map_of_mem h)
  have hlength := hinside.length_le
  rw [List.length_append] at hlength
  change 4 + frame.length ≤ _ at hlength
  omega

/-- A first attempt hands over a short chunk, which is uploaded. The retry writes the chunk
longer, its recording is known and skipped, and the ring is advanced over the new frame. -/
theorem not_ringAdvancesSafe :
    ¬∀ (readSeq : ℕ) (ring : List RingRecord) (sync : LocalSync) (hasLocalSync : Bool)
      (actions : List RingAction),
      let world := actions.foldl RingWorld.step (.start readSeq ring sync hasLocalSync)
      ∀ advance ∈ world.advances, advance.Safe world.readSeq world.ring := by
  intro h
  let first := loneFrame [7] (by decide)
  let second := loneFrame [8, 9] (by decide)
  let actions : List RingAction :=
    [.syncRing ringWal true, .data 444 0, .closed, .settle, .flush .written, .settle,
      .uploadRead 0, .uploadFinished 0 .uploaded, .recorded [second],
      .syncRing ringWal true, .data 888 0, .done 0, .settle, .flush .written, .settle]
  let uploaded : LocalWal :=
    { timerStart := 5, codec := .opus, seconds := 0, device := "omi", status := .uploaded,
      storage := .disk, totalFrames := 1, filePath := "audio_omi_opus_16000_1_fs160_5.bin" }
  let phone : Phone :=
    { sync := ⟨[uploaded], [(uploaded.filePath, flushData [[7], [8, 9]])]⟩
      uploaded := [flushData [[7]]] }
  have hadvances : (actions.foldl RingWorld.step (.start 0 [first] {} true)).advances =
      [⟨2, phone⟩] := by decide +kernel
  have hring : (actions.foldl RingWorld.step (.start 0 [first] {} true)).ring =
      [first, second] := by decide +kernel
  have hframes : [first, second].flatMap (fun record => recordFrames record.bytes) =
      [[7], [8, 9]] := by decide +kernel
  have hsafe := h 0 [first] {} true actions ⟨2, phone⟩ (by rw [hadvances]; simp)
  rw [hring] at hsafe
  obtain ⟨count, chunks, hseq, -, hflatten, hkept⟩ := hsafe
  obtain rfl : count = 2 := by
    have hstart : (actions.foldl RingWorld.step (.start 0 [first] {} true)).readSeq = 0 := by
      decide +kernel
    rw [hstart] at hseq
    change 2 = 0 + count at hseq
    omega
  have hchunks : chunks.flatten = [[7], [8, 9]] := hflatten.trans hframes
  have hnew : [8, 9] ∈ chunks.flatten := by simp [hchunks]
  obtain ⟨chunk, hmem, hframe⟩ := List.mem_flatten.1 hnew
  obtain ⟨path, ⟨index, -, ⟨⟨wal, hat, hmiss, -⟩, -⟩, -⟩ | ⟨content, hcontent, hholds⟩⟩ :=
    hkept chunk hmem
  · -- The only recording is not pending any more.
    obtain ⟨hindex, hwal⟩ := List.getElem?_eq_some_iff.1 hat
    obtain rfl : index = 0 := Nat.lt_one_iff.1 hindex
    obtain rfl : uploaded = wal := hwal
    cases hmiss
  · -- What was uploaded is too short.
    obtain rfl : content = flushData [[7]] := List.mem_singleton.1 hcontent
    obtain ⟨all, hall, hinside⟩ := hholds
    have hlength := length_flushData_le (hinside.subset hframe)
    rw [← hall] at hlength
    exact absurd hlength (by decide)

end Omi.Wals
