import Omi.Foundation.Blocks
import Omi.Foundation.Runs
import Omi.Wals.LocalSync
import Omi.Wals.StorageSync

/-! Offline sync with ring firmware (`ring_storage_sync.dart`, `ring_protocol.dart`): attempts
that read the ring from one sequence number on, and the uploads that go on beside them. -/
namespace Omi.Wals
open Omi.Foundation

/-! ### The ring protocol -/

namespace RingProtocol

def recordSize : ℕ := 444

def timestampBytes : ℕ := 4

/-- Big-endian. -/
def readRecordTimestamp : Bytes → ℕ
  | a :: b :: c :: d :: _ =>
    a.toNat * 16777216 + b.toNat * 65536 + c.toNat * 256 + d.toNat
  | _ => 0

/-- The frames of a record's payload: the framing of the multi-file protocol. -/
def parseAudioPayload (audio : Bytes) : List Bytes := unpack audio.length audio

/-- `drainRecords`: the complete records and the bytes that stay buffered. -/
def drainRecords (buffer : Bytes) : List Bytes × Bytes :=
  drainBlocks recordSize buffer.length buffer

end RingProtocol

/-- A record of the device's ring. -/
structure RingRecord where
  bytes : Bytes
  length_bytes : bytes.length = RingProtocol.recordSize
  deriving DecidableEq

/-- The frames of a record. -/
def recordFrames (record : Bytes) : List Bytes :=
  RingProtocol.parseAudioPayload (record.drop RingProtocol.timestampBytes)

/-! ### One attempt -/

/-- A chunk under its start time. -/
structure RingChunk where
  timerStart : ℕ
  frames : List Bytes
  deriving DecidableEq, Repr

/-- A flush that waits for its file: its frames, and whether it belongs to the last flush. -/
structure RingFlush where
  frames : List Bytes
  finalFlush : Bool
  deriving DecidableEq, Repr

/-- The variables of `_syncRing`, the records consumed and the chunks handed over. `sent` is
how much of the ring the device has streamed. -/
structure RingAttempt where
  wal : Wal
  rtcValid : Bool
  sent : ℕ := 0
  buffer : Bytes := []
  bytesData : List Bytes := []
  firstRecordTs : Option ℕ := none
  chunkTimerStart : ℕ := 0
  doneNextSeq : Option ℕ := none
  doneOk : Bool := false
  flushError : Bool := false
  finalFailed : Bool := false
  inFlightFlush : Option RingFlush := none
  completed : Option Bool := none
  isCancelled : Bool := false
  consumed : List Bytes := []
  handed : List RingChunk := []
  deriving DecidableEq, Repr

namespace RingAttempt

def chunkFrames (attempt : RingAttempt) : ℕ :=
  sdcardChunkSizeSecs * attempt.wal.codec.getFramesPerSecond

/-- `completer.complete`; only the first counts. -/
def complete (attempt : RingAttempt) (reachedDone : Bool) : RingAttempt :=
  { attempt with completed := attempt.completed.or (some reachedDone) }

/-- The first record's timestamp starts the first chunk. Without a clock on the device that is
now less the estimated length of what is unread. -/
def anchor (attempt : RingAttempt) (now : ℕ) (record : Bytes) : RingAttempt :=
  match attempt.firstRecordTs with
  | some _ => attempt
  | none =>
    let ts := RingProtocol.readRecordTimestamp record
    let estSecs := attempt.wal.totalFrames / attempt.wal.codec.getFramesPerSecond
    let firstRecordTs := if attempt.rtcValid && 0 < ts then ts else now - estSecs
    { attempt with firstRecordTs := some firstRecordTs, chunkTimerStart := firstRecordTs }

def consume (now : ℕ) (attempt : RingAttempt) (record : Bytes) : RingAttempt :=
  let anchored := attempt.anchor now record
  { anchored with
    bytesData := attempt.bytesData ++ recordFrames record
    consumed := attempt.consumed ++ [record] }

/-- Take the frames of the next chunk into a flush. -/
def takeChunk (attempt : RingAttempt) (finalFlush : Bool) : RingAttempt :=
  { attempt with
    inFlightFlush := some ⟨attempt.bytesData.take attempt.chunkFrames, finalFlush⟩
    bytesData := attempt.bytesData.drop attempt.chunkFrames }

/-- Full chunks are flushed as they come, one flush at a time. -/
def flushFull (attempt : RingAttempt) : RingAttempt :=
  if attempt.inFlightFlush = none && attempt.chunkFrames ≤ attempt.bytesData.length then
    attempt.takeChunk false
  else attempt

/-- A data notification. -/
def receiveData (attempt : RingAttempt) (now : ℕ) (payload : Bytes) : RingAttempt :=
  let drained := RingProtocol.drainRecords (attempt.buffer ++ payload)
  (drained.1.foldl (consume now) { attempt with buffer := drained.2 }).flushFull

/-- What `onStorageBytesReceived` does before it looks at the opcode: nothing after the end, and
a cancelled sync ends here. -/
def notified (attempt : RingAttempt) (handle : RingAttempt → RingAttempt) : RingAttempt :=
  if attempt.completed.isSome then attempt
  else if attempt.isCancelled then attempt.complete false
  else handle attempt

/-- NOTIFY_DONE. -/
def receiveDone (attempt : RingAttempt) (status nextSeq : ℕ) : RingAttempt :=
  { attempt with doneNextSeq := some nextSeq, doneOk := status = 0 }.complete true

/-- A chunk is handed over; a flush that is not the last goes on while a full chunk waits. -/
def flushed (attempt : RingAttempt) (flush : RingFlush) : RingAttempt :=
  let framesPerSecond := attempt.wal.codec.getFramesPerSecond
  let next :=
    { attempt with
      inFlightFlush := none
      chunkTimerStart := attempt.chunkTimerStart + flush.frames.length / framesPerSecond
      handed := attempt.handed ++ [⟨attempt.chunkTimerStart, flush.frames⟩] }
  if flush.finalFlush then next else next.flushFull

/-- A flush fails. Unless it is the last one this ends the transfer. -/
def flushFailed (attempt : RingAttempt) (flush : RingFlush) : RingAttempt :=
  let failed := { attempt with inFlightFlush := none, flushError := true }
  if flush.finalFlush then { failed with finalFailed := true } else failed.complete false

end RingAttempt

/-! ### The world -/

/-- A CMD_RING_ADVANCE, with the phone at the time it was sent. -/
structure RingAdvance where
  nextSeq : ℕ
  phone : Phone
  deriving DecidableEq, Repr

/-- The ring from `readSeq` on, the phone and the attempt that runs. -/
structure RingWorld where
  readSeq : ℕ
  ring : List RingRecord := []
  phone : Phone := {}
  /-- `_localSync` is set. -/
  hasLocalSync : Bool := true
  attempt : Option RingAttempt := none
  advances : List RingAdvance := []
  deriving DecidableEq

namespace RingWorld

/-- Before the first attempt: what the device holds and the phone has recorded. -/
def start (readSeq : ℕ) (ring : List RingRecord) (sync : LocalSync) (hasLocalSync : Bool) :
    RingWorld :=
  { readSeq := readSeq, ring := ring, phone := { sync := sync }, hasLocalSync := hasLocalSync }

/-- Everything unread, as the device streams it. -/
def stream (world : RingWorld) : Bytes := world.ring.flatMap RingRecord.bytes

/-- An attempt starts if there is something to read and none runs. -/
def syncRing (world : RingWorld) (wal : Wal) (rtcValid : Bool) : RingWorld :=
  if world.attempt = none && world.ring ≠ [] then
    { world with attempt := some { wal := wal, rtcValid := rtcValid } }
  else world

def update (world : RingWorld) (change : RingAttempt → RingAttempt) : RingWorld :=
  { world with attempt := world.attempt.map change }

/-- The device streams the next bytes. -/
def data (world : RingWorld) (count now : ℕ) : RingWorld :=
  world.update fun attempt =>
    let payload := (world.stream.drop attempt.sent).take count
    let next := attempt.notified fun attempt => attempt.receiveData now payload
    { next with sent := attempt.sent + payload.length }

/-- The device reports the end of the stream: the sequence behind the last record it sent. -/
def done (world : RingWorld) (status : ℕ) : RingWorld :=
  world.update fun attempt => attempt.notified fun attempt =>
    attempt.receiveDone status (world.readSeq + attempt.sent / RingProtocol.recordSize)

/-- The file of a chunk and its recording. -/
def register (world : RingWorld) (attempt : RingAttempt) (frames : List Bytes) : LocalSync :=
  world.phone.sync.register world.hasLocalSync attempt.wal attempt.chunkTimerStart frames

/-- A write that fails half way. -/
def beginFile (world : RingWorld) (attempt : RingAttempt) (frames : List Bytes)
    (begun : Option ℕ) : LocalSync :=
  world.phone.sync.beginFile attempt.wal attempt.chunkTimerStart frames begun

/-- The chunk in flight is flushed, or fails to be. -/
def flush (world : RingWorld) (answer : FlushAnswer) : RingWorld :=
  match world.attempt with
  | none => world
  | some attempt =>
    match attempt.inFlightFlush with
    | none => world
    | some flush =>
      match answer with
      | .written =>
        { world with
          phone := { world.phone with sync := world.register attempt flush.frames }
          attempt := some (attempt.flushed flush) }
      | .writeFailed begun =>
        { world with
          phone := { world.phone with sync := world.beginFile attempt flush.frames begun }
          attempt := some (attempt.flushFailed flush) }
      | .registerFailed =>
        { world with
          phone := { world.phone with sync := world.register attempt flush.frames }
          attempt := some (attempt.flushFailed flush) }

/-- `advancedOk`, and the sequence to advance to. -/
def advanceTo (attempt : RingAttempt) : Option ℕ :=
  if attempt.completed = some true && attempt.doneOk && !attempt.flushError &&
      !attempt.isCancelled then attempt.doneNextSeq
  else none

/-- After the transfer, once no flush is in flight: the rest is flushed chunk by chunk, then the
ring is advanced if all went well. -/
def settle (world : RingWorld) : RingWorld :=
  match world.attempt with
  | none => world
  | some attempt =>
    if attempt.completed = none || attempt.inFlightFlush.isSome then world
    else if attempt.bytesData ≠ [] && !attempt.finalFailed then
      { world with attempt := some (attempt.takeChunk true) }
    else
      { world with
        attempt := none
        advances := match advanceTo attempt with
          | none => world.advances
          | some nextSeq => world.advances ++ [⟨nextSeq, world.phone⟩] }

end RingWorld

/-- What happens to the device, the attempts and the uploads. `closed` is any end of the
transfer without NOTIFY_DONE, `other` any other notification. -/
inductive RingAction where
  | recorded (records : List RingRecord)
  | syncRing (wal : Wal) (rtcValid : Bool)
  | data (count now : ℕ)
  | done (status : ℕ)
  | other
  | closed
  | cancel
  | flush (answer : FlushAnswer)
  | settle
  | uploadRead (index : ℕ)
  | uploadFinished (index : ℕ) (answer : UploadAnswer)
  deriving DecidableEq

def RingWorld.step (world : RingWorld) : RingAction → RingWorld
  | .recorded records => { world with ring := world.ring ++ records }
  | .syncRing wal rtcValid => world.syncRing wal rtcValid
  | .data count now => world.data count now
  | .done status => world.done status
  | .other => world.update fun attempt => attempt.notified id
  | .closed => world.update fun attempt => attempt.complete false
  | .cancel => world.update fun attempt => { attempt with isCancelled := true }
  | .flush answer => world.flush answer
  | .settle => world.settle
  | .uploadRead index => { world with phone := world.phone.uploadRead index }
  | .uploadFinished index answer =>
    { world with phone := world.phone.uploadFinished index answer }

end Omi.Wals
