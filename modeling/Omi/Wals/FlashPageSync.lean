import Omi.Foundation.Runs
import Omi.Wals.LocalSync

/-! The foreground download of Limitless flash pages: `_syncWal` of `flash_page_wal_sync.dart`
and the extraction it polls (`limitless_connection.dart`). -/
namespace Omi.Wals
open Omi.Foundation

/-! ### Extraction -/

/-- A completed flash page. A diagnostic page has no frames. -/
structure FlashPage where
  opusFrames : List Bytes
  timestampMs : ℤ
  index : Option ℕ
  deriving DecidableEq, Repr

/-- What the loop reads of an extraction. -/
structure PageData where
  opusFrames : List Bytes
  timestampMs : ℕ
  maxIndex : Option ℕ
  deriving DecidableEq, Repr

/-- Milliseconds before 2020 are no timestamp. -/
def validTimestamp (timestampMs : ℤ) : Option ℕ :=
  if 1577836800000 < timestampMs then some timestampMs.toNat else none

def highestIndex : Option ℕ → Option ℕ → Option ℕ
  | none, index => index
  | highest, none => highest
  | some highest, some index => some (max highest index)

/-- `extractFramesWithSessionInfo` in batch mode takes all completed pages. -/
def extractFramesWithSessionInfo (completedFlashPages : List FlashPage)
    (firstFlashPageTimestampMs : Option ℕ) (now : ℕ) : Option PageData :=
  if completedFlashPages = [] then none
  else
    let timestampMs := completedFlashPages.findSome? fun page => validTimestamp page.timestampMs
    some
      { opusFrames := completedFlashPages.flatMap FlashPage.opusFrames
        timestampMs := (timestampMs.or firstFlashPageTimestampMs).getD now
        maxIndex := (completedFlashPages.map FlashPage.index).foldl highestIndex none }

/-! ### Saving a batch -/

/-- How a save goes: the file is written and handed over; the write fails, perhaps with the
file begun; or the list of recordings cannot be stored after the recording was added. -/
inductive SaveAnswer where
  | written (random : ℕ)
  | writeFailed (random : ℕ) (begun : Option ℕ)
  | registerFailed (random : ℕ)
  deriving DecidableEq, Repr

/-- What a sync has done, oldest first. -/
inductive FlashEvent where
  | received (page : FlashPage)
  /-- The recording was added to the list as one to upload, its file just written. -/
  | registered (wal : LocalWal) (file : Bytes)
  | acknowledged (index : ℕ)
  deriving DecidableEq, Repr

inductive DrainPhase where
  | draining
  | drained
  | returned (completed : Bool)
  deriving DecidableEq, Repr

/-- The variables of `_syncWal`. -/
structure FlashDrain where
  wal : Wal
  sync : LocalSync
  /-- `_localSync` is set. -/
  hasLocalSync : Bool
  lastProcessedIndex : Option ℕ := none
  emptyExtractions : ℕ := 0
  accumulatedFrames : List Bytes := []
  batchMinTimestamp : Option ℕ := none
  lastSaveTime : ℕ := 0
  phase : DrainPhase := .draining
  log : List FlashEvent := []
  deriving DecidableEq, Repr

def batchFileName (random timestampMs : ℕ) : String :=
  s!"audio_limitless_opus_16000_1_fs320_r{random}_{timestampMs}.bin"

/-- The recording of a batch, in whole seconds of 50 frames. -/
def batchWal (fileName : String) (timestampMs frameCount : ℕ) (sourceWal : Wal) : LocalWal where
  timerStart := timestampMs / 1000
  codec := .opus
  seconds := max 1 ((frameCount + 49) / 50)
  device := sourceWal.device
  status := .miss
  storage := .disk
  totalFrames := frameCount
  filePath := fileName

namespace FlashDrain

/-- A sync that starts at a time. -/
def start (wal : Wal) (sync : LocalSync) (hasLocalSync : Bool) (now : ℕ) : FlashDrain :=
  { wal := wal, sync := sync, hasLocalSync := hasLocalSync, lastSaveTime := now }

/-- `_registerChunkWithLocalSync`: without a local sync, or with a known id, nothing happens. -/
def registerChunk (drain : FlashDrain) (fileName : String) (timestampMs : ℕ) (file : Bytes) :
    FlashDrain :=
  if drain.hasLocalSync then
    let wal := batchWal fileName timestampMs drain.accumulatedFrames.length drain.wal
    { drain with
      sync := drain.sync.addExternalWal wal
      log :=
        if drain.sync.Knows wal.id then drain.log
        else drain.log ++ [FlashEvent.registered wal file] }
  else drain

def writeFile (drain : FlashDrain) (fileName : String) (file : Bytes) : FlashDrain :=
  { drain with sync := drain.sync.writeFile fileName file }

/-- The start of the batch. -/
def batchTimestamp (drain : FlashDrain) (now : ℕ) : ℕ := drain.batchMinTimestamp.getD now

/-- `_saveBatchToFile` of the accumulated frames: whether it returns a path. -/
def saveBatchToFile (drain : FlashDrain) (now : ℕ) (answer : SaveAnswer) : FlashDrain × Bool :=
  let timestampMs := drain.batchTimestamp now
  let file := flushData drain.accumulatedFrames
  match answer with
  | .written random =>
    let fileName := batchFileName random timestampMs
    ((drain.writeFile fileName file).registerChunk fileName timestampMs file, true)
  | .writeFailed random begun =>
    match begun with
    | none => (drain, false)
    | some written =>
      (drain.writeFile (batchFileName random timestampMs) (file.take written), false)
  | .registerFailed random =>
    let fileName := batchFileName random timestampMs
    ((drain.writeFile fileName file).registerChunk fileName timestampMs file, false)

/-- `acknowledgeProcessedData(lastProcessedIndex)`, if there is one. -/
def acknowledge (drain : FlashDrain) : FlashDrain :=
  match drain.lastProcessedIndex with
  | none => drain
  | some index => { drain with log := drain.log ++ [FlashEvent.acknowledged index] }

/-! ### The loop -/

/-- `_persistBatchDuration`, in milliseconds. -/
def persistBatchDuration : ℕ := 90000

def sessionGapThresholdMs : ℕ := 120000

def maxEmptyExtractions : ℕ := 60

/-- What one turn of the loop meets: the pages completed since the last, the clock, how a save
of the batch goes, whether a cancellation is requested and how the save before it goes. -/
structure Turn where
  pages : List FlashPage
  firstFlashPageTimestampMs : Option ℕ := none
  now : ℕ
  savedAt : ℕ := 0
  save : SaveAnswer := .writeFailed 0 none
  cancelRequested : Bool := false
  cancelSave : SaveAnswer := .writeFailed 0 none
  deriving DecidableEq, Repr

def Turn.extraction (turn : Turn) : Option PageData :=
  extractFramesWithSessionInfo turn.pages turn.firstFlashPageTimestampMs turn.now

/-- The extracted frames start a new session. -/
def SessionGap (drain : FlashDrain) (data : PageData) : Prop :=
  drain.accumulatedFrames ≠ [] ∧
    ∃ batchMin ∈ drain.batchMinTimestamp,
      sessionGapThresholdMs < ((data.timestampMs : ℤ) - batchMin).natAbs

instance (drain : FlashDrain) (data : PageData) : Decidable (drain.SessionGap data) := by
  unfold SessionGap
  infer_instance

/-- The first part of the body: the extraction is taken in. Frames behind a session gap come
back as pending, with their timestamp. -/
def takeIn (drain : FlashDrain) (turn : Turn) : FlashDrain × Option (List Bytes × ℕ) :=
  let received := { drain with log := drain.log ++ turn.pages.map FlashEvent.received }
  match turn.extraction with
  | none => ({ received with emptyExtractions := drain.emptyExtractions + 1 }, none)
  | some data =>
    let indexed :=
      { received with
        emptyExtractions := 0
        lastProcessedIndex := highestIndex drain.lastProcessedIndex data.maxIndex }
    if data.opusFrames = [] then (indexed, none)
    else if drain.SessionGap data then (indexed, some (data.opusFrames, data.timestampMs))
    else
      ({ indexed with
          batchMinTimestamp := some (match drain.batchMinTimestamp with
            | none => data.timestampMs
            | some batchMin => min batchMin data.timestampMs)
          accumulatedFrames := drain.accumulatedFrames ++ data.opusFrames }, none)

/-- Whether the batch has waited long enough. -/
def due (drain : FlashDrain) (now : ℕ) : Bool := drain.lastSaveTime + persistBatchDuration ≤ now

/-- The save of a batch, its acknowledgement, and what was pending as the next batch. -/
def persist (drain : FlashDrain) (turn : Turn) (pending : Option (List Bytes × ℕ)) :
    FlashDrain :=
  let (saved, ok) := drain.saveBatchToFile turn.now turn.save
  let acknowledged := if ok then saved.acknowledge else saved
  { acknowledged with
    accumulatedFrames := (pending.map Prod.fst).getD []
    batchMinTimestamp := pending.map Prod.snd
    lastSaveTime := turn.savedAt }

/-- The second part: the batch is saved where it is due or a session ends; where nothing
waits, diagnostic pages are acknowledged. -/
def persistDue (drain : FlashDrain) (turn : Turn) (pending : Option (List Bytes × ℕ)) :
    FlashDrain :=
  if drain.accumulatedFrames = [] then
    if turn.pages ≠ [] && drain.lastProcessedIndex.isSome && drain.due turn.now then
      { drain.acknowledge with lastSaveTime := turn.now }
    else drain
  else if pending.isSome || drain.due turn.now then drain.persist turn pending
  else drain

/-- The newest page was reached, or nothing came for too long. -/
def syncComplete (drain : FlashDrain) : Bool :=
  drain.lastProcessedIndex.any (drain.wal.storageTotalBytes ≤ ·) ||
    maxEmptyExtractions ≤ drain.emptyExtractions

/-- The next sync starts behind the last page processed. -/
def resumeBehind (drain : FlashDrain) : FlashDrain :=
  match drain.lastProcessedIndex with
  | none => drain
  | some index => { drain with wal := { drain.wal with storageOffset := index + 1 } }

/-- A cancellation: what waits is saved, and the processed pages are acknowledged. -/
def cancel (drain : FlashDrain) (turn : Turn) : FlashDrain :=
  let saved :=
    if drain.accumulatedFrames = [] then drain
    else { (drain.saveBatchToFile turn.savedAt turn.cancelSave).1 with accumulatedFrames := [] }
  { saved.acknowledge.resumeBehind with phase := .returned false }

/-- One turn of the loop. -/
def turn (drain : FlashDrain) (turn : Turn) : FlashDrain :=
  let (taken, pending) := drain.takeIn turn
  let persisted := taken.persistDue turn pending
  if turn.cancelRequested then persisted.cancel turn
  else if persisted.syncComplete then { persisted with phase := .drained }
  else persisted

/-- What waits after the loop is saved, and acknowledged where the save went well. -/
def saveRest (drain : FlashDrain) (now : ℕ) (answer : SaveAnswer) : FlashDrain :=
  if drain.accumulatedFrames = [] then drain
  else
    let (saved, ok) := drain.saveBatchToFile now answer
    if ok then saved.acknowledge else saved

/-- After the loop the processed pages are acknowledged in any case, before the device goes
back to real time. -/
def finish (drain : FlashDrain) (now : ℕ) (answer : SaveAnswer) : FlashDrain :=
  let acknowledged := (drain.saveRest now answer).acknowledge
  if acknowledged.lastProcessedIndex.any (drain.wal.storageTotalBytes ≤ ·) then
    { acknowledged with phase := .returned true }
  else { acknowledged.resumeBehind with phase := .returned false }

end FlashDrain

/-- What happens to a sync: turns of its loop, its end, an exception, and whatever else changes
the phone's recordings meanwhile. -/
inductive FlashAction where
  | turn (turn : FlashDrain.Turn)
  | finish (now : ℕ) (save : SaveAnswer)
  | fail
  | others (wals : List LocalWal)
  deriving DecidableEq, Repr

/-- One step. A sync that has returned does nothing more. -/
def FlashDrain.step (drain : FlashDrain) : FlashAction → FlashDrain
  | .turn turn => if drain.phase = .draining then drain.turn turn else drain
  | .finish now save => if drain.phase = .drained then drain.finish now save else drain
  | .fail =>
    match drain.phase with
    | .returned _ => drain
    | _ => { drain with phase := .returned false }
  | .others wals =>
    { drain with sync := { drain.sync with wals := wals } }

end Omi.Wals
