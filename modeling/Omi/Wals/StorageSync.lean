import Mathlib.Data.List.Sort
import Omi.Wals.FrameFile
import Omi.Wals.LocalSync

/-! Offline sync with multi-file firmware (`storage_sync.dart`): discovery, `syncAll` and the
deletes, against a device whose file indices shift down when a lower one is deleted. What is read
is handed to the phone chunk by chunk, while the phone's own recordings come and go. -/
namespace Omi.Wals

/-! ### The device -/

/-- A file of the device's storage. `stream` is what the firmware notifies when the file is
read from its start. -/
structure StorageFile where
  key : ℕ
  timestamp : ℕ
  sizeBytes : ℕ
  stream : List Bytes
  deriving DecidableEq, Repr

def fileAt (files : List StorageFile) (index : ℤ) : Option StorageFile :=
  if 0 ≤ index then files[index.toNat]? else none

/-- How a delete command ends: done, refused, or with an exception. -/
inductive DeleteAnswer where
  | deleted
  | refused
  | threw
  deriving DecidableEq, Repr

/-- The files after a delete command and what `deleteStorageFile` returns, `none` for an
exception. -/
def deleteFile (files : List StorageFile) (index : ℤ) : DeleteAnswer →
    List StorageFile × Option Bool
  | .threw => (files, none)
  | .refused => (files, some false)
  | .deleted =>
    match fileAt files index with
    | none => (files, some false)
    | some _ => (files.eraseIdx index.toNat, some true)

/-! ### The transfer of one file -/

/-- What the notification handler has received. -/
structure Transfer where
  offset : ℕ
  frames : List Bytes := []
  done : Bool := false
  deriving DecidableEq, Repr

/-- The frames of one block: each behind its size, zeros skipped, a frame that reaches the end
left out. -/
def unpack : ℕ → Bytes → List Bytes
  | 0, _ => []
  | _ + 1, [] => []
  | fuel + 1, size :: rest =>
    if rest = [] then []
    else if size = 0 then unpack fuel rest
    else if rest.length ≤ size.toNat then []
    else rest.take size.toNat :: unpack fuel (rest.drop size.toNat)

/-- Padding holds no frame. -/
theorem unpack_replicate_zero (fuel count : ℕ) :
    unpack fuel (List.replicate count 0) = [] := by
  induction fuel generalizing count with
  | zero => rfl
  | succ fuel ih =>
    cases count with
    | zero => rfl
    | succ count =>
      rw [List.replicate_succ, unpack]
      simp [ih]

/-- A data notification: four bytes of timestamp, then a block of audio. -/
def Transfer.receiveData (transfer : Transfer) (value : Bytes) : Transfer :=
  if 4 < value.length then
    let audio := value.drop 4
    { transfer with
      frames := transfer.frames ++ unpack audio.length audio
      offset := transfer.offset + audio.length }
  else transfer

/-- `onStorageBytesReceived`. Of the status bytes, 0 acknowledges and 3 is only logged; any
other ends the transfer. -/
def Transfer.receive (totalBytes : ℕ) (transfer : Transfer) (value : Bytes) : Transfer :=
  if value = [] ∨ transfer.done then transfer
  else
    match value with
    | [status] => if status = 0 ∨ status = 3 then transfer else { transfer with done := true }
    | value =>
      let next := transfer.receiveData value
      if totalBytes ≤ next.offset then { next with done := true } else next

/-- Whole chunks first, then what is left. -/
def splitFrames (chunkSize : ℕ) : ℕ → List Bytes → List (List Bytes)
  | 0, _ => []
  | fuel + 1, frames =>
    if frames = [] then []
    else if chunkSize ≤ frames.length then
      frames.take chunkSize :: splitFrames chunkSize fuel (frames.drop chunkSize)
    else [frames]

/-- The chunks with their start times. -/
def chunkTimes (framesPerSecond : ℕ) : ℕ → List (List Bytes) → List (ℕ × List Bytes)
  | _, [] => []
  | timerStart, chunk :: rest =>
    (timerStart, chunk) ::
      chunkTimes framesPerSecond (timerStart + chunk.length / framesPerSecond) rest

/-- A recording of `_wals`, with the file it was listed for. -/
structure StorageWal extends Wal where
  file : ℕ
  deriving DecidableEq, Repr

/-- The chunks that `_syncSingleFile` writes and registers. A recording without a start time
gets one that ends now. -/
def StorageWal.chunks (wal : StorageWal) (now : ℕ) (frames : List Bytes) :
    List (ℕ × List Bytes) :=
  let framesPerSecond := wal.codec.getFramesPerSecond
  let timerStart :=
    if 0 < wal.timerStart then wal.timerStart else now - frames.length / framesPerSecond
  chunkTimes framesPerSecond timerStart
    (splitFrames (sdcardChunkSizeSecs * framesPerSecond) frames.length frames)

/-- The sorts by start time and by descending file number, which need not be stable. -/
structure StorageSorts where
  oldestFirst : List StorageWal → List StorageWal
  oldestFirst_perm : ∀ wals, (oldestFirst wals).Perm wals
  ascending : ∀ wals, (oldestFirst wals).Pairwise fun a b => a.timerStart ≤ b.timerStart
  highestFirst : List StorageWal → List StorageWal
  highestFirst_perm : ∀ wals, (highestFirst wals).Perm wals
  descending : ∀ wals, (highestFirst wals).Pairwise fun a b => b.fileNum ≤ a.fileNum

/-! ### The state -/

/-- A chunk that was written on the phone: the recording it was downloaded for, the file its audio
came from, whether the phone took it over, and the phone's recordings then. -/
structure SavedChunk where
  wal : StorageWal
  source : Option StorageFile
  timerStart : ℕ
  frames : List Bytes
  taken : Bool
  phone : LocalSync
  deriving DecidableEq, Repr

/-- A command as it was sent: for which recording, against which files, with which files
completely transferred and registered by then, and which file it removed. -/
structure StorageCommand where
  wal : StorageWal
  files : List StorageFile
  transferred : List ℕ
  removed : Option ℕ := none
  deriving DecidableEq, Repr

/-- The recordings a running `syncAll` took up, and those still to come. -/
structure SyncCursor where
  all : List ℕ
  rest : List ℕ
  deriving DecidableEq, Repr

/-- A file that has been read and is being saved: how far the transfer came, its chunks, and those
not yet written. -/
structure StorageSave where
  wal : StorageWal
  source : Option StorageFile
  offset : ℕ
  chunks : List (ℕ × List Bytes)
  left : List (ℕ × List Bytes)
  deriving DecidableEq, Repr

/-- `transferComplete`. -/
def StorageSave.Complete (save : StorageSave) : Prop := save.wal.storageTotalBytes ≤ save.offset

instance (save : StorageSave) : Decidable save.Complete :=
  inferInstanceAs (Decidable (save.wal.storageTotalBytes ≤ save.offset))

/-- `hasLocalSync` says that `_localSync` is set. -/
structure StorageWorld where
  files : List StorageFile := []
  nextKey : ℕ := 0
  wals : List StorageWal := []
  hasLocalSync : Bool := false
  phone : Phone := {}
  syncing : Option SyncCursor := none
  saving : Option StorageSave := none
  saved : List SavedChunk := []
  transferred : List ℕ := []
  commands : List StorageCommand := []
  deriving DecidableEq, Repr

namespace StorageWorld

/-- A new recording comes last. -/
def record (world : StorageWorld) (timestamp sizeBytes : ℕ) (stream : List Bytes) :
    StorageWorld :=
  { world with
    files := world.files ++ [⟨world.nextKey, timestamp, sizeBytes, stream⟩]
    nextKey := world.nextKey + 1 }

/-- `other.fileNum -= 1` for the recordings above a deleted file that `shifts` picks. -/
def shiftAbove (world : StorageWorld) (shifts : StorageWal → Bool) (fileNum : ℤ) :
    StorageWorld :=
  { world with
    wals := world.wals.map fun other =>
      if shifts other && fileNum < other.fileNum then { other with fileNum := other.fileNum - 1 }
      else other }

/-- Send CMD_DELETE_FILE for a recording. -/
def deleteStorageFile (world : StorageWorld) (wal : StorageWal) (answer : DeleteAnswer) :
    StorageWorld × Option Bool :=
  let (files, reply) := deleteFile world.files wal.fileNum answer
  let removed :=
    if reply = some true then (fileAt world.files wal.fileNum).map StorageFile.key else none
  let command := ⟨wal, world.files, world.transferred, removed⟩
  ({ world with files := files, commands := world.commands ++ [command] }, reply)

/-! ### Discovery -/

/-- How a discovery ends: it gives up, finds nothing, or lists the files. -/
inductive Discovery where
  | failed
  | empty
  | listed (codec : BleAudioCodec)
  deriving DecidableEq, Repr

/-- The recording of a listed file; empty and short files are left out. -/
def listedWal (device : String) (codec : BleAudioCodec) (file : StorageFile) (index : ℕ) :
    Option StorageWal :=
  let framesPerSecond := codec.getFramesPerSecond
  let seconds := file.sizeBytes / codec.getFramesLengthInBytes / framesPerSecond
  if file.sizeBytes = 0 ∨ seconds < 10 then none
  else some
    { timerStart := file.timestamp
      codec := codec
      seconds := seconds
      device := device
      status := .miss
      storage := .sdcard
      storageTotalBytes := file.sizeBytes
      fileNum := index
      totalFrames := seconds * framesPerSecond
      file := file.key }

/-- `refreshWalsFromDevice`; it is skipped while a sync runs. -/
def refreshWalsFromDevice (sorts : StorageSorts) (world : StorageWorld) (device : String)
    (answer : Discovery) : StorageWorld :=
  if world.syncing.isSome then world
  else
    match answer with
    | .failed => world
    | .empty => { world with wals := [] }
    | .listed codec =>
      let listed := world.files.zipIdx.filterMap fun (file, index) =>
        listedWal device codec file index
      { world with wals := sorts.oldestFirst listed }

/-! ### Sync -/

/-- How the loop of `syncAll` takes up a recording. The loop ends if it is cancelled, the read
fails or no device is set; a read delivers so many notifications. -/
inductive FileOutcome where
  | cancelled
  | failed
  | unplugged
  | read (delivered now : ℕ)
  deriving DecidableEq, Repr

/-- `syncAll` takes up the pending recordings, oldest first. -/
def syncAll (sorts : StorageSorts) (world : StorageWorld) : StorageWorld :=
  let wals := sorts.oldestFirst (world.wals.filter fun wal =>
    wal.status = .miss && wal.storage = .sdcard)
  if wals = [] then world
  else
    let files := wals.map StorageWal.file
    { world with syncing := some ⟨files, files⟩, saving := none }

/-- `_syncSingleFile` up to the end of the transfer. -/
def readFile (world : StorageWorld) (wal : StorageWal) (delivered now : ℕ) : StorageWorld :=
  let source := fileAt world.files wal.fileNum
  let stream := (source.elim [] StorageFile.stream).take delivered
  let transfer := stream.foldl (Transfer.receive wal.storageTotalBytes)
    { offset := wal.storageOffset }
  let chunks := wal.chunks now transfer.frames
  { world with
    commands := world.commands ++ [⟨wal, world.files, world.transferred, none⟩]
    saving := some ⟨wal, source, transfer.offset, chunks, chunks⟩ }

def markSynced (world : StorageWorld) (file : ℕ) : StorageWorld :=
  { world with
    wals := world.wals.map fun wal =>
      if wal.file = file then { wal with status := .synced } else wal }

/-- The next turn of the loop of `syncAll`, up to the end of the transfer. -/
def syncNext (world : StorageWorld) (outcome : FileOutcome) : StorageWorld :=
  if world.saving.isSome then world
  else
    match world.syncing with
    | none => world
    | some cursor =>
      match cursor.rest with
      | [] => { world with syncing := none }
      | file :: _ =>
        match world.wals.find? fun wal => wal.file = file with
        | none => { world with syncing := none }
        | some wal =>
          match outcome with
          | .cancelled => { world with syncing := none }
          | .failed => { world with syncing := none }
          | .unplugged => { world.markSynced wal.file with syncing := none }
          | .read delivered now => world.readFile wal delivered now

/-- The phone takes the chunk over: `addExternalWal` adds its recording, or has one that waits
for the same file and is not being uploaded. -/
def Takes (world : StorageWorld) (wal : StorageWal) (timerStart : ℕ) : Prop :=
  world.hasLocalSync ∧ (¬world.phone.sync.Knows (wal.device, timerStart) ∨
    world.phone.Awaits (wal.getFileNameByTimeStarts timerStart))

instance (world : StorageWorld) (wal : StorageWal) (timerStart : ℕ) :
    Decidable (world.Takes wal timerStart) :=
  inferInstanceAs (Decidable (_ ∧ (¬_ ∨ _)))

/-- The chunk was taken over at some time. -/
def Registered (world : StorageWorld) (source : Option StorageFile) (chunk : ℕ × List Bytes) :
    Prop :=
  ∃ old ∈ world.saved, old.taken ∧ old.source = source ∧ (old.timerStart, old.frames) = chunk

instance (world : StorageWorld) (source : Option StorageFile) (chunk : ℕ × List Bytes) :
    Decidable (world.Registered source chunk) :=
  inferInstanceAs (Decidable (∃ old ∈ world.saved, _ ∧ _ ∧ _))

/-- The phone's recordings with the next chunk written and registered. -/
def registerChunk (world : StorageWorld) (save : StorageSave) (chunk : ℕ × List Bytes) :
    LocalSync :=
  world.phone.sync.register world.hasLocalSync save.wal.toWal chunk.1 chunk.2

def writeChunk (world : StorageWorld) (save : StorageSave) (chunk : ℕ × List Bytes)
    (left : List (ℕ × List Bytes)) : StorageWorld :=
  { world with
    phone := { world.phone with sync := world.registerChunk save chunk }
    saved := world.saved ++ [⟨save.wal, save.source, chunk.1, chunk.2,
      world.Takes save.wal chunk.1, world.registerChunk save chunk⟩]
    saving := some { save with left := left } }

/-- An exception ends the sync, with this of the chunk on the phone. -/
def failChunk (world : StorageWorld) (sync : LocalSync) : StorageWorld :=
  { world with phone := { world.phone with sync := sync }, syncing := none, saving := none }

/-- The next chunk is written and registered, or fails to be. -/
def saveChunk (world : StorageWorld) (answer : FlushAnswer) : StorageWorld :=
  match world.saving with
  | none => world
  | some save =>
    match save.left with
    | [] => world
    | chunk :: left =>
      match answer with
      | .written => world.writeChunk save chunk left
      | .writeFailed begun =>
        world.failChunk (world.phone.sync.beginFile save.wal.toWal chunk.1 chunk.2 begun)
      | .registerFailed => world.failChunk (world.registerChunk save chunk)

/-- The delete after a complete transfer. The remaining recordings of the sync shift on any
answer, not only when the file is gone. -/
def deleteAfterSync (world : StorageWorld) (all : List ℕ) (wal : StorageWal)
    (answer : Option DeleteAnswer) : StorageWorld :=
  match answer with
  | none => world
  | some answer =>
    if 0 ≤ wal.fileNum then
      let (next, reply) := world.deleteStorageFile wal answer
      match reply with
      | none => next
      | some _ =>
        next.shiftAbove (fun other => other.file ∈ all && other.file ≠ wal.file) wal.fileNum
    else world

/-- The files completely transferred and registered, once a file has been saved. -/
def transferredWith (world : StorageWorld) (save : StorageSave) : List ℕ :=
  match save.source with
  | none => world.transferred
  | some source =>
    if source.sizeBytes ≤ save.offset ∧ ∀ chunk ∈ save.chunks, world.Registered source chunk then
      world.transferred ++ [source.key]
    else world.transferred

/-- All chunks of the file are written. -/
def fileSaved (world : StorageWorld) (save : StorageSave) : StorageWorld :=
  { world with saving := none, transferred := world.transferredWith save }

/-- The rest of the turn, when all chunks are written. The delete is not sent without a
connection. -/
def finishFile (world : StorageWorld) (answer : Option DeleteAnswer) : StorageWorld :=
  match world.syncing, world.saving with
  | some cursor, some save =>
    if save.left = [] then
      let wal := (world.wals.find? fun wal => wal.file = save.wal.file).getD save.wal
      let marked := (world.fileSaved save).markSynced wal.file
      if save.Complete then
        { marked.deleteAfterSync cursor.all wal answer with
          syncing := some ⟨cursor.all, cursor.rest.tail⟩ }
      else { marked with syncing := none }
    else world
  | _, _ => world

/-! ### Deletes -/

/-- The loop of `_deleteWalsOnDevice`: the other recordings shift when a file is gone. -/
def deleteLoop (deletedIds : List (String × ℕ)) (answer : StorageWal → DeleteAnswer) :
    List StorageWal → StorageWorld → StorageWorld
  | [], world => world
  | wal :: rest, world =>
    let (next, reply) := world.deleteStorageFile wal (answer wal)
    deleteLoop deletedIds answer rest
      (if reply = some true then
        next.shiftAbove (fun other => other.id ∉ deletedIds) wal.fileNum
      else next)

/-- `_deleteWalsOnDevice`: the highest index first. -/
def deleteWalsOnDevice (sorts : StorageSorts) (world : StorageWorld) (wals : List StorageWal)
    (connected : Bool) (answer : StorageWal → DeleteAnswer) : StorageWorld :=
  if connected then
    let targets := sorts.highestFirst (wals.filter fun wal => 0 ≤ wal.fileNum)
    world.deleteLoop (targets.map fun wal => wal.id) answer targets
  else world

def deleteWal (sorts : StorageSorts) (world : StorageWorld) (wal : StorageWal) (connected : Bool)
    (answer : StorageWal → DeleteAnswer) : StorageWorld :=
  let next := world.deleteWalsOnDevice sorts [wal] connected answer
  { next with wals := next.wals.filter fun other => other.id ≠ wal.id }

/-- `deleteAllSyncedWals` and `deleteAllPendingWals`. -/
def deleteAllWals (sorts : StorageSorts) (world : StorageWorld) (status : WalStatus)
    (connected : Bool) (answer : StorageWal → DeleteAnswer) : StorageWorld :=
  let targets := world.wals.filter fun wal => wal.status = status
  let next := world.deleteWalsOnDevice sorts targets connected answer
  { next with wals := next.wals.filter fun other => other.status ≠ status }

def deleteAllSyncedWals (sorts : StorageSorts) (world : StorageWorld) (connected : Bool)
    (answer : StorageWal → DeleteAnswer) : StorageWorld :=
  world.deleteAllWals sorts .synced connected answer

def deleteAllPendingWals (sorts : StorageSorts) (world : StorageWorld) (connected : Bool)
    (answer : StorageWal → DeleteAnswer) : StorageWorld :=
  world.deleteAllWals sorts .miss connected answer

end StorageWorld

/-- What happens to the device, the operations on it, and whatever else happens to the phone's
recordings. -/
inductive StorageAction where
  | recorded (timestamp sizeBytes : ℕ) (stream : List Bytes)
  | setLocalSync
  | phoneChanged (phone : Phone)
  | refreshWalsFromDevice (device : String) (answer : StorageWorld.Discovery)
  | syncAll
  | syncNext (outcome : StorageWorld.FileOutcome)
  | saveChunk (answer : FlushAnswer)
  | finishFile (answer : Option DeleteAnswer)
  | deleteWal (wal : StorageWal) (connected : Bool) (answer : StorageWal → DeleteAnswer)
  | deleteAllSyncedWals (connected : Bool) (answer : StorageWal → DeleteAnswer)
  | deleteAllPendingWals (connected : Bool) (answer : StorageWal → DeleteAnswer)

def StorageWorld.step (sorts : StorageSorts) (world : StorageWorld) : StorageAction → StorageWorld
  | .recorded timestamp sizeBytes stream => world.record timestamp sizeBytes stream
  | .setLocalSync => { world with hasLocalSync := true }
  | .phoneChanged phone => { world with phone := phone }
  | .refreshWalsFromDevice device answer => world.refreshWalsFromDevice sorts device answer
  | .syncAll => world.syncAll sorts
  | .syncNext outcome => world.syncNext outcome
  | .saveChunk answer => world.saveChunk answer
  | .finishFile answer => world.finishFile answer
  | .deleteWal wal connected answer => world.deleteWal sorts wal connected answer
  | .deleteAllSyncedWals connected answer => world.deleteAllSyncedWals sorts connected answer
  | .deleteAllPendingWals connected answer => world.deleteAllPendingWals sorts connected answer

end Omi.Wals
