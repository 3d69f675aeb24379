import Omi.Foundation.Table
import Omi.Wals.FrameFile
import Omi.Wals.Wal

/-! The phone's own recordings and their files, as far as the device syncs hand them over
(`local_wal_sync.dart`). -/
namespace Omi.Wals
open Omi.Foundation

/-- A recording on the phone, with the name of its file. -/
structure LocalWal extends Wal where
  filePath : String
  deriving DecidableEq, Repr

structure LocalSync where
  wals : List LocalWal := []
  files : Table Bytes := []
  deriving DecidableEq, Repr

namespace LocalSync

/-- The list already has a recording of this id. -/
def Knows (sync : LocalSync) (id : String × ℕ) : Prop := ∃ wal ∈ sync.wals, wal.id = id

instance (sync : LocalSync) (id : String × ℕ) : Decidable (sync.Knows id) :=
  inferInstanceAs (Decidable (∃ wal ∈ sync.wals, wal.id = id))

/-- A recording whose id is known is skipped. -/
def addExternalWal (sync : LocalSync) (wal : LocalWal) : LocalSync :=
  if sync.Knows wal.id then sync else { sync with wals := sync.wals ++ [wal] }

def writeFile (sync : LocalSync) (path : String) (data : Bytes) : LocalSync :=
  { sync with files := sync.files.set path data }

variable {sync : LocalSync}

/-- A recording added to the list leaves the others in their places. -/
theorem getElem?_addExternalWal {index : ℕ} {wal old : LocalWal}
    (h : sync.wals[index]? = some old) : (sync.addExternalWal wal).wals[index]? = some old := by
  unfold addExternalWal
  split_ifs
  · exact h
  · have hlength : index < sync.wals.length := (List.getElem?_eq_some_iff.1 h).1
    rw [← h]
    exact List.getElem?_append_left hlength

theorem length_addExternalWal (sync : LocalSync) (wal : LocalWal) :
    sync.wals.length ≤ (sync.addExternalWal wal).wals.length := by
  unfold addExternalWal
  split_ifs <;> simp

theorem files_addExternalWal (sync : LocalSync) (wal : LocalWal) :
    (sync.addExternalWal wal).files = sync.files := by
  unfold addExternalWal
  split_ifs <;> rfl

end LocalSync

/-! ### Chunks from a device -/

/-- The recording of a chunk that was read from a device. -/
def Wal.chunkWal (wal : Wal) (timerStart frameCount : ℕ) : LocalWal where
  timerStart := timerStart
  codec := wal.codec
  channel := wal.channel
  sampleRate := wal.sampleRate
  seconds := frameCount / wal.codec.getFramesPerSecond
  device := wal.device
  status := .miss
  storage := .disk
  totalFrames := frameCount
  filePath := wal.getFileNameByTimeStarts timerStart

/-- How a flush goes: the file is written and handed over; the write fails, perhaps with the
file begun; or the list of recordings cannot be stored after the recording was added. -/
inductive FlushAnswer where
  | written
  | writeFailed (begun : Option ℕ)
  | registerFailed
  deriving DecidableEq, Repr

namespace LocalSync

/-- `_flushToDisk` and `_registerWithLocalSync`: the file of a chunk and, where `_localSync` is
set, its recording. -/
def register (sync : LocalSync) (hasLocalSync : Bool) (wal : Wal) (timerStart : ℕ)
    (frames : List Bytes) : LocalSync :=
  let written := sync.writeFile (wal.getFileNameByTimeStarts timerStart) (flushData frames)
  if hasLocalSync then written.addExternalWal (wal.chunkWal timerStart frames.length) else written

/-- A write that fails half way. -/
def beginFile (sync : LocalSync) (wal : Wal) (timerStart : ℕ) (frames : List Bytes) :
    Option ℕ → LocalSync
  | none => sync
  | some begun =>
    sync.writeFile (wal.getFileNameByTimeStarts timerStart) ((flushData frames).take begun)

section register
variable {sync : LocalSync} (hasLocalSync : Bool) (wal : Wal) (timerStart : ℕ)
  (frames : List Bytes)

theorem getElem?_register {index : ℕ} {old : LocalWal} (h : sync.wals[index]? = some old) :
    (sync.register hasLocalSync wal timerStart frames).wals[index]? = some old := by
  unfold register
  dsimp only
  split_ifs
  · exact getElem?_addExternalWal h
  · exact h

theorem length_register (sync : LocalSync) :
    sync.wals.length ≤ (sync.register hasLocalSync wal timerStart frames).wals.length := by
  unfold register
  dsimp only
  split_ifs
  · exact length_addExternalWal (sync.writeFile _ _) _
  · exact le_rfl

theorem files_register (path : String) :
    (sync.register hasLocalSync wal timerStart frames).files.get path =
      if path = wal.getFileNameByTimeStarts timerStart then some (flushData frames)
      else sync.files.get path := by
  unfold register
  dsimp only
  split_ifs <;> simp_all [files_addExternalWal, writeFile]

/-- A recording that is not known yet is added at the end. -/
theorem wals_register (h : ¬sync.Knows (wal.device, timerStart)) :
    (sync.register true wal timerStart frames).wals =
      sync.wals ++ [wal.chunkWal timerStart frames.length] := by
  have hunknown (path : String) (data : Bytes) :
      ¬(sync.writeFile path data).Knows (wal.chunkWal timerStart frames.length).id := h
  simp only [register, if_true, addExternalWal]
  rw [if_neg (hunknown _ _)]
  rfl

end register

end LocalSync

/-! ### The phone -/

/-- The phone's recordings, what running uploads have read of them, and what was uploaded. A
recording is known by its place in the list. -/
structure Phone where
  sync : LocalSync := {}
  inFlight : List (ℕ × Bytes) := []
  uploaded : List Bytes := []
  deriving DecidableEq, Repr

/-- How an upload ends: not at all, accepted for later, or processed at once. -/
inductive UploadAnswer where
  | failed
  | uploaded
  | synced
  deriving DecidableEq, Repr

namespace Phone

/-- A recording waits to be uploaded from this file, and no upload of it runs. -/
def Awaits (phone : Phone) (path : String) : Prop :=
  ∃ entry ∈ phone.sync.wals.zipIdx, entry.1.status = .miss ∧ entry.1.storage = .disk ∧
    entry.1.filePath = path ∧ ∀ read ∈ phone.inFlight, read.1 ≠ entry.2

instance (phone : Phone) (path : String) : Decidable (phone.Awaits path) :=
  inferInstanceAs (Decidable (∃ entry ∈ phone.sync.wals.zipIdx, _ ∧ _ ∧ _ ∧ ∀ read ∈ _, _))

def setStatus (phone : Phone) (index : ℕ) (status : WalStatus) : Phone :=
  { phone with
    sync := { phone.sync with
      wals := phone.sync.wals.modify index fun wal => { wal with status := status } } }

/-- An upload reads the file of a pending recording, which is corrupted if it is not there. -/
def uploadRead (phone : Phone) (index : ℕ) : Phone :=
  match phone.sync.wals[index]? with
  | none => phone
  | some wal =>
    if wal.status = .miss && wal.storage = .disk then
      match phone.sync.files.get wal.filePath with
      | none => phone.setStatus index .corrupted
      | some content =>
        { phone with
          inFlight := (index, content) :: phone.inFlight.filter fun entry => entry.1 ≠ index }
    else phone

/-- The upload is over. -/
def uploadFinished (phone : Phone) (index : ℕ) (answer : UploadAnswer) : Phone :=
  match phone.inFlight.find? fun entry => entry.1 = index with
  | none => phone
  | some (_, content) =>
    let ended := { phone with inFlight := phone.inFlight.filter fun entry => entry.1 ≠ index }
    match answer with
    | .failed => ended
    | .uploaded => { ended.setStatus index .uploaded with uploaded := phone.uploaded ++ [content] }
    | .synced => { ended.setStatus index .synced with uploaded := phone.uploaded ++ [content] }

end Phone

end Omi.Wals
