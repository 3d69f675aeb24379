import Omi.Foundation.Runs
import Omi.Foundation.Table
import Omi.Wals.FrameFile
import Omi.Wals.Wal

/-! The recording of a session in `local_wal_sync.dart`: captured frames are cut into recordings,
and these are written to files. -/
namespace Omi.Wals
open Omi.Foundation

def newFrameSyncDelaySeconds : ℕ := 15

/-- What stays as it is during a session. -/
structure SessionSettings where
  framesPerSecond : ℕ
  codec : BleAudioCodec
  deviceId : Option String := none
  unlimitedLocalStorageEnabled : Bool := true
  framesPerSecond_pos : 0 < framesPerSecond := by decide

def SessionSettings.device (settings : SessionSettings) : String := settings.deviceId.getD "omi"

/-- A recording of the session, with its frames. -/
structure SessionWal where
  codec : BleAudioCodec
  timerStart : ℤ
  data : List Bytes
  storage : WalStorage := .mem
  status : WalStatus
  device : String
  seconds : ℕ
  totalFrames : ℕ
  syncedFrameOffset : ℕ
  filePath : Option String := none
  deriving DecidableEq, Repr

/-- The letters and digits of the device, the format, and the start: the last underscore parts the
start from the rest. -/
def SessionWal.getFileName (wal : SessionWal) : String :=
  let name := String.ofList ((wal.device.toList.filter Char.isAlphanum).map Char.toLower)
  s!"audio_{name}_{wal.codec.mapCodecToName}_16000_1_fs{wal.codec.getFrameSize}_" ++
    (toString wal.timerStart ++ ".bin")

/-- The recordings of a session, the frames it still holds, each with whether it was synced, and
the files on disk. -/
structure SessionSync where
  wals : List SessionWal := []
  frames : List WalFrame := []
  frameSynced : List Bool := []
  files : Table Bytes := []
  deriving DecidableEq, Repr

/-! ### Steps -/

namespace SessionSync
variable (settings : SessionSettings) (s : SessionSync)

def onFrameCaptured (frame : WalFrame) : SessionSync :=
  { s with frames := s.frames ++ [frame], frameSynced := s.frameSynced ++ [false] }

/-- The last frame of the key is marked. -/
def markFrameSynced (key : Bytes) : SessionSync :=
  match s.frames.reverse.findIdx? (·.syncKey = key) with
  | none => s
  | some i => { s with frameSynced := s.frameSynced.set (s.frames.length - 1 - i) true }

/-- Frames are kept where storage is unlimited or too many of them were not synced. -/
def shouldStored (synced : List Bool) : Bool :=
  let losses := synced.countP (!·)
  settings.unlimitedLocalStorageEnabled ||
    (0 < losses && 10 * settings.framesPerSecond ≤ losses)

/-- The recording of some frames that begins at `timerStart`. -/
def walOf (timerStart : ℤ) (chunk : List WalFrame) (synced : List Bool) : SessionWal :=
  let syncedOffset := (synced.takeWhile id).length
  { codec := settings.codec
    timerStart := timerStart
    data := chunk.map (·.payload)
    status := if syncedOffset = chunk.length then .synced else .miss
    device := settings.device
    seconds := chunk.length / settings.framesPerSecond
    totalFrames := chunk.length
    syncedFrameOffset := syncedOffset }

/-- The frames of a cut behind those of a recording that began at the same time: the counts are
those of the cut. -/
def mergeWal (wal cut : SessionWal) : SessionWal :=
  { wal with
    data := wal.data ++ cut.data
    storage := .mem
    totalFrames := cut.totalFrames
    syncedFrameOffset := cut.syncedFrameOffset
    status := cut.status }

/-- Whether a recording began when a cut of the session begins. -/
def beganAt (timerStart : ℤ) (wal : SessionWal) : Bool :=
  wal.timerStart = timerStart && wal.device = settings.device && wal.codec = settings.codec

/-- The cut joins the first recording that began at its time, or is a new one. -/
def storeCut (cut : SessionWal) : List SessionWal → List SessionWal
  | [] => [cut]
  | wal :: wals =>
    if beganAt settings cut.timerStart wal then mergeWal wal cut :: wals
    else wal :: storeCut cut wals

/-- The frames that `_chunk` cuts off: those of the last seconds stay. -/
def pivot : ℕ := s.frames.length - newFrameSyncDelaySeconds * settings.framesPerSecond

/-- When `_chunk` takes its cut to begin; the clock is in milliseconds. -/
def chunkStart (now : ℕ) : ℤ :=
  (now / 1000 : ℕ) - (newFrameSyncDelaySeconds : ℤ) -
    (pivot settings s / settings.framesPerSecond : ℕ)

/-- `_chunk`. -/
def chunk (now : ℕ) : SessionSync :=
  let pivot := pivot settings s
  if pivot = 0 then s
  else
    let synced := s.frameSynced.take pivot
    { s with
      wals :=
        if shouldStored settings synced then
          storeCut settings
            (walOf settings (chunkStart settings s now) (s.frames.take pivot) synced) s.wals
        else s.wals
      frames := s.frames.drop pivot
      frameSynced := s.frameSynced.drop pivot }

/-- A recording as it is once it is on disk. -/
def flushed (wal : SessionWal) : SessionWal :=
  if wal.storage = .mem then { wal with filePath := some wal.getFileName, storage := .disk }
  else wal

/-- The files after the recordings in memory are written, one after the other. -/
def writeWals (files : Table Bytes) (wals : List SessionWal) : Table Bytes :=
  wals.foldl (fun files wal =>
    if wal.storage = .mem then files.set wal.getFileName (flushData wal.data) else files) files

/-- `_flush`. -/
def flush : SessionSync :=
  { s with wals := s.wals.map flushed, files := writeWals s.files s.wals }

/-- When `finalizeCurrentSession` takes the frames that are left to begin. -/
def finalStart (now : ℕ) : ℤ := (now / 1000 : ℕ) - (s.frames.length / settings.framesPerSecond : ℕ)

def finalizeCurrentSession (now : ℕ) : SessionSync :=
  if s.frames = [] then s
  else
    flush
      { s with
        wals :=
          if shouldStored settings s.frameSynced then
            s.wals ++ [walOf settings (finalStart settings s now) s.frames s.frameSynced]
          else s.wals
        frames := []
        frameSynced := [] }

end SessionSync

inductive SessionAction where
  | onFrameCaptured (frame : WalFrame)
  | markFrameSynced (key : Bytes)
  | chunk (now : ℕ)
  | flush
  | finalizeCurrentSession (now : ℕ)

def SessionSync.step (settings : SessionSettings) (s : SessionSync) : SessionAction → SessionSync
  | .onFrameCaptured frame => s.onFrameCaptured frame
  | .markFrameSynced key => s.markFrameSynced key
  | .chunk now => s.chunk settings now
  | .flush => s.flush
  | .finalizeCurrentSession now => s.finalizeCurrentSession settings now

end Omi.Wals
