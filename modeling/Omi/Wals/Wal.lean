import Mathlib.Tactic.SplitIfs
import Mathlib.Data.Int.Notation
import Mathlib.Data.Nat.Notation

/-! Recordings and their codecs (`wal.dart`, `bt_device.dart`). -/
namespace Omi.Wals

inductive BleAudioCodec where
  | pcm16
  | pcm8
  | mulaw16
  | mulaw8
  | opus
  | opusFS320
  | aac
  | lc3FS1030
  | unknown
  deriving DecidableEq, Repr

namespace BleAudioCodec

def getFramesPerSecond (codec : BleAudioCodec) : ℕ := if codec = .opusFS320 then 50 else 100

def getFramesLengthInBytes (codec : BleAudioCodec) : ℕ := if codec = .opusFS320 then 160 else 80

def getFrameSize (codec : BleAudioCodec) : ℕ := if codec = .opusFS320 then 320 else 160

def mapCodecToName : BleAudioCodec → String
  | .opusFS320 => "opus_fs320"
  | .opus => "opus"
  | .pcm16 => "pcm16"
  | .pcm8 => "pcm8"
  | .aac => "aac"
  | .lc3FS1030 => "lc3_fs1030"
  | _ => "pcm8"

theorem getFramesPerSecond_pos (codec : BleAudioCodec) : 0 < codec.getFramesPerSecond := by
  unfold getFramesPerSecond
  split_ifs <;> decide

end BleAudioCodec

/-- The life of a recording on its way to the server. -/
inductive WalStatus where
  | inProgress
  | miss
  | uploaded
  | synced
  | corrupted
  | outsideRecoveryWindow
  deriving DecidableEq, Repr

inductive WalStorage where
  | mem
  | disk
  | sdcard
  | flashPage
  deriving DecidableEq, Repr

structure Wal where
  timerStart : ℕ
  codec : BleAudioCodec
  channel : ℕ := 1
  sampleRate : ℕ := 16000
  seconds : ℕ
  device : String := "phone"
  status : WalStatus := .inProgress
  storage : WalStorage := .mem
  storageOffset : ℕ := 0
  storageTotalBytes : ℕ := 0
  fileNum : ℤ := 1
  totalFrames : ℕ := 0
  deriving DecidableEq, Repr

/-- `'${device}_$timerStart'`: the last underscore parts the two. -/
def Wal.id (wal : Wal) : String × ℕ := (wal.device, wal.timerStart)

instance lawfulBEq_walId : LawfulBEq (String × ℕ) := inferInstance

/-- The letters and digits of the device's name, in lower case. -/
def Wal.deviceName (wal : Wal) : String :=
  String.ofList ((wal.device.toList.filter Char.isAlphanum).map Char.toLower)

def Wal.getFileNameByTimeStarts (wal : Wal) (timestarts : ℕ) : String :=
  let codec := wal.codec.mapCodecToName
  let format := s!"{codec}_{wal.sampleRate}_{wal.channel}_fs{wal.codec.getFrameSize}"
  s!"audio_{wal.deviceName}_{format}_" ++ (toString timestarts ++ ".bin")

/-- A recording's file names tell its start times apart. -/
theorem Wal.getFileNameByTimeStarts_inj {wal : Wal} {a b : ℕ}
    (h : wal.getFileNameByTimeStarts a = wal.getFileNameByTimeStarts b) : a = b := by
  have htext : toString a ++ ".bin" = toString b ++ ".bin" := (String.append_right_inj _).1 h
  have hrepr : a.repr = b.repr := (String.append_left_inj _).1 htext
  have hdigits : Nat.toDigits 10 a = Nat.toDigits 10 b := by
    rw [← Nat.toList_repr, ← Nat.toList_repr, hrepr]
  rw [← Nat.ofDigitChars_ten_toDigits (n := a), hdigits, Nat.ofDigitChars_ten_toDigits]

def sdcardChunkSizeSecs : ℕ := 180

end Omi.Wals
