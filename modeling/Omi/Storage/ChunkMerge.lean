import Mathlib
import Omi.Foundation.LastWrite
import Omi.Foundation.StableSort
import Omi.Storage.ChunkCodec

/-! The stored chunks of a conversation and their merge into one PCM stream
(`list_audio_chunks` and `download_audio_chunks_and_merge`). Times are exact. -/
namespace Omi.Storage
open Omi.Foundation

/-! ### Blobs -/

inductive SingleExtension where
  | opusEnc
  | enc
  | opus
  | bin
  deriving DecidableEq, Repr

/-- What the name of a blob says besides its first timestamp: a single chunk, a batch of one chunk,
or a batch with a range up to its last timestamp. -/
inductive ChunkKind where
  | single (extension : SingleExtension)
  | batch (encrypted : Bool)
  | range (last : ℚ) (encrypted : Bool)
  deriving DecidableEq

structure BlobName where
  timestamp : ℚ
  kind : ChunkKind
  deriving DecidableEq

/-- `round(ts, 3)`, and what `f'{ts:.3f}'` shows. -/
def roundMillis (timestamp : ℚ) : ℚ := roundHalfEven (timestamp * 1000) / 1000

/-- A stored chunk. Its name shows whole milliseconds, and a batch is sorted before it is named. -/
structure ChunkBlob extends BlobName where
  content : Bytes
  millis : roundMillis timestamp = timestamp
  ordered : ∀ last encrypted, kind = .range last encrypted → timestamp ≤ last

namespace ChunkKind

def encrypted : ChunkKind → Bool
  | .single .opusEnc | .single .enc => true
  | .single .opus | .single .bin => false
  | .batch encrypted | .range _ encrypted => encrypted

def isOpus : ChunkKind → Bool
  | .single .opusEnc | .single .opus => true
  | _ => false

end ChunkKind

/-- `batch_start` and `batch_end`, of a batch. -/
def BlobName.batchRange (name : BlobName) : Option (ℚ × ℚ) :=
  match name.kind with
  | .single _ => none
  | .batch _ => some (name.timestamp, name.timestamp)
  | .range last _ => some (name.timestamp, last)

def BlobName.isBatch (name : BlobName) : Bool := name.batchRange.isSome

/-- `batch_start <= ts <= batch_end`. -/
def BlobName.covers (name : BlobName) (timestamp : ℚ) : Bool :=
  name.batchRange.any fun range => range.1 ≤ timestamp ∧ timestamp ≤ range.2

def listAudioChunks (bucket : List ChunkBlob) : List ChunkBlob :=
  sortBy (fun blob => blob.timestamp) bucket

/-! ### Reading a blob -/

/-- What reading a chunk takes. The audio is mono. -/
structure ChunkReader where
  opus : OpusLib
  aead : Aead
  uid : String
  sampleRate : ℕ := 16000
  frame_pos : 0 < sampleRate * 20 / 1000 * 1 * 2 := by decide

namespace ChunkReader
variable (reader : ChunkReader)

def format : OpusFormat where
  sampleRate := reader.sampleRate
  frame_pos := reader.frame_pos

/-- `_align_pcm16_frames`. -/
def alignPcm16Frames (pcmData : Bytes) : Bytes :=
  let remainder := pcmData.length % 2
  if remainder = 0 then pcmData else pcmData.take (pcmData.length - remainder)

/-- The audio of a blob's bytes, where neither the decryption nor the decoder raises. -/
def decode (kind : ChunkKind) (chunkData : Bytes) : Option Bytes := do
  let rawData ←
    if kind.encrypted then (decryptAudioFile reader.aead chunkData reader.uid).toOption
    else some chunkData
  if kind.isOpus then (decodeOpusToPcm reader.opus reader.format rawData).toOption
  else some rawData

def downloadAsBytes (bucket : List ChunkBlob) (path : BlobName) : Option Bytes :=
  (bucket.find? fun blob => blob.toBlobName = path).map fun blob => blob.content

/-- `_download_and_decode_blob`. -/
def downloadAndDecodeBlob (bucket : List ChunkBlob) (path : BlobName) : Option Bytes := do
  let chunkData ← downloadAsBytes bucket path
  let pcmData ← reader.decode path.kind chunkData
  return alignPcm16Frames pcmData

def extensionsToTry : List SingleExtension := [.opusEnc, .enc, .opus, .bin]

def downloadSingleChunk (bucket : List ChunkBlob) (timestamp : ℚ) : Option Bytes :=
  extensionsToTry.findSome? fun extension =>
    reader.downloadAndDecodeBlob bucket ⟨roundMillis timestamp, .single extension⟩

/-! ### Routing the requested timestamps -/

/-- What is written to `ts_to_batch_path`. -/
def batchWrites (actualChunks : List BlobName) (timestamps : List ℚ) : List (ℚ × BlobName) :=
  actualChunks.flatMap fun chunk =>
    (timestamps.filter fun timestamp => chunk.covers (roundMillis timestamp)).map
      fun timestamp => (roundMillis timestamp, chunk)

def tsToBatchPath (actualChunks : List BlobName) (timestamps : List ℚ) (timestamp : ℚ) :
    Option BlobName :=
  lastWrite (batchWrites actualChunks timestamps) (roundMillis timestamp)

inductive DownloadJob where
  | individual (timestamp : ℚ)
  | batch (path : BlobName)
  deriving DecidableEq

def downloadJobs (actualChunks : List BlobName) (timestamps : List ℚ) : List DownloadJob :=
  let individualTimestamps := timestamps.filter fun timestamp =>
    (tsToBatchPath actualChunks timestamps timestamp).isNone
  let uniqueBatchPaths := (timestamps.filterMap (tsToBatchPath actualChunks timestamps)).dedup
  individualTimestamps.map .individual ++ uniqueBatchPaths.map .batch

/-- What a job writes to `chunk_results`. -/
def runJob (bucket : List ChunkBlob) : DownloadJob → Option (ℚ × Bytes)
  | .individual timestamp =>
    (reader.downloadSingleChunk bucket timestamp).map fun pcmData => (timestamp, pcmData)
  | .batch path =>
    (reader.downloadAndDecodeBlob bucket path).map fun pcmData => (path.timestamp, pcmData)

/-! ### The merge -/

/-- What the loop adds for a timestamp. -/
structure Piece where
  timestamp : ℚ
  gapSeconds : ℚ
  pcmData : Bytes
  deriving DecidableEq

def gapSamples (piece : Piece) : ℕ :=
  if 0 < piece.gapSeconds then ⌊piece.gapSeconds * reader.sampleRate⌋₊ else 0

def pieceBytes (piece : Piece) : Bytes :=
  List.replicate (reader.gapSamples piece * 2) 0 ++ piece.pcmData

def chunkDuration (pcmData : Bytes) : ℚ := pcmData.length / (reader.sampleRate * 2)

/-- The loop over the sorted timestamps, from `current_time`. -/
def mergeLoop (chunkResults : ℚ → Option Bytes) (currentTime : ℚ) : List ℚ → List Piece
  | [] => []
  | timestamp :: rest =>
    match chunkResults timestamp with
    | none => mergeLoop chunkResults currentTime rest
    | some pcmData => ⟨timestamp, timestamp - currentTime, pcmData⟩ ::
        mergeLoop chunkResults (timestamp + reader.chunkDuration pcmData) rest

def mergePieces (chunkResults : ℚ → Option Bytes) (timestamps : List ℚ) : List Piece :=
  match sortBy id timestamps with
  | [] => []
  | firstTimestamp :: rest => reader.mergeLoop chunkResults firstTimestamp (firstTimestamp :: rest)

/-- The results, with the jobs in the order in which they completed. -/
def chunkResults (bucket : List ChunkBlob) (completed : List DownloadJob) : ℚ → Option Bytes :=
  lastWrite (completed.filterMap (reader.runJob bucket))

/-- `merged_data`. Without timestamps or results both branches leave it empty. -/
def mergedData (bucket : List ChunkBlob) (timestamps : List ℚ) (fillGaps : Bool)
    (completed : List DownloadJob) : Bytes :=
  let results := reader.chunkResults bucket completed
  if fillGaps then (reader.mergePieces results timestamps).flatMap reader.pieceBytes
  else timestamps.flatMap fun timestamp => (results timestamp).getD []

/-- The merged audio; `none` where `FileNotFoundError` is raised. -/
def downloadAudioChunksAndMerge (bucket : List ChunkBlob) (timestamps : List ℚ) (fillGaps : Bool)
    (completed : List DownloadJob) : Option Bytes :=
  let mergedData := reader.mergedData bucket timestamps fillGaps completed
  if mergedData = [] then none else some mergedData

/-! ### The chunks of a conversation -/

variable {reader} {bucket : List ChunkBlob} {blob : ChunkBlob}

def pathsOf (bucket : List ChunkBlob) : List BlobName :=
  (listAudioChunks bucket).map fun blob => blob.toBlobName

def timestampsOf (bucket : List ChunkBlob) : List ℚ :=
  (listAudioChunks bucket).map fun blob => blob.timestamp

theorem mem_listAudioChunks : blob ∈ listAudioChunks bucket ↔ blob ∈ bucket := mem_sortBy

theorem mem_timestampsOf {timestamp : ℚ} :
    timestamp ∈ timestampsOf bucket ↔ ∃ blob ∈ bucket, blob.timestamp = timestamp := by
  simp only [timestampsOf, List.mem_map, mem_listAudioChunks]

theorem listAudioChunks_pairwise (hdistinct : (bucket.map fun blob => blob.timestamp).Nodup) :
    (listAudioChunks bucket).Pairwise fun a b => a.timestamp < b.timestamp := by
  have hsorted := sortBy_pairwise (fun blob : ChunkBlob => blob.timestamp) bucket
  have hnodup : (listAudioChunks bucket).Pairwise fun a b => a.timestamp ≠ b.timestamp := by
    have hperm := (sortBy_perm (fun blob : ChunkBlob => blob.timestamp) bucket).map
      fun blob => blob.timestamp
    exact List.pairwise_map.mp (hperm.nodup_iff.mpr hdistinct)
  exact (hsorted.and hnodup).imp fun ⟨hle, hne⟩ => lt_of_le_of_ne hle hne

theorem eq_of_timestamp (hdistinct : (bucket.map fun blob => blob.timestamp).Nodup)
    {other : ChunkBlob} (hblob : blob ∈ bucket) (hother : other ∈ bucket)
    (h : blob.timestamp = other.timestamp) : blob = other :=
  List.inj_on_of_nodup_map hdistinct hblob hother h

/-! ### Which path a timestamp is routed to -/

theorem isBatch_eq_false_iff :
    blob.isBatch = false ↔ ∃ extension, blob.kind = .single extension := by
  unfold BlobName.isBatch BlobName.batchRange
  cases blob.kind <;> simp

/-- A batch covers its own start, and nothing before it. -/
theorem covers_self (hbatch : blob.isBatch = true) : blob.covers blob.timestamp = true := by
  have hordered := blob.ordered
  unfold BlobName.isBatch BlobName.batchRange at hbatch
  unfold BlobName.covers BlobName.batchRange
  cases hkind : blob.kind with
  | single extension =>
    rw [hkind] at hbatch
    cases hbatch
  | batch encrypted => simp
  | range last encrypted => simpa using hordered last encrypted hkind

theorem covers_le {timestamp : ℚ} (h : blob.covers timestamp = true) :
    blob.isBatch = true ∧ blob.timestamp ≤ timestamp := by
  unfold BlobName.covers at h
  unfold BlobName.isBatch BlobName.batchRange at *
  cases hkind : blob.kind with
  | single extension =>
    rw [hkind] at h
    cases h
  | batch encrypted =>
    rw [hkind] at h
    have hrange : blob.timestamp ≤ timestamp ∧ timestamp ≤ blob.timestamp := by simpa using h
    exact ⟨rfl, hrange.1⟩
  | range last encrypted =>
    rw [hkind] at h
    have hrange : blob.timestamp ≤ timestamp ∧ timestamp ≤ last := by simpa using h
    exact ⟨rfl, hrange.1⟩

theorem mem_batchWrites {paths : List BlobName} {timestamps : List ℚ} {write : ℚ × BlobName} :
    write ∈ batchWrites paths timestamps ↔ write.2 ∈ paths ∧ ∃ timestamp ∈ timestamps,
      roundMillis timestamp = write.1 ∧ write.2.covers write.1 = true := by
  simp only [batchWrites, List.mem_flatMap, List.mem_map, List.mem_filter]
  constructor
  · rintro ⟨path, hpath, timestamp, ⟨hmem, hcovers⟩, rfl⟩
    exact ⟨hpath, timestamp, hmem, rfl, hcovers⟩
  · rintro ⟨hpath, timestamp, hmem, hround, hcovers⟩
    exact ⟨write.2, hpath, timestamp, ⟨hmem, by rwa [hround]⟩, by rw [hround]⟩

theorem mem_pathsOf {path : BlobName} :
    path ∈ pathsOf bucket ↔ ∃ blob ∈ bucket, blob.toBlobName = path := by
  simp only [pathsOf, List.mem_map, mem_listAudioChunks]

theorem tsToBatchPath_some {timestamp : ℚ} {path : BlobName}
    (h : tsToBatchPath (pathsOf bucket) (timestampsOf bucket) timestamp = some path) :
    ∃ batch ∈ bucket, batch.toBlobName = path ∧
      batch.covers (roundMillis timestamp) = true := by
  obtain ⟨hpath, -, -, -, hcovers⟩ := mem_batchWrites.mp (mem_of_lastWrite h)
  obtain ⟨batch, hbatch, rfl⟩ := mem_pathsOf.mp hpath
  exact ⟨batch, hbatch, rfl, hcovers⟩

/-- A stored timestamp is routed to no batch if none covers it. -/
theorem tsToBatchPath_eq_none_iff (hblob : blob ∈ bucket) :
    tsToBatchPath (pathsOf bucket) (timestampsOf bucket) blob.timestamp = none ↔
      ∀ batch ∈ bucket, batch.covers blob.timestamp = false := by
  rw [tsToBatchPath, lastWrite_eq_none_iff, blob.millis]
  constructor
  · intro h batch hbatch
    by_contra hcovers
    rw [Bool.not_eq_false] at hcovers
    have hwrite : (blob.timestamp, batch.toBlobName) ∈
        batchWrites (pathsOf bucket) (timestampsOf bucket) :=
      mem_batchWrites.mpr ⟨mem_pathsOf.mpr ⟨batch, hbatch, rfl⟩, blob.timestamp,
        mem_timestampsOf.mpr ⟨blob, hblob, rfl⟩, blob.millis, hcovers⟩
    exact h _ hwrite rfl
  · rintro h ⟨key, path⟩ hwrite rfl
    obtain ⟨hpath, -, -, -, hcovers⟩ := mem_batchWrites.mp hwrite
    obtain ⟨batch, hbatch, rfl⟩ := mem_pathsOf.mp hpath
    exact absurd hcovers (by rw [h batch hbatch]; exact Bool.false_ne_true)

/-- The start of a batch is routed to that batch, whatever others cover it: those that come later
in the list start later. -/
theorem tsToBatchPath_start (hdistinct : (bucket.map fun blob => blob.timestamp).Nodup)
    (hblob : blob ∈ bucket) (hbatch : blob.isBatch = true) :
    tsToBatchPath (pathsOf bucket) (timestampsOf bucket) blob.timestamp =
      some blob.toBlobName := by
  obtain ⟨before, after, hsplit⟩ := List.append_of_mem (mem_listAudioChunks.mpr hblob)
  have hafter : ∀ later ∈ after, blob.timestamp < later.timestamp := by
    have hpairwise := listAudioChunks_pairwise hdistinct
    rw [hsplit] at hpairwise
    exact (List.pairwise_cons.mp (List.pairwise_append.mp hpairwise).2.1).1
  have hwrites : batchWrites (pathsOf bucket) (timestampsOf bucket) =
      (batchWrites (before.map fun blob => blob.toBlobName) (timestampsOf bucket) ++
        batchWrites [blob.toBlobName] (timestampsOf bucket)) ++
          batchWrites (after.map fun blob => blob.toBlobName) (timestampsOf bucket) := by
    rw [pathsOf, hsplit]
    simp [batchWrites]
  rw [tsToBatchPath, hwrites, blob.millis, lastWrite_append_of_absent]
  · apply lastWrite_append_of_present
    apply lastWrite_of_agree
    · exact mem_batchWrites.mpr ⟨List.mem_singleton.mpr rfl, blob.timestamp,
        mem_timestampsOf.mpr ⟨blob, hblob, rfl⟩, blob.millis, covers_self hbatch⟩
    · intro write hwrite _
      exact List.mem_singleton.mp (mem_batchWrites.mp hwrite).1
  · rintro ⟨key, path⟩ hwrite rfl
    obtain ⟨hpath, -, -, -, hcovers⟩ := mem_batchWrites.mp hwrite
    obtain ⟨later, hlater, rfl⟩ := List.mem_map.mp hpath
    exact absurd (covers_le hcovers).2 (not_le.mpr (hafter later hlater))

/-! ### What the jobs find -/

/-- The jobs for all chunks of the conversation. -/
def jobsOf (bucket : List ChunkBlob) : List DownloadJob :=
  downloadJobs (pathsOf bucket) (timestampsOf bucket)

theorem individual_mem_jobsOf {timestamp : ℚ} :
    .individual timestamp ∈ jobsOf bucket ↔ timestamp ∈ timestampsOf bucket ∧
      tsToBatchPath (pathsOf bucket) (timestampsOf bucket) timestamp = none := by
  simp [jobsOf, downloadJobs]

theorem batch_mem_jobsOf {path : BlobName} :
    .batch path ∈ jobsOf bucket ↔ ∃ timestamp ∈ timestampsOf bucket,
      tsToBatchPath (pathsOf bucket) (timestampsOf bucket) timestamp = some path := by
  simp [jobsOf, downloadJobs]

theorem downloadAsBytes_blob (hdistinct : (bucket.map fun blob => blob.timestamp).Nodup)
    (hblob : blob ∈ bucket) : downloadAsBytes bucket blob.toBlobName = some blob.content := by
  unfold downloadAsBytes
  cases hfind : bucket.find? fun other => other.toBlobName = blob.toBlobName with
  | none => exact absurd (List.find?_eq_none.mp hfind blob hblob) (by simp)
  | some other =>
    have hname : other.toBlobName = blob.toBlobName := by simpa using List.find?_some hfind
    have hsame := eq_of_timestamp hdistinct (List.mem_of_find?_eq_some hfind) hblob
      (congrArg BlobName.timestamp hname)
    rw [hsame]
    rfl

/-- No other blob has the timestamp. -/
theorem downloadAsBytes_other (hdistinct : (bucket.map fun blob => blob.timestamp).Nodup)
    (hblob : blob ∈ bucket) {kind : ChunkKind} (hkind : kind ≠ blob.kind) :
    downloadAsBytes bucket ⟨blob.timestamp, kind⟩ = none := by
  rw [downloadAsBytes, Option.map_eq_none_iff, List.find?_eq_none]
  intro other hother hname
  have hname' : other.toBlobName = ⟨blob.timestamp, kind⟩ := of_decide_eq_true hname
  have hstart := congrArg BlobName.timestamp hname'
  rw [eq_of_timestamp hdistinct hother hblob hstart] at hname'
  exact hkind (congrArg BlobName.kind hname').symm

/-- All blobs decode to whole samples. -/
def Decodable (reader : ChunkReader) (bucket : List ChunkBlob) : Prop :=
  ∀ blob ∈ bucket, ∃ pcmData, reader.decode blob.kind blob.content = some pcmData ∧
    pcmData.length % 2 = 0

/-- The audio of a blob. -/
def pcmOf (reader : ChunkReader) (blob : ChunkBlob) : Bytes :=
  (reader.decode blob.kind blob.content).getD []

theorem downloadAndDecodeBlob_blob (hdistinct : (bucket.map fun blob => blob.timestamp).Nodup)
    (hdecodable : Decodable reader bucket) (hblob : blob ∈ bucket) :
    reader.downloadAndDecodeBlob bucket blob.toBlobName = some (pcmOf reader blob) := by
  obtain ⟨pcmData, hdecode, hwhole⟩ := hdecodable blob hblob
  have hpcm : pcmOf reader blob = pcmData := by rw [pcmOf, hdecode, Option.getD_some]
  have haligned : alignPcm16Frames pcmData = pcmData := if_pos hwhole
  simp only [downloadAndDecodeBlob, downloadAsBytes_blob hdistinct hblob, hpcm]
  show (reader.decode blob.kind blob.content).bind (fun pcmData =>
    some (alignPcm16Frames pcmData)) = some pcmData
  rw [hdecode, Option.bind_some, haligned]

theorem downloadSingleChunk_single (hdistinct : (bucket.map fun blob => blob.timestamp).Nodup)
    (hdecodable : Decodable reader bucket) (hblob : blob ∈ bucket)
    {extension : SingleExtension} (hsingle : blob.kind = .single extension) :
    reader.downloadSingleChunk bucket blob.timestamp = some (pcmOf reader blob) := by
  have hfound : reader.downloadAndDecodeBlob bucket ⟨blob.timestamp, .single extension⟩ =
      some (pcmOf reader blob) := by
    rw [← hsingle]
    exact downloadAndDecodeBlob_blob hdistinct hdecodable hblob
  have hother : ∀ other, other ≠ extension →
      reader.downloadAndDecodeBlob bucket ⟨blob.timestamp, .single other⟩ = none := by
    intro other hne
    have hkind : ChunkKind.single other ≠ blob.kind := by
      rw [hsingle]
      exact fun hsame => hne (ChunkKind.single.inj hsame)
    rw [downloadAndDecodeBlob, downloadAsBytes_other hdistinct hblob hkind]
    rfl
  rw [downloadSingleChunk, blob.millis, extensionsToTry]
  cases extension <;> simp [List.findSome?, hfound, hother]

/-- A chunk that is found: a batch, or a single chunk that no batch covers. -/
def Routed (bucket : List ChunkBlob) (blob : ChunkBlob) : Prop :=
  blob.isBatch = true ∨ ∀ batch ∈ bucket, batch.covers blob.timestamp = false

/-- The job for a chunk. -/
def jobOf (blob : ChunkBlob) : DownloadJob :=
  if blob.isBatch then .batch blob.toBlobName else .individual blob.timestamp

theorem runJob_jobOf (hdistinct : (bucket.map fun blob => blob.timestamp).Nodup)
    (hdecodable : Decodable reader bucket) (hblob : blob ∈ bucket) :
    reader.runJob bucket (jobOf blob) = some (blob.timestamp, pcmOf reader blob) := by
  unfold jobOf
  split_ifs with hbatch
  · rw [runJob, downloadAndDecodeBlob_blob hdistinct hdecodable hblob]
    rfl
  · obtain ⟨extension, hsingle⟩ := isBatch_eq_false_iff.mp (Bool.not_eq_true _ ▸ hbatch)
    rw [runJob, downloadSingleChunk_single hdistinct hdecodable hblob hsingle]
    rfl

theorem jobOf_mem_jobsOf (hdistinct : (bucket.map fun blob => blob.timestamp).Nodup)
    (hblob : blob ∈ bucket) (hrouted : Routed bucket blob) : jobOf blob ∈ jobsOf bucket := by
  have hrequested := mem_timestampsOf.mpr ⟨blob, hblob, rfl⟩
  unfold jobOf
  split_ifs with hbatch
  · exact batch_mem_jobsOf.mpr ⟨_, hrequested, tsToBatchPath_start hdistinct hblob hbatch⟩
  · have huncovered := hrouted.resolve_left hbatch
    exact individual_mem_jobsOf.mpr
      ⟨hrequested, (tsToBatchPath_eq_none_iff hblob).mpr huncovered⟩

/-- The only job that writes a chunk's timestamp is its own, and only if it is found. -/
theorem eq_jobOf_of_runJob (hdistinct : (bucket.map fun blob => blob.timestamp).Nodup)
    (hblob : blob ∈ bucket) {job : DownloadJob} (hjob : job ∈ jobsOf bucket) {pcmData : Bytes}
    (hrun : reader.runJob bucket job = some (blob.timestamp, pcmData)) :
    job = jobOf blob ∧ Routed bucket blob := by
  cases job with
  | individual timestamp =>
    obtain ⟨_, -, hresult⟩ := Option.map_eq_some_iff.mp hrun
    obtain rfl : timestamp = blob.timestamp := (Prod.mk.inj hresult).1
    obtain ⟨-, hnone⟩ := individual_mem_jobsOf.mp hjob
    have huncovered := (tsToBatchPath_eq_none_iff hblob).mp hnone
    have hsingle : ¬blob.isBatch = true := by
      intro hbatch
      have hself := huncovered blob hblob
      rw [covers_self hbatch] at hself
      cases hself
    exact ⟨(if_neg hsingle).symm, .inr huncovered⟩
  | batch path =>
    obtain ⟨_, -, hresult⟩ := Option.map_eq_some_iff.mp hrun
    have hstart : path.timestamp = blob.timestamp := (Prod.mk.inj hresult).1
    obtain ⟨timestamp, -, hrouted⟩ := batch_mem_jobsOf.mp hjob
    obtain ⟨batch, hbatch, rfl, hcovers⟩ := tsToBatchPath_some hrouted
    obtain rfl := eq_of_timestamp hdistinct hbatch hblob hstart
    exact ⟨(if_pos (covers_le hcovers).1).symm, .inl (covers_le hcovers).1⟩

section results
variable {completed : List DownloadJob}

theorem chunkResults_routed (hdistinct : (bucket.map fun blob => blob.timestamp).Nodup)
    (hdecodable : Decodable reader bucket) (hcompleted : completed.Perm (jobsOf bucket))
    (hblob : blob ∈ bucket) (hrouted : Routed bucket blob) :
    reader.chunkResults bucket completed blob.timestamp = some (pcmOf reader blob) := by
  have hrun := runJob_jobOf hdistinct hdecodable hblob
  apply lastWrite_of_agree
  · exact List.mem_filterMap.mpr
      ⟨_, hcompleted.mem_iff.mpr (jobOf_mem_jobsOf hdistinct hblob hrouted), hrun⟩
  · rintro ⟨timestamp, pcmData⟩ hwrite rfl
    obtain ⟨job, hjob, hresult⟩ := List.mem_filterMap.mp hwrite
    obtain ⟨rfl, -⟩ := eq_jobOf_of_runJob hdistinct hblob (hcompleted.mem_iff.mp hjob) hresult
    exact (Prod.mk.inj (Option.some.inj (hresult.symm.trans hrun))).2

theorem routed_of_chunkResults (hdistinct : (bucket.map fun blob => blob.timestamp).Nodup)
    (hcompleted : completed.Perm (jobsOf bucket)) (hblob : blob ∈ bucket) {pcmData : Bytes}
    (h : reader.chunkResults bucket completed blob.timestamp = some pcmData) :
    Routed bucket blob := by
  obtain ⟨job, hjob, hresult⟩ := List.mem_filterMap.mp (mem_of_lastWrite h)
  exact (eq_jobOf_of_runJob hdistinct hblob (hcompleted.mem_iff.mp hjob) hresult).2

end results

/-! ### What the loop adds -/

theorem mem_mergeLoop {results : ℚ → Option Bytes} {currentTime : ℚ} {timestamps : List ℚ}
    {piece : Piece} (h : piece ∈ reader.mergeLoop results currentTime timestamps) :
    results piece.timestamp = some piece.pcmData := by
  induction timestamps generalizing currentTime with
  | nil => cases h
  | cons timestamp rest ih =>
    rw [mergeLoop] at h
    cases hresult : results timestamp with
    | none =>
      rw [hresult] at h
      exact ih h
    | some pcmData =>
      rw [hresult] at h
      rcases List.mem_cons.mp h with rfl | hrest
      · exact hresult
      · exact ih hrest

/-- Where every chunk has its result, the loop adds every chunk. -/
theorem mergeLoop_routed {results : ℚ → Option Bytes} {chunks : List ChunkBlob}
    (hresults : ∀ blob ∈ chunks, results blob.timestamp = some (pcmOf reader blob))
    (currentTime : ℚ) :
    (reader.mergeLoop results currentTime (chunks.map fun blob => blob.timestamp)).map
        (fun piece => (piece.timestamp, piece.pcmData)) =
      chunks.map fun blob => (blob.timestamp, pcmOf reader blob) := by
  induction chunks generalizing currentTime with
  | nil => rfl
  | cons blob rest ih =>
    have hrest := ih (fun other hother => hresults other (List.mem_cons_of_mem blob hother))
      (blob.timestamp + reader.chunkDuration (pcmOf reader blob))
    rw [List.map_cons, mergeLoop, hresults blob List.mem_cons_self]
    simp only [List.map_cons, hrest]

/-! ### Where the chunks start -/

/-- Behind by this many samples, of which each gap costs less than one. -/
def Behind (gaps : ℕ) (samples : ℚ) : Prop :=
  0 ≤ samples ∧ samples ≤ gaps ∧ (0 < gaps → samples < gaps)

theorem Behind.add {gaps more : ℕ} {samples rest : ℚ} (h : Behind gaps samples)
    (hrest : Behind more rest) : Behind (gaps + more) (samples + rest) := by
  obtain ⟨hpos, hle, hlt⟩ := h
  obtain ⟨hpos', hle', hlt'⟩ := hrest
  refine ⟨add_nonneg hpos hpos', ?_, fun hgaps => ?_⟩
  · push_cast
    exact add_le_add hle hle'
  · push_cast
    rcases Nat.eq_zero_or_pos gaps with hnone | hsome
    · exact add_lt_add_of_le_of_lt hle (hlt' (by omega))
    · exact add_lt_add_of_lt_of_le (hlt hsome) hle'

/-- The gaps among the pieces. -/
def gapCount (pieces : List Piece) : ℕ :=
  pieces.countP fun piece => 0 < piece.gapSeconds

/-- The samples before a piece's audio: the pieces before it, and its own silence. -/
def startSamples (reader : ChunkReader) (front : List Piece) (piece : Piece) : ℚ :=
  ((front.flatMap reader.pieceBytes).length : ℚ) / 2 + reader.gapSamples piece

/-- The silence of one gap. -/
theorem behind_gapSamples (reader : ChunkReader) (piece : Piece) (hgap : 0 ≤ piece.gapSeconds) :
    Behind (gapCount [piece])
      (piece.gapSeconds * reader.sampleRate - reader.gapSamples piece) := by
  have hnonneg : 0 ≤ piece.gapSeconds * reader.sampleRate := mul_nonneg hgap (Nat.cast_nonneg _)
  rcases eq_or_lt_of_le hgap with hzero | hpos
  · simp [Behind, gapCount, gapSamples, ← hzero]
  · have hcount : gapCount [piece] = 1 := by simp [gapCount, hpos]
    have hfloor := Nat.floor_le hnonneg
    have hbelow := Nat.lt_floor_add_one (piece.gapSeconds * reader.sampleRate)
    rw [hcount, gapSamples, if_pos hpos]
    refine ⟨by linarith, ?_, fun _ => ?_⟩
    · push_cast
      linarith
    · push_cast
      linarith

theorem length_pieceBytes (reader : ChunkReader) (piece : Piece) :
    ((reader.pieceBytes piece).length : ℚ) / 2 =
      reader.gapSamples piece + (piece.pcmData.length : ℚ) / 2 := by
  rw [pieceBytes, List.length_append, List.length_replicate]
  push_cast
  ring

theorem sampleRate_pos (reader : ChunkReader) : 0 < (reader.sampleRate : ℚ) := by
  have hpos := reader.frame_pos
  have hrate : 0 < reader.sampleRate := by omega
  exact_mod_cast hrate

theorem chunkDuration_samples (reader : ChunkReader) (pcmData : Bytes) :
    reader.chunkDuration pcmData * reader.sampleRate = (pcmData.length : ℚ) / 2 := by
  have hrate := reader.sampleRate_pos.ne'
  rw [chunkDuration]
  field_simp

/-- The loop places each chunk at its offset from `current_time`, up to the samples that the gaps
cost, where no chunk starts before the audio of the one before it has ended. -/
theorem mergeLoop_behind {results : ℚ → Option Bytes} {chunks : List ChunkBlob} {currentTime : ℚ}
    (hresults : ∀ blob ∈ chunks, results blob.timestamp = some (pcmOf reader blob))
    (hstart : ∀ first ∈ chunks.head?, currentTime ≤ first.timestamp)
    (hrun : chunks.IsChain fun a b =>
      a.timestamp + reader.chunkDuration (pcmOf reader a) ≤ b.timestamp)
    {front back : List Piece} {piece : Piece}
    (hsplit : reader.mergeLoop results currentTime (chunks.map fun blob => blob.timestamp) =
      front ++ piece :: back) :
    Behind (gapCount (front ++ [piece]))
      ((piece.timestamp - currentTime) * reader.sampleRate - startSamples reader front piece) := by
  induction chunks generalizing currentTime front with
  | nil =>
    rw [List.map_nil, mergeLoop] at hsplit
    exact absurd hsplit.symm (by simp)
  | cons blob rest ih =>
    rw [List.map_cons, mergeLoop, hresults blob List.mem_cons_self] at hsplit
    dsimp only at hsplit
    have hgap : 0 ≤ blob.timestamp - currentTime := sub_nonneg.mpr (hstart blob rfl)
    cases front with
    | nil =>
      obtain ⟨rfl, -⟩ := List.cons.inj hsplit
      simpa [startSamples] using behind_gapSamples reader
        ⟨blob.timestamp, blob.timestamp - currentTime, pcmOf reader blob⟩ hgap
    | cons first front =>
      obtain ⟨rfl, hrest⟩ := List.cons.inj hsplit
      have hhead := behind_gapSamples reader
        ⟨blob.timestamp, blob.timestamp - currentTime, pcmOf reader blob⟩ hgap
      have htail := ih (fun other hother => hresults other (List.mem_cons_of_mem blob hother))
        (List.isChain_cons.mp hrun).1 (List.isChain_cons.mp hrun).2 hrest
      have hsum := hhead.add htail
      have hcount : gapCount ([⟨blob.timestamp, blob.timestamp - currentTime,
          pcmOf reader blob⟩]) + gapCount (front ++ [piece]) =
          gapCount (⟨blob.timestamp, blob.timestamp - currentTime, pcmOf reader blob⟩ ::
            front ++ [piece]) := by
        simp only [gapCount, List.cons_append, List.countP_cons, List.countP_nil]
        omega
      have hsamples := chunkDuration_samples reader (pcmOf reader blob)
      have hbytes := length_pieceBytes reader
        ⟨blob.timestamp, blob.timestamp - currentTime, pcmOf reader blob⟩
      rw [hcount] at hsum
      convert hsum using 1
      simp only [startSamples, List.flatMap_cons, List.length_append]
      push_cast
      dsimp only at hbytes
      linear_combination hsamples - hbytes

/-! ### When there is anything to merge -/

theorem gapSamples_eq_zero_iff {piece : Piece} :
    reader.gapSamples piece = 0 ↔ piece.gapSeconds * reader.sampleRate < 1 := by
  unfold gapSamples
  split_ifs with hgap
  · exact Nat.floor_eq_zero
  · have hle : piece.gapSeconds * reader.sampleRate ≤ 0 :=
      mul_nonpos_of_nonpos_of_nonneg (not_lt.mp hgap) (Nat.cast_nonneg _)
    exact iff_of_true rfl (by linarith)

theorem pieceBytes_eq_nil_iff {piece : Piece} :
    reader.pieceBytes piece = [] ↔
      piece.gapSeconds * reader.sampleRate < 1 ∧ piece.pcmData = [] := by
  rw [pieceBytes, List.append_eq_nil_iff, List.replicate_eq_nil_iff, ← gapSamples_eq_zero_iff]
  have hdouble : reader.gapSamples piece * 2 = 0 ↔ reader.gapSamples piece = 0 := by omega
  rw [hdouble]

/-- No sample of audio, and chunks less than one sample apart. -/
def Silent (reader : ChunkReader) (bucket : List ChunkBlob) : Prop :=
  (∀ blob ∈ bucket, pcmOf reader blob = []) ∧ (listAudioChunks bucket).IsChain
    fun (a b : ChunkBlob) => (b.timestamp - a.timestamp) * (reader.sampleRate : ℚ) < 1

theorem mergeLoop_eq_nil_iff {results : ℚ → Option Bytes} {chunks : List ChunkBlob}
    (hresults : ∀ blob ∈ chunks, results blob.timestamp = some (pcmOf reader blob))
    (currentTime : ℚ) :
    (reader.mergeLoop results currentTime (chunks.map fun blob => blob.timestamp)).flatMap
        reader.pieceBytes = [] ↔
      (∀ blob ∈ chunks, pcmOf reader blob = []) ∧
        (∀ first ∈ chunks.head?, (first.timestamp - currentTime) * reader.sampleRate < 1) ∧
        chunks.IsChain fun (a b : ChunkBlob) =>
          (b.timestamp - a.timestamp) * (reader.sampleRate : ℚ) < 1 := by
  induction chunks generalizing currentTime with
  | nil => simp [mergeLoop]
  | cons blob rest ih =>
    have hrest := ih (fun other hother => hresults other (List.mem_cons_of_mem blob hother))
      (blob.timestamp + reader.chunkDuration (pcmOf reader blob))
    rw [List.map_cons, mergeLoop, hresults blob List.mem_cons_self]
    simp only [List.flatMap_cons, List.append_eq_nil_iff, hrest, pieceBytes_eq_nil_iff,
      List.forall_mem_cons, List.head?_cons, Option.mem_some_iff, forall_eq', List.isChain_cons]
    constructor
    · rintro ⟨⟨hgap, hempty⟩, hall, hfirst, hchain⟩
      rw [hempty] at hfirst
      exact ⟨⟨hempty, hall⟩, hgap, by simpa [chunkDuration] using hfirst, hchain⟩
    · rintro ⟨⟨hempty, hall⟩, hgap, hfirst, hchain⟩
      rw [hempty]
      exact ⟨⟨hgap, rfl⟩, hall, by simpa [chunkDuration] using hfirst, hchain⟩

/-! ### The merge of a conversation -/

theorem sortBy_timestampsOf : sortBy id (timestampsOf bucket) = timestampsOf bucket := by
  have hsorted := sortBy_pairwise (fun blob : ChunkBlob => blob.timestamp) bucket
  exact List.Pairwise.insertionSort_eq (List.pairwise_map.mpr hsorted)

/-- What the loop adds for the chunks of a conversation. -/
def piecesOf (reader : ChunkReader) (bucket : List ChunkBlob) (completed : List DownloadJob) :
    List Piece :=
  reader.mergePieces (reader.chunkResults bucket completed) (timestampsOf bucket)

/-- No chunk's audio runs past the start of the next. -/
def NoOverrun (reader : ChunkReader) (bucket : List ChunkBlob) : Prop :=
  (listAudioChunks bucket).IsChain fun a b =>
    a.timestamp + reader.chunkDuration (pcmOf reader a) ≤ b.timestamp

/-- The audio is merged, with every chunk in it once and in order; and each starts at its offset
from the first, short of it by less than a sample for each gap, if none overruns the next. -/
structure MergesWhole (reader : ChunkReader) (bucket : List ChunkBlob)
    (completed : List DownloadJob) : Prop where
  data : reader.downloadAudioChunksAndMerge bucket (timestampsOf bucket) true completed =
    some ((piecesOf reader bucket completed).flatMap reader.pieceBytes)
  whole : (piecesOf reader bucket completed).map (fun piece => (piece.timestamp, piece.pcmData)) =
    (listAudioChunks bucket).map fun blob => (blob.timestamp, pcmOf reader blob)
  offsets : NoOverrun reader bucket → ∀ first ∈ (timestampsOf bucket).head?,
    ∀ front piece back, piecesOf reader bucket completed = front ++ piece :: back →
      Behind (gapCount (front ++ [piece]))
        ((piece.timestamp - first) * reader.sampleRate - startSamples reader front piece)

section merge
variable {completed : List DownloadJob}

theorem piecesOf_cons {first : ChunkBlob} {rest : List ChunkBlob}
    (h : listAudioChunks bucket = first :: rest) :
    piecesOf reader bucket completed =
      reader.mergeLoop (reader.chunkResults bucket completed) first.timestamp
        ((first :: rest).map fun blob => blob.timestamp) := by
  rw [piecesOf, mergePieces, sortBy_timestampsOf, timestampsOf, h]
  rfl

theorem piecesOf_nil (h : listAudioChunks bucket = []) : piecesOf reader bucket completed = [] := by
  rw [piecesOf, mergePieces, sortBy_timestampsOf, timestampsOf, h]
  rfl

theorem downloadAudioChunksAndMerge_eq :
    reader.downloadAudioChunksAndMerge bucket (timestampsOf bucket) true completed =
      if (piecesOf reader bucket completed).flatMap reader.pieceBytes = [] then none
      else some ((piecesOf reader bucket completed).flatMap reader.pieceBytes) := rfl

/-- A piece has the result of its own timestamp. -/
theorem mem_piecesOf {piece : Piece} (h : piece ∈ piecesOf reader bucket completed) :
    reader.chunkResults bucket completed piece.timestamp = some piece.pcmData := by
  cases hchunks : listAudioChunks bucket with
  | nil =>
    rw [piecesOf_nil hchunks] at h
    cases h
  | cons first rest =>
    rw [piecesOf_cons hchunks] at h
    exact mem_mergeLoop h

/-- Every chunk of a whole merge was found. -/
theorem MergesWhole.routed (h : MergesWhole reader bucket completed)
    (hdistinct : (bucket.map fun blob => blob.timestamp).Nodup)
    (hcompleted : completed.Perm (jobsOf bucket)) (hblob : blob ∈ bucket) :
    Routed bucket blob := by
  have hplaced : (blob.timestamp, pcmOf reader blob) ∈ (piecesOf reader bucket completed).map
      fun piece => (piece.timestamp, piece.pcmData) := by
    rw [h.whole]
    exact List.mem_map.mpr ⟨blob, mem_listAudioChunks.mpr hblob, rfl⟩
  obtain ⟨piece, hpiece, hsame⟩ := List.mem_map.mp hplaced
  have hresult := mem_piecesOf hpiece
  rw [(Prod.mk.inj hsame).1] at hresult
  exact routed_of_chunkResults hdistinct hcompleted hblob hresult

/-- Where every chunk has its audio, nothing is merged exactly when there is no sample. -/
theorem merged_eq_nil_iff
    (hresults : ∀ blob ∈ listAudioChunks bucket,
      reader.chunkResults bucket completed blob.timestamp = some (pcmOf reader blob)) :
    (piecesOf reader bucket completed).flatMap reader.pieceBytes = [] ↔ Silent reader bucket := by
  have hmem : ∀ blob, blob ∈ listAudioChunks bucket ↔ blob ∈ bucket := fun _ => mem_listAudioChunks
  simp only [Silent, ← hmem]
  cases hchunks : listAudioChunks bucket with
  | nil =>
    rw [piecesOf_nil hchunks]
    simp
  | cons first rest =>
    rw [hchunks] at hresults
    rw [piecesOf_cons hchunks, mergeLoop_eq_nil_iff hresults]
    simp

/-- The merge is whole exactly when no single chunk lies in the range of a batch, and there is a
sample to merge. -/
theorem mergesWhole_iff (hdistinct : (bucket.map fun blob => blob.timestamp).Nodup)
    (hdecodable : Decodable reader bucket) (hcompleted : completed.Perm (jobsOf bucket)) :
    MergesWhole reader bucket completed ↔
      (∀ chunk ∈ bucket, chunk.isBatch = false → ∀ batch ∈ bucket,
        batch.covers chunk.timestamp = false) ∧ ¬Silent reader bucket := by
  have hfound (hrouted : ∀ blob ∈ bucket, Routed bucket blob) : ∀ blob ∈ listAudioChunks bucket,
      reader.chunkResults bucket completed blob.timestamp = some (pcmOf reader blob) := by
    intro blob hblob
    rw [mem_listAudioChunks] at hblob
    exact chunkResults_routed hdistinct hdecodable hcompleted hblob (hrouted blob hblob)
  constructor
  · intro hwhole
    have hrouted : ∀ blob ∈ bucket, Routed bucket blob := fun blob hblob =>
      hwhole.routed hdistinct hcompleted hblob
    refine ⟨fun chunk hchunk hsingle => ?_, fun hsilent => ?_⟩
    · refine (hrouted chunk hchunk).resolve_left ?_
      rw [hsingle]
      exact Bool.false_ne_true
    · have hdata := hwhole.data
      rw [downloadAudioChunksAndMerge_eq, if_pos ((merged_eq_nil_iff (hfound hrouted)).mpr hsilent)]
        at hdata
      cases hdata
  · rintro ⟨huncovered, haudible⟩
    have hresults := hfound fun blob hblob => by
      cases hbatch : blob.isBatch with
      | true => exact .inl hbatch
      | false => exact .inr (huncovered blob hblob hbatch)
    have haudio := mt (merged_eq_nil_iff hresults).mp haudible
    cases hchunks : listAudioChunks bucket with
    | nil =>
      rw [piecesOf_nil hchunks] at haudio
      exact absurd rfl haudio
    | cons first rest =>
      rw [hchunks] at hresults
      refine ⟨?_, ?_, ?_⟩
      · rw [downloadAudioChunksAndMerge_eq, if_neg haudio]
      · rw [piecesOf_cons hchunks, hchunks]
        exact mergeLoop_routed hresults _
      · intro hoverrun timestamp hfirst front piece back hsplit
        rw [timestampsOf, hchunks] at hfirst
        obtain rfl : first.timestamp = timestamp := Option.some.inj hfirst
        rw [piecesOf_cons hchunks] at hsplit
        rw [NoOverrun, hchunks] at hoverrun
        refine mergeLoop_behind hresults ?_ hoverrun hsplit
        intro other hother
        rw [Option.some.inj hother]

end merge

/-! ### A conversation with every kind of chunk, and one with a chunk in a batch's range -/

def plainReader : ChunkReader where
  opus := rawOpus
  aead := markAead
  uid := "uid"
  frame_pos := defaultOpusFormat.frame_pos

def singleChunk : ChunkBlob where
  timestamp := 0
  kind := .single .bin
  content := [1, 1]
  millis := by decide +kernel
  ordered := by simp

def oneChunkBatch : ChunkBlob where
  timestamp := 1
  kind := .batch false
  content := [2, 2]
  millis := by decide +kernel
  ordered := by simp

def rangeBatch : ChunkBlob where
  timestamp := 2
  kind := .range 10 false
  content := [3, 3, 4, 4]
  millis := by decide +kernel
  ordered := by
    intro last encrypted h
    cases h
    norm_num

/-- In the range of the batch. -/
def coveredChunk : ChunkBlob where
  timestamp := 5
  kind := .single .bin
  content := [7, 7]
  millis := by decide +kernel
  ordered := by simp

theorem mergesWhole_apart :
    MergesWhole plainReader [rangeBatch, singleChunk, oneChunkBatch]
      (jobsOf [rangeBatch, singleChunk, oneChunkBatch]) := by
  have hdistinct : ([rangeBatch, singleChunk, oneChunkBatch].map
      fun blob => blob.timestamp).Nodup := by decide +kernel
  have hdecodable : Decodable plainReader [rangeBatch, singleChunk, oneChunkBatch] := by
    simp only [Decodable, List.forall_mem_cons]
    exact ⟨⟨_, rfl, rfl⟩, ⟨_, rfl, rfl⟩, ⟨_, rfl, rfl⟩, fun _ h => absurd h List.not_mem_nil⟩
  refine (mergesWhole_iff hdistinct hdecodable (List.Perm.refl _)).mpr ⟨?_, ?_⟩
  · decide +kernel
  · rintro ⟨hempty, -⟩
    cases hempty singleChunk (by simp)

theorem not_mergesWhole :
    ¬ ∀ (reader : ChunkReader) (bucket : List ChunkBlob) (completed : List DownloadJob),
      (bucket.map fun blob => blob.timestamp).Nodup → Decodable reader bucket →
      completed.Perm (jobsOf bucket) →
      ∀ merged ∈ reader.downloadAudioChunksAndMerge bucket (timestampsOf bucket) true completed,
        ∀ blob ∈ bucket, pcmOf reader blob <:+: merged := by
  intro hall
  have hdecodable : Decodable plainReader [rangeBatch, coveredChunk] := by
    simp only [Decodable, List.forall_mem_cons]
    exact ⟨⟨_, rfl, rfl⟩, ⟨_, rfl, rfl⟩, fun _ h => absurd h List.not_mem_nil⟩
  have hmerged : plainReader.downloadAudioChunksAndMerge [rangeBatch, coveredChunk]
      (timestampsOf [rangeBatch, coveredChunk]) true (jobsOf [rangeBatch, coveredChunk]) =
        some [3, 3, 4, 4] := by decide +kernel
  have hinfix := hall plainReader [rangeBatch, coveredChunk] _ (by decide +kernel) hdecodable
    (List.Perm.refl _) _ hmerged coveredChunk (by simp)
  have hpcm : pcmOf plainReader coveredChunk = [7, 7] := rfl
  rw [hpcm] at hinfix
  have hbyte : (7 : UInt8) ∈ [3, 3, 4, 4] := hinfix.subset List.mem_cons_self
  exact absurd hbyte (by decide)

end ChunkReader

end Omi.Storage
