import Mathlib.Data.Rat.Floor
import Omi.Foundation.Bisect
import Omi.Foundation.PieceMap
import Omi.Foundation.StableSort

/-! The two timelines of a conversation's playback artifact: the wall clock, with gaps, and the
artifact, in which the recorded spans follow one another. Times are exact. -/
namespace Omi.Playback
open Omi.Foundation

structure ConversationAudioSpan where
  fileId : String
  wallOffset : ℚ
  artifactOffset : ℚ
  len : ℚ
deriving DecidableEq, Repr

namespace ConversationAudioSpan

def wallEnd (span : ConversationAudioSpan) : ℚ := span.wallOffset + span.len

def artifactEnd (span : ConversationAudioSpan) : ℚ := span.artifactOffset + span.len

end ConversationAudioSpan

open ConversationAudioSpan

structure AudioTimelineMapper where
  spans : List ConversationAudioSpan

namespace AudioTimelineMapper

/-- The constructor sorts the spans. -/
def new (spans : List ConversationAudioSpan) : AudioTimelineMapper :=
  { spans := sortBy wallOffset spans }

def capturedDuration (mapper : AudioTimelineMapper) : ℚ :=
  (mapper.spans.getLast?.map artifactEnd).getD 0

def wallDuration (mapper : AudioTimelineMapper) : ℚ :=
  (mapper.spans.getLast?.map wallEnd).getD 0

/-- The body that both directions share: `source` is the axis that is read, `target` the one
that is answered, `clamped` the answer behind the last span. -/
def mapAcross (source target : ConversationAudioSpan → ℚ) (clamped : ℚ) :
    List ConversationAudioSpan → ℚ → ℚ
  | [], _ => 0
  | first :: rest, seconds =>
    if seconds ≤ source first then target first
    else
      have hhi : rest.length < ((first :: rest).map source).length := by simp
      let lo := lastAtMostFrom ((first :: rest).map source) seconds 0 rest.length hhi
      have hlo : lo < (first :: rest).length :=
        Nat.lt_succ_of_le (lastAtMostFrom_le _ _ _ _ hhi (Nat.zero_le _))
      let span := (first :: rest)[lo]
      if seconds ≤ source span + span.len then target span + (seconds - source span)
      else ((first :: rest)[lo + 1]?.map target).getD clamped

/-- Wall-clock seconds to seconds of the artifact; a gap snaps forward to the next span. -/
def wallToArtifact (mapper : AudioTimelineMapper) (wallSeconds : ℚ) : ℚ :=
  mapAcross wallOffset artifactOffset mapper.capturedDuration mapper.spans wallSeconds

/-- Seconds of the artifact to wall-clock seconds. -/
def artifactToWall (mapper : AudioTimelineMapper) (artifactSeconds : ℚ) : ℚ :=
  mapAcross artifactOffset wallOffset mapper.wallDuration mapper.spans artifactSeconds

/-- Only inside a span, its end not included. -/
def wallToArtifactStrict (mapper : AudioTimelineMapper) (wallSeconds : ℚ) : Option ℚ :=
  (mapper.spans.find? fun span => span.wallOffset ≤ wallSeconds ∧ wallSeconds < span.wallEnd).map
    fun span => span.artifactOffset + (wallSeconds - span.wallOffset)

/-! ### The search finds the span of the map across -/

theorem mapAcross_eq_across {source target : ConversationAudioSpan → ℚ}
    {spans : List ConversationAudioSpan} (hpos : ∀ span ∈ spans, 0 < span.len)
    (hapart : Apart source len spans) (seconds : ℚ) :
    mapAcross source target (lastEnd target len spans) spans seconds =
      across source target len (lastEnd target len spans) spans seconds := by
  cases spans with
  | nil => rfl
  | cons first rest =>
    rw [mapAcross]
    split_ifs with hbefore
    · exact (across_of_le hbefore).symm
    · have hhi : rest.length < ((first :: rest).map source).length := by simp
      have hsorted : ((first :: rest).map source).Pairwise (· ≤ ·) := by
        rw [List.pairwise_map]
        refine hapart.imp_of_mem fun {a b} ha _ hab => ?_
        have hlen := hpos a ha
        linarith
      have hspec := lastAtMostFrom_spec hsorted seconds 0 rest.length hhi (Nat.zero_le _)
        (fun _ => (not_le.mp hbefore).le)
        (fun j hj hlt => absurd hj (by simp only [List.length_map, List.length_cons]; omega))
      have hle := lastAtMostFrom_le ((first :: rest).map source) seconds 0 rest.length hhi
        (Nat.zero_le _)
      have hlo : lastAtMostFrom ((first :: rest).map source) seconds 0 rest.length hhi <
          (first :: rest).length := Nat.lt_succ_of_le hle
      have hstart : source (first :: rest)[lastAtMostFrom ((first :: rest).map source) seconds 0
          rest.length hhi] ≤ seconds := by
        have hmark := hspec.1 (by simpa using hlo)
        rwa [List.getElem_map] at hmark
      have hlast : ∀ next ∈ (first :: rest)[lastAtMostFrom ((first :: rest).map source) seconds 0
          rest.length hhi + 1]?, seconds < source next := by
        intro next hnext
        obtain ⟨hbound, rfl⟩ := List.getElem?_eq_some_iff.mp hnext
        have hmark := hspec.2 _ (by simpa using hbound) (Nat.lt_succ_self _)
        rwa [List.getElem_map] at hmark
      exact (across_of_last hpos hapart _ seconds _ hlo hstart hlast).symm

/-! ### Dense timelines -/

/-- Spans of positive length, ordered and non-overlapping on the wall clock, that follow one
another in the artifact from its beginning. -/
structure DenseTimeline (spans : List ConversationAudioSpan) : Prop where
  positive : ∀ span ∈ spans, 0 < span.len
  ordered : Apart wallOffset ConversationAudioSpan.len spans
  contiguous : Contiguous artifactOffset ConversationAudioSpan.len spans
  fromZero : ∀ first ∈ spans.head?, first.artifactOffset = 0

section maps
variable {spans : List ConversationAudioSpan}

/-- The wall time is in the half-open interval of a span. -/
def Recorded (spans : List ConversationAudioSpan) (wallSeconds : ℚ) : Prop :=
  ∃ span ∈ spans, span.wallOffset ≤ wallSeconds ∧ wallSeconds < span.wallEnd

theorem spans_new (h : DenseTimeline spans) : (new spans).spans = spans := by
  apply List.Pairwise.insertionSort_eq
  refine h.ordered.imp_of_mem fun {a b} ha _ hab => ?_
  have hlen := h.positive a ha
  linarith

theorem wallToArtifact_new (h : DenseTimeline spans) : (new spans).wallToArtifact =
    across wallOffset artifactOffset ConversationAudioSpan.len
      (lastEnd artifactOffset ConversationAudioSpan.len spans) spans := by
  funext seconds
  have hend : (new spans).capturedDuration =
      lastEnd artifactOffset ConversationAudioSpan.len spans := by
    rw [capturedDuration, spans_new h]
    rfl
  rw [wallToArtifact, hend, spans_new h]
  exact mapAcross_eq_across h.positive h.ordered seconds

theorem artifactToWall_new (h : DenseTimeline spans) : (new spans).artifactToWall =
    across artifactOffset wallOffset ConversationAudioSpan.len
      (lastEnd wallOffset ConversationAudioSpan.len spans) spans := by
  funext seconds
  have hend : (new spans).wallDuration = lastEnd wallOffset ConversationAudioSpan.len spans := by
    rw [wallDuration, spans_new h]
    rfl
  rw [artifactToWall, hend, spans_new h]
  exact mapAcross_eq_across h.positive (h.contiguous.apart h.positive) seconds

theorem wallToArtifactStrict_eq_some (h : DenseTimeline spans) {wallSeconds seconds : ℚ}
    (hstrict : (new spans).wallToArtifactStrict wallSeconds = some seconds) :
    Recorded spans wallSeconds ∧ (new spans).wallToArtifact wallSeconds = seconds := by
  rw [wallToArtifactStrict, spans_new h] at hstrict
  obtain ⟨span, hfound, rfl⟩ := Option.map_eq_some_iff.mp hstrict
  have hmem : span ∈ spans := List.mem_of_find?_eq_some hfound
  have hinside : span.wallOffset ≤ wallSeconds ∧ wallSeconds < span.wallEnd := by
    simpa using List.find?_some hfound
  refine ⟨⟨span, hmem, hinside⟩, ?_⟩
  rw [wallToArtifact_new h]
  exact across_of_mem _ h.positive h.ordered _ hmem hinside.1 hinside.2

theorem isSome_wallToArtifactStrict_iff (h : DenseTimeline spans) (wallSeconds : ℚ) :
    ((new spans).wallToArtifactStrict wallSeconds).isSome ↔ Recorded spans wallSeconds := by
  constructor
  · intro hsome
    obtain ⟨seconds, hstrict⟩ := Option.isSome_iff_exists.mp hsome
    exact (wallToArtifactStrict_eq_some h hstrict).1
  · rintro ⟨span, hmem, hinside⟩
    rw [wallToArtifactStrict, spans_new h, Option.isSome_map, List.find?_isSome]
    exact ⟨span, hmem, by simpa using hinside⟩

end maps
end AudioTimelineMapper

/-! ### The manifest of a conversation's artifact -/

def audioSampleRate : ℕ := 16000

/-- PCM16 mono. -/
def pcmBytesPerSecond : ℕ := audioSampleRate * 2

/-- An audio file of the conversation, and how many bytes its chunks merge to: `none` where all
of them are gone. -/
structure ConversationPart where
  fileId : String
  chunkTimestamps : List ℚ
  pcmBytes : Option ℕ

namespace ConversationPart

/-- `sorted(chunk_timestamps)[0]`. -/
def start (part : ConversationPart) : ℚ := (sortBy id part.chunkTimestamps).headD 0

def seconds (part : ConversationPart) : ℚ := part.pcmBytes.getD 0 / pcmBytesPerSecond

end ConversationPart

section manifest
variable (round : ℚ → ℚ) (startedAtTs : ℚ)

/-- The parts that can be built, in the order of their first chunk. -/
def partsInOrder (audioFiles : List ConversationPart) : List ConversationPart :=
  sortBy ConversationPart.start
    (audioFiles.filter fun part => part.fileId ≠ "" ∧ part.chunkTimestamps ≠ [])

/-- The loop over the parts, `pcmBuf` bytes into the artifact; `round` is the rounding to three
places. -/
def spansFrom (pcmBuf : ℕ) : List ConversationPart → List ConversationAudioSpan
  | [] => []
  | part :: rest =>
    if part.pcmBytes.getD 0 = 0 then spansFrom pcmBuf rest
    else
      { fileId := part.fileId
        wallOffset := round (part.start - startedAtTs)
        artifactOffset := round (pcmBuf / pcmBytesPerSecond)
        len := round part.seconds } :: spansFrom (pcmBuf + part.pcmBytes.getD 0) rest

/-- The spans of `build_conversation_playback_artifact`. -/
def conversationSpans (audioFiles : List ConversationPart) : List ConversationAudioSpan :=
  spansFrom round startedAtTs 0 (partsInOrder audioFiles)

theorem mem_spansFrom {pcmBuf : ℕ} {parts : List ConversationPart} {span : ConversationAudioSpan}
    (h : span ∈ spansFrom id startedAtTs pcmBuf parts) :
    ∃ part ∈ parts, part.pcmBytes.getD 0 ≠ 0 ∧ span.wallOffset = part.start - startedAtTs ∧
      span.len = part.seconds := by
  induction parts generalizing pcmBuf with
  | nil => cases h
  | cons part rest ih =>
    rw [spansFrom] at h
    split_ifs at h with hempty
    · obtain ⟨other, hother, hspan⟩ := ih h
      exact ⟨other, List.mem_cons_of_mem _ hother, hspan⟩
    · rcases List.mem_cons.mp h with rfl | h
      · exact ⟨part, List.mem_cons_self, hempty, rfl, rfl⟩
      · obtain ⟨other, hother, hspan⟩ := ih h
        exact ⟨other, List.mem_cons_of_mem _ hother, hspan⟩

theorem head_spansFrom {pcmBuf : ℕ} {parts : List ConversationPart}
    {first : ConversationAudioSpan}
    (h : first ∈ (spansFrom id startedAtTs pcmBuf parts).head?) :
    first.artifactOffset = pcmBuf / pcmBytesPerSecond := by
  induction parts with
  | nil => cases h
  | cons part rest ih =>
    rw [spansFrom] at h
    split_ifs at h
    · exact ih h
    · cases h
      rfl

theorem contiguous_spansFrom (pcmBuf : ℕ) (parts : List ConversationPart) :
    Contiguous ConversationAudioSpan.artifactOffset ConversationAudioSpan.len
      (spansFrom id startedAtTs pcmBuf parts) := by
  induction parts generalizing pcmBuf with
  | nil => exact List.IsChain.nil
  | cons part rest ih =>
    rw [spansFrom]
    split_ifs
    · exact ih pcmBuf
    · refine List.isChain_cons.mpr ⟨fun next hnext => ?_, ih _⟩
      rw [head_spansFrom startedAtTs hnext]
      simp only [id, ConversationPart.seconds]
      push_cast
      ring

/-- Without rounding, parts whose audio ends before the next part starts give a dense
timeline. -/
theorem dense_conversationSpans (audioFiles : List ConversationPart)
    (hapart : (partsInOrder audioFiles).Pairwise fun a b => a.start + a.seconds ≤ b.start) :
    AudioTimelineMapper.DenseTimeline (conversationSpans id startedAtTs audioFiles) where
  positive := by
    intro span hspan
    obtain ⟨part, -, hbytes, -, hlen⟩ := mem_spansFrom startedAtTs hspan
    have hpos : 0 < part.pcmBytes.getD 0 := Nat.pos_of_ne_zero hbytes
    rw [hlen, ConversationPart.seconds]
    have hrate : 0 < pcmBytesPerSecond := by decide
    positivity
  ordered := by
    have hloop : ∀ (pcmBuf : ℕ) (parts : List ConversationPart),
        (parts.Pairwise fun a b => a.start + a.seconds ≤ b.start) →
          Apart wallOffset ConversationAudioSpan.len
            (spansFrom id startedAtTs pcmBuf parts) := by
      intro pcmBuf parts hparts
      induction parts generalizing pcmBuf with
      | nil => exact List.Pairwise.nil
      | cons part rest ih =>
        obtain ⟨hbehind, hrest⟩ := List.pairwise_cons.mp hparts
        rw [spansFrom]
        split_ifs
        · exact ih _ hrest
        · refine List.pairwise_cons.mpr ⟨fun span hspan => ?_, ih _ hrest⟩
          obtain ⟨other, hother, -, hwall, -⟩ := mem_spansFrom startedAtTs hspan
          have hle := hbehind other hother
          rw [hwall]
          simp only [id]
          linarith
    exact hloop 0 _ hapart
  contiguous := contiguous_spansFrom startedAtTs 0 _
  fromZero := by
    intro first hfirst
    rw [head_spansFrom startedAtTs hfirst, Nat.cast_zero, zero_div]

end manifest

/-! ### The maps are inverse -/

namespace AudioTimelineMapper

/-- What the two maps and the strict one are to each other. -/
structure InverseMaps (spans : List ConversationAudioSpan) (mapper : AudioTimelineMapper) :
    Prop where
  wallToArtifact_mono : Monotone mapper.wallToArtifact
  artifactToWall_mono : Monotone mapper.artifactToWall
  roundTrip : ∀ seconds, 0 ≤ seconds → seconds ≤ mapper.capturedDuration →
    mapper.wallToArtifact (mapper.artifactToWall seconds) = seconds
  recorded : ∀ seconds, Recorded spans seconds →
    mapper.artifactToWall (mapper.wallToArtifact seconds) = seconds
  snapped : ∀ seconds, ¬ Recorded spans seconds →
    mapper.artifactToWall (mapper.wallToArtifact seconds) =
      nextStart wallOffset ConversationAudioSpan.len spans seconds
  strict_iff : ∀ seconds, (mapper.wallToArtifactStrict seconds).isSome ↔ Recorded spans seconds
  strict_eq : ∀ seconds artifactSeconds,
    mapper.wallToArtifactStrict seconds = some artifactSeconds →
      mapper.wallToArtifact seconds = artifactSeconds

/-- On a dense timeline the two maps are monotone and inverse to each other. -/
theorem timelineMapsInverse (spans : List ConversationAudioSpan) (h : DenseTimeline spans) :
    InverseMaps spans (new spans) where
  wallToArtifact_mono := by
    rw [wallToArtifact_new h]
    exact across_mono h.positive (h.contiguous.apart h.positive)
  artifactToWall_mono := by
    rw [artifactToWall_new h]
    exact across_mono h.positive h.ordered
  roundTrip := by
    intro seconds hstart hend
    rw [wallToArtifact_new h, artifactToWall_new h]
    rw [capturedDuration, spans_new h] at hend
    cases hspans : spans with
    | nil =>
      rw [hspans] at hend
      exact le_antisymm hstart hend
    | cons first rest =>
      rw [← hspans]
      refine across_across_of_contiguous h.positive h.ordered h.contiguous ?_ hend (by simp [hspans])
      intro p hp
      rw [h.fromZero p hp]
      exact hstart
  recorded := by
    rintro seconds ⟨span, hspan, hstart, hend⟩
    rw [wallToArtifact_new h, artifactToWall_new h]
    exact across_across_of_mem h.positive h.ordered h.contiguous hspan hstart hend
  snapped := by
    intro seconds hout
    rw [wallToArtifact_new h, artifactToWall_new h]
    refine across_across_of_not_mem h.positive h.ordered h.contiguous fun span hspan hstart => ?_
    by_contra hnot
    exact hout ⟨span, hspan, hstart, not_le.mp hnot⟩
  strict_iff := isSome_wallToArtifactStrict_iff h
  strict_eq := fun _ _ hstrict => (wallToArtifactStrict_eq_some h hstrict).2

/-- Two spans with a gap of 190 seconds on the wall clock. -/
theorem timelineMapsInverse_gap :
    InverseMaps [⟨"A", 10, 0, 10⟩, ⟨"B", 210, 10, 5⟩]
      (new [⟨"A", 10, 0, 10⟩, ⟨"B", 210, 10, 5⟩]) := by
  apply timelineMapsInverse
  constructor
  · simp
  · norm_num [Apart]
  · norm_num [Contiguous]
  · simp

end AudioTimelineMapper
end Omi.Playback
