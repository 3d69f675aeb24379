import Mathlib
import Omi.Foundation.PyText
import Omi.Foundation.StableSort

/-! The merge of offline transcript segments into a conversation that exists: two time bases,
the deduplication, the sort, and the new end of the conversation. -/
namespace Omi.Sync
open Omi.Foundation

/-- A segment as a dictionary, with the fields that the merge only carries along. -/
structure TranscriptSegment (α : Type*) where
  text : Option String
  start : ℚ
  stop : ℚ
  fields : α
deriving DecidableEq, Repr

/-- A segment whose `timestamp` has been assigned. -/
structure StampedSegment (α : Type*) extends TranscriptSegment α where
  timestamp : ℚ
deriving DecidableEq, Repr

variable {α : Type*}

def TranscriptSegment.stamped (segment : TranscriptSegment α) (base : ℚ) : StampedSegment α :=
  { segment with timestamp := base + segment.start }

/-! ### Deduplication -/

def mergeTextDupSlopSeconds : ℚ := 10 * 60
def mergeTextDupDurationRatio : ℚ := 1 / 4
def mergeTextDupMinChars : ℕ := 20
def mergeTextDupMinWords : ℕ := 4

section dedupe
variable (lower : String → String)

/-- `str.lower` is `lower`. -/
def normalizeMergeSegmentText (text : Option String) : String :=
  " ".intercalate (splitWords (lower (strip (text.getD ""))))

def textEligibleForSlopDedupe (text : String) : Bool :=
  mergeTextDupMinChars ≤ text.length || mergeTextDupMinWords ≤ (splitWords text).length

def segmentAbsRange (segment : StampedSegment α) : ℚ × ℚ :=
  (segment.timestamp, segment.timestamp + (segment.stop - segment.start))

/-- `(round(start, 2), round(end, 2))`. -/
def rangeKey (start stop : ℚ) : ℚ × ℚ :=
  (roundHalfEven (start * 100) / 100, roundHalfEven (stop * 100) / 100)

structure TextIndexEntry where
  text : String
  absStart : ℚ
  duration : ℚ

def isTextClockOffsetDuplicate (text : String) (absStart duration : ℚ)
    (existingTextIndex : List TextIndexEntry) : Bool :=
  textEligibleForSlopDedupe text && existingTextIndex.any fun existing =>
    existing.text == text &&
      decide (|duration - existing.duration| / max (max duration existing.duration) (1 / 1000)
        ≤ mergeTextDupDurationRatio) &&
      decide (|absStart - existing.absStart| ≤ mergeTextDupSlopSeconds)

def existingTextIndex (existingSegments : List (StampedSegment α)) : List TextIndexEntry :=
  existingSegments.filterMap fun segment =>
    let text := normalizeMergeSegmentText lower segment.text
    let range := segmentAbsRange segment
    if text = "" then none else some ⟨text, range.1, max 0 (range.2 - range.1)⟩

/-- The segments whose exact range is on neither of the conversation's time lines. -/
def rangeSurvivors (conversationStartedAt : ℚ)
    (existingSegments incomingSegments : List (StampedSegment α)) : List (StampedSegment α) :=
  let existingAbs := existingSegments.map fun segment =>
    rangeKey (segmentAbsRange segment).1 (segmentAbsRange segment).2
  let existingRel := existingSegments.map fun segment => rangeKey segment.start segment.stop
  incomingSegments.filter fun segment =>
    let range := segmentAbsRange segment
    rangeKey range.1 range.2 ∉ existingAbs &&
      rangeKey (range.1 - conversationStartedAt) (range.2 - conversationStartedAt) ∉ existingRel

def textDupFlag (index : List TextIndexEntry) (segment : StampedSegment α) : Bool :=
  let range := segmentAbsRange segment
  isTextClockOffsetDuplicate (normalizeMergeSegmentText lower segment.text) range.1
    (max 0 (range.2 - range.1)) index

def dedupeSegmentsForMerge (conversationStartedAt : ℚ)
    (existingSegments incomingSegments : List (StampedSegment α)) : List (StampedSegment α) :=
  let index := existingTextIndex lower existingSegments
  let survivors := rangeSurvivors conversationStartedAt existingSegments incomingSegments
  if survivors.isEmpty || index.isEmpty then survivors
  else
    let textDupCount := survivors.countP (textDupFlag lower index)
    let applyTextDedupe :=
      2 ≤ textDupCount || (textDupCount == survivors.length && 1 ≤ textDupCount)
    if applyTextDedupe then survivors.filter fun segment => !textDupFlag lower index segment
    else survivors

/-- Deduplication only leaves segments out. -/
theorem dedupe_sublist (conversationStartedAt : ℚ)
    (existingSegments incomingSegments : List (StampedSegment α)) :
    (dedupeSegmentsForMerge lower conversationStartedAt existingSegments
      incomingSegments).Sublist incomingSegments := by
  have hrange : (rangeSurvivors conversationStartedAt existingSegments
      incomingSegments).Sublist incomingSegments := List.filter_sublist
  unfold dedupeSegmentsForMerge
  dsimp only
  split_ifs
  · exact hrange
  · exact List.filter_sublist.trans hrange
  · exact hrange

end dedupe

/-! ### The merge -/

/-- `closest_memory`. -/
structure ClosestConversation (α : Type*) where
  startedAt : ℚ
  finishedAt : ℚ
  transcriptSegments : List (TranscriptSegment α)

/-- What `update_conversation_segments` is called with. -/
structure StoredMerge (α : Type*) where
  segments : List (TranscriptSegment α)
  finishedAt : ℚ
deriving DecidableEq

namespace ClosestConversation
variable (lower : String → String) (closest : ClosestConversation α) (timestamp : ℚ)
  (transcriptSegments : List (TranscriptSegment α))

def existingSegments : List (StampedSegment α) :=
  closest.transcriptSegments.map fun segment => segment.stamped closest.startedAt

def dedupedSegments : List (StampedSegment α) :=
  dedupeSegmentsForMerge lower closest.startedAt closest.existingSegments
    (transcriptSegments.map fun segment => segment.stamped timestamp)

/-- The segment relative to the conversation, without its timestamp. -/
def relative (segment : StampedSegment α) : TranscriptSegment α :=
  let duration := segment.stop - segment.start
  let start := segment.timestamp - closest.startedAt
  { segment.toTranscriptSegment with start := start, stop := start + duration }

/-- What is stored, unless every segment is there already. -/
def mergeIntoClosest : Option (StoredMerge α) :=
  let deduped := closest.dedupedSegments lower timestamp transcriptSegments
  if deduped.isEmpty then none
  else
    let sorted := sortBy StampedSegment.timestamp (closest.existingSegments ++ deduped)
    let segments := sorted.map closest.relative
    let lastSegmentEnd := (segments.getLast?.map TranscriptSegment.stop).getD 0
    let newFinishedAt := closest.startedAt + lastSegmentEnd
    some {
      segments := segments
      finishedAt := if newFinishedAt < closest.finishedAt then closest.finishedAt
        else newFinishedAt }

/-! ### What the claim says -/

/-- The segments that the result is to hold. -/
def merged : List (StampedSegment α) :=
  closest.existingSegments ++ closest.dedupedSegments lower timestamp transcriptSegments

/-- What a segment says and when: its text and other fields, its absolute start, its duration. -/
def placed (segment : StampedSegment α) : Option String × α × ℚ × ℚ :=
  (segment.text, segment.fields, segment.timestamp, segment.stop - segment.start)

/-- The stored segments are those to be held, at their absolute starts, sorted; the end of the
conversation does not go back. -/
structure KeepsSegments (stored : StoredMerge α) : Prop where
  perm : (stored.segments.map fun segment => placed (segment.stamped closest.startedAt)).Perm
    ((closest.merged lower timestamp transcriptSegments).map placed)
  sorted : stored.segments.Pairwise fun a b => a.start ≤ b.start
  finished : closest.finishedAt ≤ stored.finishedAt

/-- No segment starts before the conversation or ends after it. -/
structure Within (stored : StoredMerge α) : Prop where
  nonneg : ∀ segment ∈ stored.segments, 0 ≤ segment.start
  ends : ∀ segment ∈ stored.segments, closest.startedAt + segment.stop ≤ stored.finishedAt

/-- No segment starts before the conversation, and none ends after both the old end of the
conversation and the segment that starts last. -/
def EndsInOrder (segments : List (StampedSegment α)) : Prop :=
  ∀ segment ∈ segments, closest.startedAt ≤ segment.timestamp ∧
    ∀ last, ComesLast StampedSegment.timestamp segments last →
      (segmentAbsRange segment).2 ≤ max closest.finishedAt (segmentAbsRange last).2

variable {closest}

@[simp] theorem startedAt_add_relative_stop (segment : StampedSegment α) :
    closest.startedAt + (closest.relative segment).stop = (segmentAbsRange segment).2 := by
  simp only [relative, segmentAbsRange]
  ring

theorem placed_relative (segment : StampedSegment α) :
    placed ((closest.relative segment).stamped closest.startedAt) = placed segment := by
  simp [placed, relative, TranscriptSegment.stamped]

variable {lower timestamp transcriptSegments}

/-- The stored merge, with its end read off the segment that starts last. -/
theorem mergeIntoClosest_eq_some {stored : StoredMerge α}
    (h : closest.mergeIntoClosest lower timestamp transcriptSegments = some stored) :
    closest.dedupedSegments lower timestamp transcriptSegments ≠ [] ∧
      stored.segments = (sortBy StampedSegment.timestamp
        (closest.merged lower timestamp transcriptSegments)).map closest.relative ∧
      ∃ last, ComesLast StampedSegment.timestamp
          (closest.merged lower timestamp transcriptSegments) last ∧
        stored.finishedAt = max closest.finishedAt (segmentAbsRange last).2 := by
  have hempty : closest.dedupedSegments lower timestamp transcriptSegments ≠ [] := by
    intro hnil
    simp [mergeIntoClosest, hnil] at h
  simp only [mergeIntoClosest, List.isEmpty_iff, if_neg hempty] at h
  cases h
  refine ⟨hempty, rfl, ?_⟩
  have hsome : (sortBy StampedSegment.timestamp
      (closest.merged lower timestamp transcriptSegments)).getLast?.isSome := by
    rw [List.getLast?_isSome]
    intro hnil
    have hperm := sortBy_perm StampedSegment.timestamp
      (closest.merged lower timestamp transcriptSegments)
    rw [hnil] at hperm
    exact hempty (List.append_eq_nil_iff.mp hperm.nil_eq.symm).2
  obtain ⟨last, hlast⟩ := Option.isSome_iff_exists.mp hsome
  refine ⟨last, getLast?_sortBy.mp hlast, ?_⟩
  have hmerged : closest.existingSegments ++
      closest.dedupedSegments lower timestamp transcriptSegments =
        closest.merged lower timestamp transcriptSegments := rfl
  simp only [hmerged, List.getLast?_map, hlast, Option.map_some, Option.getD_some,
    startedAt_add_relative_stop]
  rcases lt_or_ge (segmentAbsRange last).2 closest.finishedAt with hlt | hge
  · rw [if_pos hlt, max_eq_left hlt.le]
  · rw [if_neg (not_lt.mpr hge), max_eq_right hge]

theorem keepsSegments {stored : StoredMerge α}
    (h : closest.mergeIntoClosest lower timestamp transcriptSegments = some stored) :
    closest.KeepsSegments lower timestamp transcriptSegments stored := by
  obtain ⟨-, hsegments, last, -, hfinished⟩ := mergeIntoClosest_eq_some h
  constructor
  · rw [hsegments, List.map_map]
    have hplaced : (fun segment => placed (segment.stamped closest.startedAt)) ∘ closest.relative =
        placed := funext placed_relative
    rw [hplaced]
    exact (sortBy_perm _ _).map placed
  · rw [hsegments, List.pairwise_map]
    refine (sortBy_pairwise StampedSegment.timestamp _).imp fun hle => ?_
    exact sub_le_sub_right hle closest.startedAt
  · rw [hfinished]
    exact le_max_left _ _

theorem within_iff {stored : StoredMerge α}
    (h : closest.mergeIntoClosest lower timestamp transcriptSegments = some stored) :
    closest.Within stored ↔
      closest.EndsInOrder (closest.merged lower timestamp transcriptSegments) := by
  obtain ⟨-, hsegments, last, hlast, hfinished⟩ := mergeIntoClosest_eq_some h
  have hmem : ∀ segment, segment ∈ stored.segments ↔
      ∃ source ∈ closest.merged lower timestamp transcriptSegments,
        closest.relative source = segment := by
    intro segment
    rw [hsegments, List.mem_map]
    simp only [mem_sortBy]
  constructor
  · rintro ⟨hnonneg, hends⟩ segment hsegment
    have hstored := (hmem _).mpr ⟨segment, hsegment, rfl⟩
    constructor
    · have hstart : 0 ≤ segment.timestamp - closest.startedAt := hnonneg _ hstored
      linarith
    · intro other hother
      have hsame : some other = some last := by
        rw [← getLast?_sortBy.mpr hother, getLast?_sortBy.mpr hlast]
      cases hsame
      have hend := hends _ hstored
      rwa [startedAt_add_relative_stop, hfinished] at hend
  · intro horder
    constructor
    · intro segment hsegment
      obtain ⟨source, hsource, rfl⟩ := (hmem segment).mp hsegment
      exact sub_nonneg.mpr (horder source hsource).1
    · intro segment hsegment
      obtain ⟨source, hsource, rfl⟩ := (hmem segment).mp hsegment
      rw [startedAt_add_relative_stop, hfinished]
      exact (horder source hsource).2 last hlast

end ClosestConversation

open ClosestConversation

/-- A stored merge keeps every segment's time and order always, and lies between the start and
the end of its conversation exactly when no segment that it gets starts before the one or ends
after both the old end and the segment that starts last. -/
theorem mergeTimeline_iff (lower : String → String) (closest : ClosestConversation α)
    (timestamp : ℚ) (segments : List (TranscriptSegment α)) :
    (closest.dedupedSegments lower timestamp segments).Sublist
        (segments.map fun segment => segment.stamped timestamp) ∧
      (∀ stored, closest.mergeIntoClosest lower timestamp segments = some stored →
        closest.KeepsSegments lower timestamp segments stored) ∧
      ((∀ stored, closest.mergeIntoClosest lower timestamp segments = some stored →
        closest.Within stored) ↔
          (closest.dedupedSegments lower timestamp segments ≠ [] →
            closest.EndsInOrder (closest.merged lower timestamp segments))) := by
  refine ⟨dedupe_sublist lower _ _ _, fun stored h => keepsSegments h, ?_⟩
  constructor
  · intro hwithin hdeduped
    have hstored : ∃ stored, closest.mergeIntoClosest lower timestamp segments = some stored := by
      simp [mergeIntoClosest, hdeduped]
    obtain ⟨stored, h⟩ := hstored
    exact (within_iff h).mp (hwithin stored h)
  · intro horder stored h
    exact (within_iff h).mpr (horder (mergeIntoClosest_eq_some h).1)

/-- A segment from before the conversation gets a negative start. Of two nested segments the
one that starts last sets the end, and the longer one ends after it. -/
theorem not_mergeTimeline :
    (¬ ∀ stored, (ClosestConversation.mk 100 110 ([] : List (TranscriptSegment Unit))
      ).mergeIntoClosest id 90 [⟨none, 0, 5, ()⟩] = some stored →
        (ClosestConversation.mk 100 110 ([] : List (TranscriptSegment Unit))).Within stored) ∧
    ¬ ∀ stored, (ClosestConversation.mk 100 110 ([] : List (TranscriptSegment Unit))
      ).mergeIntoClosest id 105 [⟨none, 0, 60, ()⟩, ⟨none, 5, 10, ()⟩] = some stored →
        (ClosestConversation.mk 100 110 ([] : List (TranscriptSegment Unit))).Within stored := by
  constructor
  · intro h
    have hwithin := h ⟨[⟨none, -10, -5, ()⟩], 110⟩ (by decide +kernel)
    exact absurd (hwithin.nonneg ⟨none, -10, -5, ()⟩ (by simp)) (by norm_num)
  · intro h
    have hwithin := h ⟨[⟨none, 5, 65, ()⟩, ⟨none, 10, 15, ()⟩], 115⟩ (by decide +kernel)
    exact absurd (hwithin.ends ⟨none, 5, 65, ()⟩ (by simp)) (by norm_num)

end Omi.Sync
