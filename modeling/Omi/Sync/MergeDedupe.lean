import Mathlib
import Omi.Sync.MergeTimeline

/-! A merge that is tried again: what the deduplication dropped has its duplicate, and the second
merge of the same segments adds nothing. -/
namespace Omi.Sync
open Omi.Foundation

variable {α : Type*}

/-- The key of a segment's absolute range. -/
def absKey (segment : StampedSegment α) : ℚ × ℚ :=
  rangeKey (segmentAbsRange segment).1 (segmentAbsRange segment).2

/-- The key of a segment's range on the conversation's own time line. -/
def relKey (segment : StampedSegment α) : ℚ × ℚ := rangeKey segment.start segment.stop

/-- Where an incoming segment would lie on the conversation's time line. -/
def conversationKey (conversationStartedAt : ℚ) (segment : StampedSegment α) : ℚ × ℚ :=
  rangeKey ((segmentAbsRange segment).1 - conversationStartedAt)
    ((segmentAbsRange segment).2 - conversationStartedAt)

section dedupe
variable (lower : String → String) (conversationStartedAt : ℚ)

/-- The entry of a segment in the text index, where its text is not empty. -/
def textEntry (segment : StampedSegment α) : Option TextIndexEntry :=
  let text := normalizeMergeSegmentText lower segment.text
  let range := segmentAbsRange segment
  if text = "" then none else some ⟨text, range.1, max 0 (range.2 - range.1)⟩

/-- The same text within the slop. -/
def TextDuplicate (segment existing : StampedSegment α) : Prop :=
  textDupFlag lower (textEntry lower existing).toList segment = true

/-- The duplicate predicate: the same absolute range, the same range in the conversation, or the
same text within the slop. -/
def Duplicate (segment existing : StampedSegment α) : Prop :=
  absKey segment = absKey existing ∨
    conversationKey conversationStartedAt segment = relKey existing ∨
    TextDuplicate lower segment existing

variable {lower conversationStartedAt} {existing incoming : List (StampedSegment α)}
  {segment : StampedSegment α}

theorem textDupFlag_iff :
    textDupFlag lower (existingTextIndex lower existing) segment = true ↔
      ∃ other ∈ existing, TextDuplicate lower segment other := by
  have hindex : existingTextIndex lower existing = existing.filterMap (textEntry lower) := rfl
  simp only [TextDuplicate, textDupFlag, isTextClockOffsetDuplicate, Bool.and_eq_true,
    List.any_eq_true, hindex, List.mem_filterMap, Option.mem_toList]
  constructor
  · rintro ⟨heligible, entry, ⟨other, hother, hentry⟩, hsame⟩
    exact ⟨other, hother, heligible, entry, hentry, hsame⟩
  · rintro ⟨other, hother, heligible, entry, hentry, hsame⟩
    exact ⟨heligible, entry, ⟨other, hother, hentry⟩, hsame⟩

theorem mem_rangeSurvivors :
    segment ∈ rangeSurvivors conversationStartedAt existing incoming ↔
      segment ∈ incoming ∧ (∀ other ∈ existing, absKey segment ≠ absKey other) ∧
        ∀ other ∈ existing, conversationKey conversationStartedAt segment ≠ relKey other := by
  simp only [rangeSurvivors, List.mem_filter, Bool.and_eq_true, decide_eq_true_eq, List.mem_map,
    not_exists, not_and]
  constructor
  · rintro ⟨hincoming, habs, hrel⟩
    exact ⟨hincoming, fun other hother hsame => habs other hother hsame.symm,
      fun other hother hsame => hrel other hother hsame.symm⟩
  · rintro ⟨hincoming, habs, hrel⟩
    exact ⟨hincoming, fun other hother hsame => habs other hother hsame.symm,
      fun other hother hsame => hrel other hother hsame.symm⟩

/-- A range survivor that is dropped has a text duplicate. -/
theorem textDuplicate_of_dropped
    (hrange : segment ∈ rangeSurvivors conversationStartedAt existing incoming)
    (hdropped : segment ∉ dedupeSegmentsForMerge lower conversationStartedAt existing incoming) :
    ∃ other ∈ existing, TextDuplicate lower segment other := by
  unfold dedupeSegmentsForMerge at hdropped
  dsimp only at hdropped
  split_ifs at hdropped
  · exact absurd hrange hdropped
  · rw [← textDupFlag_iff]
    by_contra hflag
    exact hdropped (List.mem_filter.mpr ⟨hrange, by simpa using hflag⟩)
  · exact absurd hrange hdropped

/-- Each dropped segment has its duplicate among those of the conversation. -/
theorem duplicate_of_dropped (hincoming : segment ∈ incoming)
    (hdropped : segment ∉ dedupeSegmentsForMerge lower conversationStartedAt existing incoming) :
    ∃ other ∈ existing, Duplicate lower conversationStartedAt segment other := by
  by_cases hrange : segment ∈ rangeSurvivors conversationStartedAt existing incoming
  · obtain ⟨other, hother, htext⟩ := textDuplicate_of_dropped hrange hdropped
    exact ⟨other, hother, .inr (.inr htext)⟩
  · by_cases habs : ∃ other ∈ existing, absKey segment = absKey other
    · obtain ⟨other, hother, hsame⟩ := habs
      exact ⟨other, hother, .inl hsame⟩
    · by_cases hrel : ∃ other ∈ existing,
          conversationKey conversationStartedAt segment = relKey other
      · obtain ⟨other, hother, hsame⟩ := hrel
        exact ⟨other, hother, .inr (.inl hsame)⟩
      · push Not at habs hrel
        exact absurd (mem_rangeSurvivors.mpr ⟨hincoming, habs, hrel⟩) hrange

/-- Where every range survivor has a text duplicate nothing is left. -/
theorem dedupe_eq_nil
    (htext : ∀ segment ∈ rangeSurvivors conversationStartedAt existing incoming,
      ∃ other ∈ existing, TextDuplicate lower segment other) :
    dedupeSegmentsForMerge lower conversationStartedAt existing incoming = [] := by
  cases hsurvivors : rangeSurvivors conversationStartedAt existing incoming with
  | nil => simp [dedupeSegmentsForMerge, hsurvivors]
  | cons first rest =>
    rw [hsurvivors] at htext
    have hflags : ∀ segment ∈ first :: rest,
        textDupFlag lower (existingTextIndex lower existing) segment = true := by
      intro segment hmem
      exact textDupFlag_iff.mpr (htext segment hmem)
    have hindex : existingTextIndex lower existing ≠ [] := by
      intro hnil
      have hfirst := hflags first List.mem_cons_self
      rw [hnil] at hfirst
      simp [textDupFlag, isTextClockOffsetDuplicate] at hfirst
    have hcount : (first :: rest).countP (textDupFlag lower (existingTextIndex lower existing)) =
        (first :: rest).length := List.countP_eq_length.mpr hflags
    have hnone : (first :: rest).filter (fun segment =>
        !textDupFlag lower (existingTextIndex lower existing) segment) = [] := by
      rw [List.filter_eq_nil_iff]
      intro segment hmem
      simp [hflags segment hmem]
    unfold dedupeSegmentsForMerge
    simp only [hsurvivors, hcount, hnone]
    simp [hindex]

/-- A conversation that has all that the first one had and what it was given keeps nothing of the
same segments. -/
theorem dedupe_again (existing : List (StampedSegment α)) {after : List (StampedSegment α)}
    (hkept : ∀ segment ∈ existing, ∃ other ∈ after, absKey other = absKey segment ∧
      relKey other = relKey segment ∧ textEntry lower other = textEntry lower segment)
    (hgiven : ∀ segment ∈ dedupeSegmentsForMerge lower conversationStartedAt existing incoming,
      ∃ other ∈ after, absKey other = absKey segment) :
    dedupeSegmentsForMerge lower conversationStartedAt after incoming = [] := by
  refine dedupe_eq_nil fun segment hsegment => ?_
  obtain ⟨hincoming, habs, hrel⟩ := mem_rangeSurvivors.mp hsegment
  have hdropped : segment ∉
      dedupeSegmentsForMerge lower conversationStartedAt existing incoming := by
    intro hsurvivor
    obtain ⟨other, hother, hsame⟩ := hgiven segment hsurvivor
    exact habs other hother hsame.symm
  have hrange : segment ∈ rangeSurvivors conversationStartedAt existing incoming := by
    refine mem_rangeSurvivors.mpr ⟨hincoming, fun old hold hsame => ?_, fun old hold hsame => ?_⟩
    · obtain ⟨other, hother, hkey, -⟩ := hkept old hold
      exact habs other hother (hsame.trans hkey.symm)
    · obtain ⟨other, hother, -, hkey, -⟩ := hkept old hold
      exact hrel other hother (hsame.trans hkey.symm)
  obtain ⟨old, hold, htext⟩ := textDuplicate_of_dropped hrange hdropped
  obtain ⟨other, hother, -, -, hentry⟩ := hkept old hold
  refine ⟨other, hother, ?_⟩
  rw [TextDuplicate, hentry]
  exact htext

end dedupe

/-! ### The stored merge -/

namespace ClosestConversation
variable {closest : ClosestConversation α}

/-- The conversation after a merge. -/
def stored (closest : ClosestConversation α) (merge : StoredMerge α) : ClosestConversation α :=
  { closest with transcriptSegments := merge.segments, finishedAt := merge.finishedAt }

theorem absKey_relative (segment : StampedSegment α) :
    absKey ((closest.relative segment).stamped closest.startedAt) = absKey segment := by
  simp [absKey, segmentAbsRange, relative, TranscriptSegment.stamped]

theorem textEntry_relative (lower : String → String) (segment : StampedSegment α) :
    textEntry lower ((closest.relative segment).stamped closest.startedAt) =
      textEntry lower segment := by
  simp [textEntry, segmentAbsRange, relative, TranscriptSegment.stamped]

/-- A segment of the conversation is stored where it was. -/
theorem relKey_relative (segment : TranscriptSegment α) :
    relKey ((closest.relative (segment.stamped closest.startedAt)).stamped closest.startedAt) =
      relKey (segment.stamped closest.startedAt) := by
  simp [relKey, relative, TranscriptSegment.stamped]

/-- A retry of the whole merge adds nothing. The times are exact: in binary64 the shift to the
conversation and back may round a stored segment to another key, as that of the seconds
0 to 3.0149999856948857 of a file at 1700001000 does in a conversation at 1700000000, and a retry
then adds it again. -/
theorem mergeIntoClosest_again {lower : String → String} {timestamp : ℚ}
    {segments : List (TranscriptSegment α)} {merge : StoredMerge α}
    (h : closest.mergeIntoClosest lower timestamp segments = some merge) :
    (closest.stored merge).mergeIntoClosest lower timestamp segments = none := by
  obtain ⟨-, hsegments, -⟩ := mergeIntoClosest_eq_some h
  have hmem : ∀ segment ∈ closest.merged lower timestamp segments,
      (closest.relative segment).stamped closest.startedAt ∈
        (closest.stored merge).existingSegments := by
    intro segment hsegment
    have hrelative : closest.relative segment ∈ merge.segments := by
      rw [hsegments]
      exact List.mem_map_of_mem (mem_sortBy.mpr hsegment)
    exact List.mem_map.mpr ⟨_, hrelative, rfl⟩
  have hnone : (closest.stored merge).dedupedSegments lower timestamp segments = [] := by
    refine dedupe_again closest.existingSegments (fun segment hsegment => ?_)
      fun segment hsegment => ?_
    · have hstored := hmem segment (List.mem_append_left _ hsegment)
      obtain ⟨source, -, rfl⟩ := List.mem_map.mp hsegment
      exact ⟨_, hstored, absKey_relative _, relKey_relative _, textEntry_relative lower _⟩
    · exact ⟨_, hmem segment (List.mem_append_right _ hsegment), absKey_relative _⟩
  simp [mergeIntoClosest, hnone]

end ClosestConversation

open ClosestConversation

/-- What is promised of the deduplication. -/
structure RetryIdempotent (lower : String → String) (conversationStartedAt : ℚ)
    (existing incoming : List (StampedSegment α)) : Prop where
  /-- With the survivors appended, none of the same segments survives. -/
  again : dedupeSegmentsForMerge lower conversationStartedAt
    (existing ++ dedupeSegmentsForMerge lower conversationStartedAt existing incoming)
      incoming = []
  order : (dedupeSegmentsForMerge lower conversationStartedAt existing incoming).Sublist incoming
  dropped : ∀ segment ∈ incoming,
    segment ∉ dedupeSegmentsForMerge lower conversationStartedAt existing incoming →
      ∃ other ∈ existing, Duplicate lower conversationStartedAt segment other

/-- The deduplication drops only duplicates, in order, and a merge that is tried again adds
nothing. -/
theorem dedupe_retryIdempotent (lower : String → String) (conversationStartedAt : ℚ)
    (existing incoming : List (StampedSegment α)) (closest : ClosestConversation α)
    (timestamp : ℚ) (segments : List (TranscriptSegment α)) :
    RetryIdempotent lower conversationStartedAt existing incoming ∧
      ∀ merge, closest.mergeIntoClosest lower timestamp segments = some merge →
        (closest.stored merge).mergeIntoClosest lower timestamp segments = none := by
  constructor
  · constructor
    case again =>
      apply dedupe_again existing
      · intro segment hsegment
        exact ⟨segment, List.mem_append_left _ hsegment, rfl, rfl, rfl⟩
      · intro segment hsegment
        exact ⟨segment, List.mem_append_right _ hsegment, rfl⟩
    case order => exact dedupe_sublist lower _ _ _
    case dropped => exact fun segment hincoming hdropped => duplicate_of_dropped hincoming hdropped
  · intro merge h
    exact mergeIntoClosest_again h

/-- A line that is given twice is merged once. -/
theorem dedupe_retryIdempotent_oneLine :
    let closest : ClosestConversation Unit := ⟨100, 110, []⟩
    closest.mergeIntoClosest id 105 [⟨some "so that is it", 0, 3, ()⟩] =
        some ⟨[⟨some "so that is it", 5, 8, ()⟩], 110⟩ ∧
      (closest.stored ⟨[⟨some "so that is it", 5, 8, ()⟩], 110⟩).mergeIntoClosest id 105
        [⟨some "so that is it", 0, 3, ()⟩] = none := by
  intro closest
  have hmerge : closest.mergeIntoClosest id 105 [⟨some "so that is it", 0, 3, ()⟩] =
      some ⟨[⟨some "so that is it", 5, 8, ()⟩], 110⟩ := by
    decide +kernel
  exact ⟨hmerge, (dedupe_retryIdempotent id 100 [] [] closest 105
    [⟨some "so that is it", 0, 3, ()⟩]).2 _ hmerge⟩

end Omi.Sync
