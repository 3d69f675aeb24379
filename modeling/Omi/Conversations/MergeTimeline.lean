import Mathlib
import Omi.Conversations.Merge

/-! The timeline of a merged transcript. A source moves the ones after it up to where its last
segment ends, so what was silent behind that segment is lost from all later times. -/
namespace Omi.Conversations

/-- The text of a segment, its absolute start and its duration. -/
def TranscriptSegment.placed (started : ℚ) (seg : TranscriptSegment) : String × ℚ × ℚ :=
  (seg.text, started + seg.start, seg.stop - seg.start)

/-- The text of a segment and its duration. -/
def TranscriptSegment.said (seg : TranscriptSegment) : String × ℚ :=
  (seg.text, seg.stop - seg.start)

theorem TranscriptSegment.placed_shift (started offset : ℚ) (seg : TranscriptSegment) :
    (seg.shift offset).placed started = seg.placed (started + offset) := by
  have hstart : started + (seg.start + offset) = started + offset + seg.start := by ring
  have hlength : seg.stop + offset - (seg.start + offset) = seg.stop - seg.start := by ring
  simp only [placed, shift, hstart, hlength]

theorem TranscriptSegment.said_shift (offset : ℚ) (seg : TranscriptSegment) :
    (seg.shift offset).said = seg.said := by
  have hlength : seg.stop + offset - (seg.start + offset) = seg.stop - seg.start := by ring
  simp only [said, shift, hlength]

/-- A source with a known start and a known end, between which all of its segments lie. -/
structure RecordedSource where
  conversationId : String
  conversation : Conversation
  started : ℚ
  finished : ℚ
  startedAt_eq : conversation.startedAt = some started
  finishedAt_eq : conversation.finishedAt = some finished
  within : ∀ seg ∈ conversation.transcriptSegments,
    0 ≤ seg.start ∧ started + seg.stop ≤ finished

namespace RecordedSource

def source (recorded : RecordedSource) : Source := (recorded.conversationId, recorded.conversation)

def segments (recorded : RecordedSource) : List TranscriptSegment :=
  recorded.conversation.transcriptSegments

/-- The sources are sorted by their start, and none starts before another one has ended. -/
def InOrder (sources : List RecordedSource) : Prop :=
  sources.Pairwise fun a b => a.started ≤ b.started ∧ a.finished ≤ b.started

/-- A segment lasts up to the end of the source. -/
def EndsSpoken (recorded : RecordedSource) : Prop :=
  ∃ seg ∈ recorded.segments, recorded.started + seg.stop = recorded.finished

/-- What the sources say, and when. -/
def spoken (sources : List RecordedSource) : List (String × ℚ × ℚ) :=
  sources.flatMap fun recorded =>
    recorded.segments.map (TranscriptSegment.placed recorded.started)

/-! ### The silence at the end of a source -/

theorem le_latest (segments : List TranscriptSegment) (first : ℚ) :
    first ≤ segments.foldl (fun latest s => max latest s.stop) first ∧
      ∀ seg ∈ segments, seg.stop ≤ segments.foldl (fun latest s => max latest s.stop) first := by
  induction segments generalizing first with
  | nil => simp
  | cons seg segments ih =>
    obtain ⟨hfirst, hrest⟩ := ih (max first seg.stop)
    rw [List.foldl_cons]
    constructor
    · exact (le_max_left _ _).trans hfirst
    · rw [List.forall_mem_cons]
      exact ⟨(le_max_right _ _).trans hfirst, hrest⟩

theorem latest_attained (segments : List TranscriptSegment) (first : ℚ) :
    segments.foldl (fun latest s => max latest s.stop) first = first ∨
      ∃ seg ∈ segments, segments.foldl (fun latest s => max latest s.stop) first = seg.stop := by
  induction segments generalizing first with
  | nil => exact .inl rfl
  | cons seg segments ih =>
    rw [List.foldl_cons]
    rcases ih (max first seg.stop) with hfirst | ⟨other, hother, hlatest⟩
    · rw [hfirst]
      rcases max_choice first seg.stop with hmax | hmax
      · exact .inl hmax
      · exact .inr ⟨seg, List.mem_cons_self, hmax⟩
    · exact .inr ⟨other, List.mem_cons_of_mem _ hother, hlatest⟩

/-- How far the last segment ends before the source does. -/
def silence (recorded : RecordedSource) : ℚ :=
  recorded.finished - recorded.started - recorded.conversation.span.getD 0

/-- The offset that a source adds, whether it has segments or not. -/
theorem span_eq (recorded : RecordedSource) : recorded.conversation.span =
    some (recorded.finished - recorded.started - recorded.silence) := by
  have hsome : recorded.conversation.span = some (recorded.conversation.span.getD 0) := by
    cases hsegments : recorded.conversation.transcriptSegments with
    | nil =>
      simp [Conversation.span, hsegments, recorded.startedAt_eq, recorded.finishedAt_eq]
    | cons seg segments => simp [Conversation.span, hsegments]
  rw [hsome, silence, sub_sub_cancel]

theorem silence_of_nil (recorded : RecordedSource) (h : recorded.segments = []) :
    recorded.silence = 0 := by
  have hspan : recorded.conversation.span = some (recorded.finished - recorded.started) := by
    have hnil : recorded.conversation.transcriptSegments = [] := h
    simp [Conversation.span, hnil, recorded.startedAt_eq, recorded.finishedAt_eq]
  rw [silence, hspan, Option.getD_some, sub_self]

theorem silence_nonneg (recorded : RecordedSource) : 0 ≤ recorded.silence := by
  cases hsegments : recorded.conversation.transcriptSegments with
  | nil => exact (recorded.silence_of_nil hsegments).ge
  | cons seg segments =>
    have hends : ∀ other ∈ seg :: segments, recorded.started + other.stop ≤ recorded.finished :=
      fun other hother => (recorded.within other (hsegments ▸ hother)).2
    simp only [silence, Conversation.span, hsegments, Option.getD_some]
    rcases latest_attained segments seg.stop with hlatest | ⟨other, hother, hlatest⟩
    · have hend := hends seg List.mem_cons_self
      rw [hlatest]
      linarith
    · have hend := hends other (List.mem_cons_of_mem _ hother)
      rw [hlatest]
      linarith

theorem silence_eq_zero_iff (recorded : RecordedSource) :
    recorded.silence = 0 ↔ (recorded.segments ≠ [] → recorded.EndsSpoken) := by
  cases hsegments : recorded.conversation.transcriptSegments with
  | nil => simp [recorded.silence_of_nil hsegments, segments, hsegments]
  | cons seg segments =>
    have hne : recorded.segments ≠ [] := by simp [RecordedSource.segments, hsegments]
    rw [forall_prop_of_true hne]
    have hlatest : recorded.silence = recorded.finished - recorded.started -
        segments.foldl (fun latest s => max latest s.stop) seg.stop := by
      simp only [silence, Conversation.span, hsegments, Option.getD_some]
    have hmem : ∀ other, other ∈ recorded.segments ↔ other ∈ seg :: segments := by
      simp [RecordedSource.segments, hsegments]
    constructor
    · intro hzero
      rcases latest_attained segments seg.stop with hfirst | ⟨other, hother, hlast⟩
      · exact ⟨seg, (hmem _).mpr List.mem_cons_self, by linarith⟩
      · exact ⟨other, (hmem _).mpr (List.mem_cons_of_mem _ hother), by linarith⟩
    · rintro ⟨other, hother, hend⟩
      have hle : other.stop ≤ segments.foldl (fun latest s => max latest s.stop) seg.stop := by
        rcases List.mem_cons.mp ((hmem other).mp hother) with rfl | hother
        · exact (le_latest segments other.stop).1
        · exact (le_latest segments seg.stop).2 other hother
      exact le_antisymm (by linarith) recorded.silence_nonneg

/-! ### The merged transcript -/

/-- What the sources say when all of it comes `lag` too early, and each source's silence adds to
the lag of those after it. -/
def pulledForward (lag : ℚ) : List RecordedSource → List (String × ℚ × ℚ)
  | [] => []
  | recorded :: rest =>
    recorded.segments.map (TranscriptSegment.placed (recorded.started - lag)) ++
      pulledForward (lag + recorded.silence) rest

theorem placed_mergeSegmentsAfter (started lag : ℚ) (previous : RecordedSource)
    (rest : List RecordedSource) (horder : InOrder (previous :: rest)) :
    (mergeSegmentsAfter previous.conversation (previous.finished - started - lag)
        (rest.map source)).map (TranscriptSegment.placed started) = pulledForward lag rest := by
  induction rest generalizing previous lag with
  | nil => rfl
  | cons current rest ih =>
    obtain ⟨hprevious, horder⟩ := List.pairwise_cons.mp horder
    have hgap : gapAfter previous.conversation current.conversation =
        current.started - previous.finished := by
      have hle := (hprevious current List.mem_cons_self).2
      simp only [gapAfter, previous.finishedAt_eq, current.startedAt_eq]
      exact max_eq_right (sub_nonneg.mpr hle)
    have hoffset : previous.finished - started - lag +
        gapAfter previous.conversation current.conversation = current.started - started - lag := by
      rw [hgap]
      ring
    have hnext : current.started - started - lag +
        (current.finished - current.started - current.silence) =
          current.finished - started - (lag + current.silence) := by ring
    have hbase : started + (current.started - started - lag) = current.started - lag := by ring
    simp only [List.map_cons, source, mergeSegmentsAfter, hoffset, current.span_eq, hnext,
      List.map_append, List.map_map, pulledForward]
    congr 1
    · refine List.map_congr_left fun seg _ => ?_
      rw [Function.comp_apply, TranscriptSegment.placed_shift, hbase]
    · exact ih (lag + current.silence) current horder

theorem placed_mergeTranscriptSegments (recorded : RecordedSource) (rest : List RecordedSource)
    (horder : InOrder (recorded :: rest)) :
    (mergeTranscriptSegments ((recorded :: rest).map source)).map
        (TranscriptSegment.placed recorded.started) = pulledForward 0 (recorded :: rest) := by
  have hafter := placed_mergeSegmentsAfter recorded.started recorded.silence recorded rest horder
  simp only [List.map_cons, source, mergeTranscriptSegments, recorded.span_eq, Option.getD_some,
    List.map_append, pulledForward, sub_zero, zero_add]
  rw [← hafter]
  rfl

/-- Nothing comes too early exactly when whoever is followed by speech ends in speech. -/
theorem pulledForward_eq_spoken_iff (lag : ℚ) (hlag : 0 ≤ lag) (sources : List RecordedSource) :
    pulledForward lag sources = spoken sources ↔
      (lag = 0 ∨ ∀ recorded ∈ sources, recorded.segments = []) ∧
        sources.Pairwise fun a b => a.segments ≠ [] → b.segments ≠ [] → a.EndsSpoken := by
  induction sources generalizing lag with
  | nil => simp [pulledForward, spoken]
  | cons recorded rest ih =>
    have hlater : 0 ≤ lag + recorded.silence := add_nonneg hlag recorded.silence_nonneg
    have hown : recorded.segments.map (TranscriptSegment.placed (recorded.started - lag)) =
        recorded.segments.map (TranscriptSegment.placed recorded.started) ↔
          lag = 0 ∨ recorded.segments = [] := by
      constructor
      · intro hmap
        rw [List.map_inj_left] at hmap
        cases hsegments : recorded.segments with
        | nil => exact .inr rfl
        | cons seg segments =>
          have hplaced := hmap seg (by simp [hsegments])
          simp only [TranscriptSegment.placed, Prod.mk.injEq] at hplaced
          exact .inl (by linarith [hplaced.2.1])
      · rintro (rfl | hnil)
        · rw [sub_zero]
        · rw [hnil, List.map_nil, List.map_nil]
    have hzero : lag + recorded.silence = 0 ↔
        lag = 0 ∧ (recorded.segments ≠ [] → recorded.EndsSpoken) := by
      rw [add_eq_zero_iff_of_nonneg hlag recorded.silence_nonneg, silence_eq_zero_iff]
    have hsplit : pulledForward lag (recorded :: rest) = spoken (recorded :: rest) ↔
        (lag = 0 ∨ recorded.segments = []) ∧
          pulledForward (lag + recorded.silence) rest = spoken rest := by
      rw [← hown]
      simp only [pulledForward, spoken, List.flatMap_cons]
      constructor
      · intro happend
        exact List.append_inj happend (by simp)
      · rintro ⟨hfirst, hafter⟩
        rw [hfirst, hafter]
    rw [hsplit, ih _ hlater, hzero, List.forall_mem_cons, List.pairwise_cons]
    constructor
    · rintro ⟨hhere, hrest, hpairs⟩
      refine ⟨?_, ?_, hpairs⟩
      · rcases hrest with hrest | hrest
        · exact .inl hrest.1
        · exact hhere.imp id fun hnil => ⟨hnil, hrest⟩
      · intro later hmem hsays hlater
        rcases hrest with hrest | hrest
        · exact hrest.2 hsays
        · exact absurd (hrest later hmem) hlater
    · rintro ⟨hhere, hnext, hpairs⟩
      refine ⟨hhere.imp id And.left, ?_, hpairs⟩
      by_cases hsilent : ∀ later ∈ rest, later.segments = []
      · exact .inr hsilent
      · rcases hhere with hhere | hhere
        · obtain ⟨later, hmem, hsays⟩ : ∃ later ∈ rest, later.segments ≠ [] := by
            simpa using hsilent
          exact .inl ⟨hhere, fun hown => hnext later hmem hown hsays⟩
        · exact absurd hhere.2 hsilent

/-! ### What the merge stores -/

theorem said_mergeSegmentsAfter (previous : Conversation) (cumulativeOffset : ℚ)
    (sources : List Source) :
    (mergeSegmentsAfter previous cumulativeOffset sources).map TranscriptSegment.said =
      sources.flatMap fun source => source.2.transcriptSegments.map TranscriptSegment.said := by
  induction sources generalizing previous cumulativeOffset with
  | nil => rfl
  | cons source rest ih =>
    simp only [mergeSegmentsAfter, List.map_append, List.map_map, List.flatMap_cons, ih]
    congr 1
    exact List.map_congr_left fun seg _ => TranscriptSegment.said_shift _ seg

/-- The merged transcript says what the sources say, for as long, source after source. -/
theorem said_mergeTranscriptSegments (sources : List Source) :
    (mergeTranscriptSegments sources).map TranscriptSegment.said =
      sources.flatMap fun source => source.2.transcriptSegments.map TranscriptSegment.said := by
  cases sources with
  | nil => rfl
  | cons source rest =>
    simp only [mergeTranscriptSegments, List.map_append, said_mergeSegmentsAfter,
      List.flatMap_cons]

/-- Sources in order are what the sort leaves. -/
theorem sortByStart_map_source {sources : List RecordedSource} (horder : InOrder sources) :
    sortByStart (sources.map source) = sources.map source := by
  apply List.Pairwise.insertionSort_eq
  rw [List.pairwise_map]
  apply horder.imp
  intro a b hab
  simpa only [source, a.startedAt_eq, b.startedAt_eq, Option.getD_some] using hab.1

/-- The document that the merge stores for these sources. -/
def merged (calls : MergeCalls) (conversationIds audioFiles : List String)
    (sources : List RecordedSource) : Conversation :=
  newConversation calls conversationIds (sortByStart (sources.map source)) audioFiles

/-- Every segment keeps its text, its duration and, counted from the start of the merged
conversation, its absolute start. -/
def KeepsTimeline (merged : Conversation) (sources : List RecordedSource) : Prop :=
  ∀ started, merged.startedAt = some started →
    merged.transcriptSegments.map (TranscriptSegment.placed started) = spoken sources

end RecordedSource

open RecordedSource

/-- Of sources in order, the merge keeps every segment once, in order and with its duration. It
keeps their times exactly when each source that has segments, and is followed by one that has
some, lasts no longer than its last segment. -/
theorem timelineKept_iff (calls : MergeCalls) (conversationIds audioFiles : List String)
    (sources : List RecordedSource) (horder : InOrder sources) :
    (merged calls conversationIds audioFiles sources).startedAt =
        sources.head?.map RecordedSource.started ∧
      (merged calls conversationIds audioFiles sources).transcriptSegments.map
          TranscriptSegment.said =
        sources.flatMap (fun recorded => recorded.segments.map TranscriptSegment.said) ∧
      (KeepsTimeline (merged calls conversationIds audioFiles sources) sources ↔
        sources.Pairwise fun a b => a.segments ≠ [] → b.segments ≠ [] → a.EndsSpoken) := by
  have hsegments : (merged calls conversationIds audioFiles sources).transcriptSegments =
      mergeTranscriptSegments (sources.map source) := by
    rw [merged, sortByStart_map_source horder]
    rfl
  have hstarted : (merged calls conversationIds audioFiles sources).startedAt =
      sources.head?.map RecordedSource.started := by
    rw [merged, sortByStart_map_source horder]
    cases sources with
    | nil => rfl
    | cons recorded rest => exact recorded.startedAt_eq
  refine ⟨hstarted, ?_, ?_⟩
  · rw [hsegments, said_mergeTranscriptSegments, List.flatMap_map]
    rfl
  · cases sources with
    | nil => simp [KeepsTimeline, hstarted]
    | cons recorded rest =>
      have hiff := pulledForward_eq_spoken_iff 0 le_rfl (recorded :: rest)
      rw [and_iff_right (.inl rfl)] at hiff
      rw [← hiff, ← placed_mergeTranscriptSegments recorded rest horder, KeepsTimeline, hstarted,
        hsegments]
      constructor
      · intro hkeeps
        exact hkeeps recorded.started rfl
      · rintro hkeeps started hsome
        cases hsome
        exact hkeeps

section examples

/-- Ten seconds of speech in a recording of a hundred. -/
def silentTail (started : ℚ) : RecordedSource where
  conversationId := "a"
  conversation :=
    { startedAt := some started
      finishedAt := some (started + 100)
      transcriptSegments := [⟨"hello", 0, 10⟩] }
  started := started
  finished := started + 100
  startedAt_eq := rfl
  finishedAt_eq := rfl
  within := by norm_num

/-- Five seconds of speech. -/
def spokenThrough (started : ℚ) : RecordedSource where
  conversationId := "b"
  conversation :=
    { startedAt := some started
      finishedAt := some (started + 5)
      transcriptSegments := [⟨"again", 0, 5⟩] }
  started := started
  finished := started + 5
  startedAt_eq := rfl
  finishedAt_eq := rfl
  within := by norm_num

/-- Sources in order need not keep their timeline: what is said at second 100 is stored at 10. -/
theorem not_timelineKept : ¬ ∀ sources : List RecordedSource, InOrder sources →
    KeepsTimeline (merged { newConversationId := "c" } ["a", "b"] [] sources) sources := by
  intro hkeeps
  have horder : InOrder [silentTail 0, spokenThrough 100] := by
    simp only [InOrder, List.pairwise_cons, List.mem_singleton, forall_eq]
    norm_num [silentTail, spokenThrough]
  have hplaced := hkeeps _ horder 0 rfl
  have hlist : [("hello", 0, 10), (("again", 10, 5) : String × ℚ × ℚ)] =
      [("hello", 0, 10), ("again", 100, 5)] := by
    calc _ = (merged { newConversationId := "c" } ["a", "b"] []
            [silentTail 0, spokenThrough 100]).transcriptSegments.map
              (TranscriptSegment.placed 0) := by decide +kernel
      _ = spoken [silentTail 0, spokenThrough 100] := hplaced
      _ = _ := by decide +kernel
  norm_num at hlist

/-- The silence at the end of the last source moves nothing. -/
theorem timelineKept_lastSilent :
    KeepsTimeline (merged { newConversationId := "c" } ["b", "a"] []
      [spokenThrough 0, silentTail 60]) [spokenThrough 0, silentTail 60] := by
  have horder : InOrder [spokenThrough 0, silentTail 60] := by
    simp only [InOrder, List.pairwise_cons, List.mem_singleton, forall_eq]
    norm_num [silentTail, spokenThrough]
  apply (timelineKept_iff { newConversationId := "c" } ["b", "a"] [] _ horder).2.2.mpr
  simp only [List.pairwise_cons, List.mem_singleton, forall_eq]
  refine ⟨fun _ _ => ⟨⟨"again", 0, 5⟩, List.mem_singleton_self _, ?_⟩, by simp⟩
  norm_num [spokenThrough]

end examples
end Omi.Conversations
