import Omi.Transcripts.CombineSegments

/-! The timeline of `combine_segments`: order and overlap of the returned segments, and whether a
segment that holds the whole text of an input covers the input's time. Where texts lie is told by
their position in the texts without whitespace. -/
namespace Omi.Transcripts
open Omi.Foundation

/-! ### Order -/

/-- Each segment ends no earlier than it starts, and before the segments behind it start. -/
structure WellTimed (segments : List TranscriptSegment) : Prop where
  start_le_stop : ∀ segment ∈ segments, segment.start ≤ segment.stop
  apart : segments.Pairwise fun a b => a.stop ≤ b.start

/-- No segment starts before the first input or stops after the last. -/
def WithinSpan (segments inputs : List TranscriptSegment) : Prop :=
  ∀ segment ∈ segments, (∃ input ∈ inputs, input.start ≤ segment.start) ∧
    ∃ input ∈ inputs, segment.stop ≤ input.stop

/-- The segments lie between the start of one and the stop of another. -/
def Between (a b : TranscriptSegment) (segments : List TranscriptSegment) : Prop :=
  ∀ segment ∈ segments, a.start ≤ segment.start ∧ segment.stop ≤ b.stop

theorem WellTimed.append_iff {front back : List TranscriptSegment} :
    WellTimed (front ++ back) ↔ WellTimed front ∧ WellTimed back ∧
      ∀ a ∈ front, ∀ b ∈ back, a.stop ≤ b.start := by
  constructor
  · rintro ⟨horder, hapart⟩
    obtain ⟨hfront, hback, hbetween⟩ := List.pairwise_append.mp hapart
    exact ⟨⟨fun a ha => horder a (List.mem_append_left _ ha), hfront⟩,
      ⟨fun b hb => horder b (List.mem_append_right _ hb), hback⟩, hbetween⟩
  · rintro ⟨⟨horder, hfront⟩, ⟨horder', hback⟩, hbetween⟩
    refine ⟨fun segment hsegment => ?_, List.pairwise_append.mpr ⟨hfront, hback, hbetween⟩⟩
    rcases List.mem_append.mp hsegment with ha | hb
    · exact horder segment ha
    · exact horder' segment hb

/-- Two neighbours may be replaced by segments that lie between them. -/
theorem WellTimed.replace {front back merged : List TranscriptSegment} {a b : TranscriptSegment}
    (h : WellTimed (front ++ ([a, b] ++ back))) (hmerged : WellTimed merged)
    (hbetween : Between a b merged) : WellTimed (front ++ (merged ++ back)) := by
  obtain ⟨hfront, hrest, hbefore⟩ := WellTimed.append_iff.mp h
  obtain ⟨-, hback, hbehind⟩ := WellTimed.append_iff.mp hrest
  refine WellTimed.append_iff.mpr ⟨hfront, WellTimed.append_iff.mpr ⟨hmerged, hback, ?_⟩, ?_⟩
  · intro segment hsegment other hother
    exact (hbetween segment hsegment).2.trans (hbehind b (by simp) other hother)
  · intro segment hsegment other hother
    rcases List.mem_append.mp hother with hpiece | hlater
    · exact (hbefore segment hsegment a (by simp)).trans (hbetween other hpiece).1
    · exact hbefore segment hsegment other (by simp [hlater])

variable {chars : CharClass} {tail : Option TranscriptSegment} {state next : JoinState}
  {newSegment : TranscriptSegment}

/-- A merge of two segments leaves well-timed segments between them. -/
theorem MergeCase.wellTimed {a b : TranscriptSegment} {merged : Merged}
    (h : MergeCase chars a b merged) (hpair : WellTimed [a, b]) :
    WellTimed (merged.1.toList ++ merged.2.toList) ∧
      Between a b (merged.1.toList ++ merged.2.toList) := by
  have ha : a.start ≤ a.stop := hpair.start_le_stop a (by simp)
  have hb : b.start ≤ b.stop := hpair.start_le_stop b (by simp)
  have hab : a.stop ≤ b.start := by simpa using hpair.apart
  have hmin : min a.stop b.start = a.stop := min_eq_left hab
  cases h with
  | kept =>
    refine ⟨hpair, ?_⟩
    simp only [Between, Option.toList_some, List.singleton_append, List.forall_mem_cons]
    exact ⟨⟨le_rfl, by linarith⟩, ⟨by linarith, le_rfl⟩, by simp⟩
  | firstSentence first rest hsplit hrest =>
    constructor
    · exact ⟨by simp [withSentence, ha, hb], by simp [withSentence, hab]⟩
    · simp only [Between, Option.toList_some, List.singleton_append, List.forall_mem_cons]
      exact ⟨⟨le_rfl, by simp only [withSentence]; linarith⟩, ⟨by linarith, le_rfl⟩, by simp⟩
  | singleSentence first hsplit hother =>
    constructor
    · exact ⟨by simp [withSentence, ha], by simp⟩
    · simp only [Between, Option.toList_some, Option.toList_none, List.append_nil,
        List.forall_mem_cons]
      exact ⟨⟨le_rfl, by simp only [withSentence]; linarith⟩, by simp⟩
  | moved lastIncomplete before hlast hbefore =>
    constructor
    · exact ⟨by simp [withMoved, ha, hb, ha.trans hab], by simp [withMoved]⟩
    · simp only [Between, Option.toList_some, List.singleton_append, List.forall_mem_cons]
      exact ⟨⟨le_rfl, by rw [hmin]; linarith⟩, ⟨by simp only [withMoved]; linarith, le_rfl⟩,
        by simp⟩
  | movedWhole lastIncomplete hlast =>
    constructor
    · exact ⟨by simp [withMoved, hb], by simp⟩
    · simp only [Between, Option.toList_some, Option.toList_none, List.nil_append,
        List.forall_mem_cons]
      exact ⟨⟨by simp only [withMoved]; linarith, le_rfl⟩, by simp⟩
  | joined hspeaker =>
    constructor
    · exact ⟨by simp only [withJoined, Option.toList_some, Option.toList_none, List.append_nil,
        List.mem_singleton, forall_eq]; linarith, by simp⟩
    · simp only [Between, Option.toList_some, Option.toList_none, List.append_nil,
        List.forall_mem_cons]
      exact ⟨⟨le_rfl, le_rfl⟩, by simp⟩

theorem mergedSegments_wellTimed (chars : CharClass) {a b : TranscriptSegment}
    (hpair : WellTimed [a, b]) :
    WellTimed (mergedSegments chars a b) ∧ Between a b (mergedSegments chars a b) :=
  (merge_case a b).wellTimed hpair

theorem JoinCase.wellTimed {kept rest : List TranscriptSegment}
    (h : JoinCase chars tail state newSegment next)
    (htimed : WellTimed (kept ++ state.joined ++ newSegment :: rest)) :
    WellTimed (kept ++ next.joined ++ rest) := by
  rcases h.replaces with ⟨hnil, hopened⟩ | ⟨front, last, hjoined, hnext⟩
  · rw [hopened]
    simpa [hnil] using htimed
  · have hpieces : WellTimed ((kept ++ front) ++ ([last, newSegment] ++ rest)) := by
      simpa [hjoined] using htimed
    have hpair := (WellTimed.append_iff.mp (WellTimed.append_iff.mp hpieces).2.1).1
    obtain ⟨hmerged, hbetween⟩ := mergedSegments_wellTimed chars hpair
    have hreplaced := hpieces.replace hmerged hbetween
    rw [hnext]
    simpa [List.append_assoc] using hreplaced

theorem JoinCase.withinSpan {kept rest inputs : List TranscriptSegment}
    (h : JoinCase chars tail state newSegment next)
    (htimed : WellTimed (kept ++ state.joined ++ newSegment :: rest))
    (hspan : WithinSpan (kept ++ state.joined ++ newSegment :: rest) inputs) :
    WithinSpan (kept ++ next.joined ++ rest) inputs := by
  rcases h.replaces with ⟨hnil, hopened⟩ | ⟨front, last, hjoined, hnext⟩
  · rw [hopened]
    simpa [hnil] using hspan
  · have hpieces : WellTimed ((kept ++ front) ++ ([last, newSegment] ++ rest)) := by
      simpa [hjoined] using htimed
    have hpair := (WellTimed.append_iff.mp (WellTimed.append_iff.mp hpieces).2.1).1
    obtain ⟨-, hbetween⟩ := mergedSegments_wellTimed chars hpair
    rw [hjoined] at hspan
    intro segment hsegment
    rw [hnext] at hsegment
    by_cases hpiece : segment ∈ mergedSegments chars last newSegment
    · obtain ⟨hstart, hstop⟩ := hbetween segment hpiece
      obtain ⟨⟨input, hinput, hle⟩, -⟩ := hspan last (by simp)
      obtain ⟨-, ⟨other, hother, hge⟩⟩ := hspan newSegment (by simp)
      exact ⟨⟨input, hinput, hle.trans hstart⟩, ⟨other, hother, hstop.trans hge⟩⟩
    · refine hspan segment ?_
      simp only [List.mem_append, List.mem_cons] at hsegment hpiece ⊢
      tauto

/-! ### Where texts lie -/

/-- Each segment with its position in the texts without whitespace. -/
def spansFrom (position : ℕ) : List TranscriptSegment → List (TranscriptSegment × ℕ)
  | [] => []
  | segment :: rest =>
    (segment, position) :: spansFrom (position + (bare segment.text).length) rest

theorem spansFrom_append (position : ℕ) (front back : List TranscriptSegment) :
    spansFrom position (front ++ back) =
      spansFrom position front ++ spansFrom (position + (bareText front).length) back := by
  induction front generalizing position with
  | nil => simp [spansFrom]
  | cons segment rest ih =>
    rw [List.cons_append, spansFrom, spansFrom, ih, bareText_cons, List.length_append,
      List.cons_append, Nat.add_assoc]

theorem spansFrom_bounds {position place : ℕ} {segments : List TranscriptSegment}
    {segment : TranscriptSegment} (h : (segment, place) ∈ spansFrom position segments) :
    position ≤ place ∧
      place + (bare segment.text).length ≤ position + (bareText segments).length := by
  induction segments generalizing position with
  | nil => cases h
  | cons head rest ih =>
    rw [bareText_cons, List.length_append]
    rcases List.mem_cons.mp h with hhead | hrest
    · obtain ⟨rfl, rfl⟩ := Prod.mk.inj hhead
      omega
    · have hbounds := ih hrest
      omega

/-! ### Coverage -/

def Covers (segment input : TranscriptSegment) : Prop :=
  segment.start ≤ input.start ∧ input.stop ≤ segment.stop

/-- A segment at a position covers each input whose whole text it holds. -/
def CoversInputs (inputs : List TranscriptSegment) (segment : TranscriptSegment)
    (position : ℕ) : Prop :=
  ∀ input place, (input, place) ∈ spansFrom 0 inputs → bare input.text ≠ [] →
    position ≤ place →
    place + (bare input.text).length ≤ position + (bare segment.text).length →
    Covers segment input

/-- So does every segment. -/
def Covered (segments inputs : List TranscriptSegment) : Prop :=
  ∀ segment position, (segment, position) ∈ spansFrom 0 segments →
    CoversInputs inputs segment position

theorem coversInputs_concat {inputs : List TranscriptSegment} {segment input : TranscriptSegment}
    {position : ℕ} :
    CoversInputs (inputs ++ [input]) segment position ↔ CoversInputs inputs segment position ∧
      (bare input.text ≠ [] → position ≤ (bareText inputs).length →
        (bareText inputs).length + (bare input.text).length ≤
          position + (bare segment.text).length → Covers segment input) := by
  have hspans : spansFrom 0 (inputs ++ [input]) =
      spansFrom 0 inputs ++ [(input, (bareText inputs).length)] := by
    rw [spansFrom_append, Nat.zero_add]
    rfl
  constructor
  · intro h
    refine ⟨fun other place hother => h other place ?_, h input _ ?_⟩
    · rw [hspans]
      exact List.mem_append_left _ hother
    · rw [hspans]
      exact List.mem_append_right _ (List.mem_singleton.mpr rfl)
  · rintro ⟨hold, hnew⟩ other place hother
    rw [hspans] at hother
    rcases List.mem_append.mp hother with hbefore | hlast
    · exact hold other place hbefore
    · obtain ⟨rfl, rfl⟩ := Prod.mk.inj (List.mem_singleton.mp hlast)
      exact hnew

/-- Segments that end where the new input's text starts do not hold it. -/
theorem CoversInputs.concat_of_le {inputs : List TranscriptSegment}
    {segment input : TranscriptSegment} {position : ℕ} (h : CoversInputs inputs segment position)
    (hle : position + (bare segment.text).length ≤ (bareText inputs).length) :
    CoversInputs (inputs ++ [input]) segment position := by
  refine coversInputs_concat.mpr ⟨h, fun hne _ hinside => ?_⟩
  have hpos := List.length_pos_iff.mpr hne
  omega

/-- The inputs cover themselves. -/
theorem covered_self (segments : List TranscriptSegment) : Covered segments segments := by
  induction segments using List.reverseRecOn with
  | nil => exact fun _ _ h => by cases h
  | append_singleton segments last ih =>
    intro segment position hsegment
    rw [spansFrom_append, Nat.zero_add] at hsegment
    rcases List.mem_append.mp hsegment with hbefore | hlast
    · have hbounds := spansFrom_bounds hbefore
      exact (ih segment position hbefore).concat_of_le (by omega)
    · obtain ⟨rfl, rfl⟩ := Prod.mk.inj (List.mem_singleton.mp hlast)
      refine coversInputs_concat.mpr ⟨fun input place hinput hne hplace _ => ?_,
        fun _ _ _ => ⟨le_rfl, le_rfl⟩⟩
      -- the inputs before it end where it starts
      have hbounds := spansFrom_bounds hinput
      have hpos := List.length_pos_iff.mpr hne
      omega

/-! ### What moves -/

/-- How much text a merge moves from the first segment to the second. -/
def movedLength (chars : CharClass) (a b : TranscriptSegment) : ℕ :=
  (merge chars a b).2.elim 0 fun moved => (bare moved.text).length - (bare b.text).length

/-- Merging the new segment into the last one costs no coverage: if its only sentence goes to
another speaker's segment, its time is covered; and what the last segment gives up holds no whole
input that starts before the new segment. -/
structure KeepsCover (chars : CharClass) (inputs : List TranscriptSegment)
    (last newSegment : TranscriptSegment) : Prop where
  absorbed : sameSpeaker last newSegment = false → (merge chars last newSegment).2 = none →
    bare newSegment.text ≠ [] → newSegment.stop ≤ last.stop
  moved : ∀ input place, (input, place) ∈ spansFrom 0 inputs → bare input.text ≠ [] →
    (bareText inputs).length ≤ place + movedLength chars last newSegment →
    newSegment.start ≤ input.start

section merge
variable {inputs : List TranscriptSegment} {a b : TranscriptSegment} {position : ℕ}

/-- Nothing that was there before lies behind the new input's start. -/
theorem coversInputs_new {segment : TranscriptSegment} (hle : (bareText inputs).length ≤ position)
    (hcovers : Covers segment b) : CoversInputs (inputs ++ [b]) segment position := by
  refine coversInputs_concat.mpr ⟨fun input place hinput hne hplace _ => ?_, fun _ _ _ => hcovers⟩
  have hbounds := spansFrom_bounds hinput
  have hpos := List.length_pos_iff.mpr hne
  omega

/-- Where nothing moves and the second segment stays, or both are one speaker's. -/
theorem KeepsCover.of_still (hmoved : movedLength chars a b = 0)
    (hsecond : sameSpeaker a b = false → (merge chars a b).2 ≠ none) :
    KeepsCover chars inputs a b where
  absorbed := fun hother hnone => absurd hnone (hsecond hother)
  moved := by
    intro input place hinput hne hle
    have hbounds := spansFrom_bounds hinput
    have hpos := List.length_pos_iff.mpr hne
    omega

/-- The last segment covers all inputs from its position on. -/
theorem CoversInputs.inside (h : CoversInputs inputs a position)
    (hplace : position + (bare a.text).length = (bareText inputs).length)
    {input : TranscriptSegment} {place : ℕ} (hinput : (input, place) ∈ spansFrom 0 inputs)
    (hne : bare input.text ≠ []) (hle : position ≤ place) : Covers a input := by
  have hbounds := spansFrom_bounds hinput
  exact h input place hinput hne hle (by omega)

/-- The second segment with what moved to it. -/
theorem moved_covered_iff (hcovers : CoversInputs inputs a position)
    (hplace : position + (bare a.text).length = (bareText inputs).length)
    (hpair : WellTimed [a, b]) {lastIncomplete before : Text}
    (hbare : bare a.text = bare before ++ bare lastIncomplete)
    (hlength : movedLength chars a b = (bare lastIncomplete).length)
    (hsecond : (merge chars a b).2 ≠ none) :
    CoversInputs (inputs ++ [b]) (withMoved lastIncomplete b)
        (position + (bare before).length) ↔ KeepsCover chars inputs a b := by
  have hbstop : b.start ≤ b.stop := hpair.start_le_stop b (by simp)
  have hab : a.stop ≤ b.start := by simpa using hpair.apart
  have hlengths := congrArg List.length hbare
  rw [List.length_append] at hlengths
  have htext : (bare (withMoved lastIncomplete b).text).length =
      (bare lastIncomplete).length + (bare b.text).length := by
    simp [withMoved]
  rw [coversInputs_concat]
  constructor
  · rintro ⟨hinputs, -⟩
    refine ⟨fun _ hnone => absurd hnone hsecond, fun input place hinput hne hle => ?_⟩
    have hbounds := spansFrom_bounds hinput
    exact (hinputs input place hinput hne (by omega) (by omega)).1
  · intro hkeeps
    refine ⟨fun input place hinput hne hle _ => ⟨?_, ?_⟩, fun _ _ _ => ⟨le_rfl, le_rfl⟩⟩
    · exact hkeeps.moved input place hinput hne (by omega)
    · have hinside := hcovers.inside hplace hinput hne (by omega)
      exact (hinside.2.trans hab).trans hbstop

theorem forall_spansFrom_singleton {holds : TranscriptSegment → ℕ → Prop}
    {segment : TranscriptSegment} :
    (∀ piece place, (piece, place) ∈ spansFrom position [segment] → holds piece place) ↔
      holds segment position := by
  simp [spansFrom]

theorem forall_spansFrom_pair {holds : TranscriptSegment → ℕ → Prop}
    {first second : TranscriptSegment} :
    (∀ piece place, (piece, place) ∈ spansFrom position [first, second] → holds piece place) ↔
      holds first position ∧ holds second (position + (bare first.text).length) := by
  simp [spansFrom, or_imp, forall_and]

/-- What a merge leaves covers the inputs, the new one among them, exactly when it costs none. -/
theorem mergedSegments_covered_iff (hcovers : CoversInputs inputs a position)
    (hplace : position + (bare a.text).length = (bareText inputs).length)
    (hpair : WellTimed [a, b]) :
    (∀ segment place, (segment, place) ∈ spansFrom position (mergedSegments chars a b) →
      CoversInputs (inputs ++ [b]) segment place) ↔ KeepsCover chars inputs a b := by
  have ha : a.start ≤ a.stop := hpair.start_le_stop a (by simp)
  have hb : b.start ≤ b.stop := hpair.start_le_stop b (by simp)
  have hab : a.stop ≤ b.start := by simpa using hpair.apart
  obtain ⟨merged, hmerged⟩ : ∃ merged, merge chars a b = merged := ⟨_, rfl⟩
  cases merge_case_of_eq hmerged with
  | kept =>
    have hstill : KeepsCover chars inputs a b :=
      .of_still (by simp [movedLength, hmerged]) (by simp [hmerged])
    have hpieces : mergedSegments chars a b = [a, b] := by simp [mergedSegments, hmerged]
    rw [hpieces, forall_spansFrom_pair]
    refine iff_of_true ⟨?_, ?_⟩ hstill
    · exact hcovers.concat_of_le hplace.le
    · exact coversInputs_new hplace.ge ⟨le_rfl, le_rfl⟩
  | firstSentence first rest hsplit hrest =>
    have htext := congrArg List.length (splitFirstSentence_bare hsplit)
    have hpos := List.length_pos_iff.mpr (splitFirstSentence_rest hsplit hrest)
    rw [List.length_append] at htext
    have hstill : KeepsCover chars inputs a b := by
      refine .of_still ?_ (by simp [hmerged])
      simp only [movedLength, hmerged, Option.elim_some]
      omega
    have hlength : (bare (withSentence a first).text).length =
        (bare a.text).length + (bare first).length := by
      simp [withSentence]
    rw [mergedSegments, hmerged, Option.toList_some, Option.toList_some, List.singleton_append,
      forall_spansFrom_pair]
    refine iff_of_true ⟨coversInputs_concat.mpr ⟨?_, ?_⟩, ?_⟩ hstill
    · exact fun input place hinput hne hle _ => hcovers.inside hplace hinput hne hle
    · -- the new input's rest is behind the sentence
      intro hne _ hle
      omega
    · exact coversInputs_new (by omega) ⟨le_rfl, le_rfl⟩
  | singleSentence first hsplit hother =>
    have htext := congrArg List.length (splitFirstSentence_bare hsplit)
    rw [List.length_append] at htext
    have hlength : (bare (withSentence a first).text).length =
        (bare a.text).length + (bare b.text).length := by
      simp [withSentence, htext]
    rw [mergedSegments, hmerged, Option.toList_some, Option.toList_none, List.append_nil,
      forall_spansFrom_singleton, coversInputs_concat]
    constructor
    · rintro ⟨-, hnew⟩
      refine ⟨fun _ _ hne => (hnew hne (by omega) (by omega)).2, fun input place hinput hne hle => ?_⟩
      have hbounds := spansFrom_bounds hinput
      have hpos := List.length_pos_iff.mpr hne
      simp only [movedLength, hmerged, Option.elim_none] at hle
      omega
    · intro hkeeps
      refine ⟨fun input place hinput hne hle _ => ?_, fun hne _ _ => ?_⟩
      · exact hcovers.inside hplace hinput hne hle
      · exact ⟨ha.trans hab, hkeeps.absorbed hother (by rw [hmerged]) hne⟩
  | moved lastIncomplete before hlast hbefore =>
    have htext := extractLastIncompleteSentence_bare hlast
    have hlengths := congrArg List.length htext
    rw [List.length_append] at hlengths
    have hlength : movedLength chars a b = (bare lastIncomplete).length := by
      simp [movedLength, hmerged, withMoved]
    rw [← moved_covered_iff hcovers hplace hpair htext hlength (by simp [hmerged]),
      mergedSegments, hmerged, Option.toList_some, Option.toList_some, List.singleton_append,
      forall_spansFrom_pair]
    refine and_iff_right (coversInputs_concat.mpr ⟨?_, ?_⟩)
    · intro input place hinput hne hle _
      have hinside := hcovers.inside hplace hinput hne hle
      exact ⟨hinside.1, le_min hinside.2 (hinside.2.trans hab)⟩
    · intro hne _ hle
      have hpos := List.length_pos_iff.mpr hne
      dsimp only at hle
      omega
  | movedWhole lastIncomplete hlast =>
    have htext := extractLastIncompleteSentence_bare hlast
    have hlength : movedLength chars a b = (bare lastIncomplete).length := by
      simp [movedLength, hmerged, withMoved]
    rw [← moved_covered_iff hcovers hplace hpair htext hlength (by simp [hmerged]),
      mergedSegments, hmerged, Option.toList_some, Option.toList_none, List.nil_append,
      forall_spansFrom_singleton]
    rfl
  | joined hspeaker =>
    have hstill : KeepsCover chars inputs a b :=
      .of_still (by simp [movedLength, hmerged]) (by simp [hspeaker])
    rw [mergedSegments, hmerged, Option.toList_some, Option.toList_none, List.append_nil,
      forall_spansFrom_singleton]
    refine iff_of_true (coversInputs_concat.mpr ⟨?_, fun _ _ _ => ⟨ha.trans hab, le_rfl⟩⟩) hstill
    intro input place hinput hne hle _
    have hinside := hcovers.inside hplace hinput hne hle
    exact ⟨hinside.1, (hinside.2.trans hab).trans hb⟩

end merge

/-! ### The loop -/

theorem covered_append_iff {front back inputs : List TranscriptSegment} :
    Covered (front ++ back) inputs ↔ Covered front inputs ∧
      ∀ segment place, (segment, place) ∈ spansFrom (bareText front).length back →
        CoversInputs inputs segment place := by
  simp only [Covered, spansFrom_append, Nat.zero_add, List.mem_append]
  constructor
  · exact fun h => ⟨fun segment place hmem => h segment place (.inl hmem),
      fun segment place hmem => h segment place (.inr hmem)⟩
  · rintro ⟨hfront, hback⟩ segment place (hmem | hmem)
    · exact hfront segment place hmem
    · exact hback segment place hmem

/-- Segments whose text is all before the new input's. -/
theorem Covered.concat {front inputs : List TranscriptSegment} {input : TranscriptSegment}
    (h : Covered front inputs) (hle : (bareText front).length ≤ (bareText inputs).length) :
    Covered front (inputs ++ [input]) := by
  intro segment place hmem
  have hbounds := spansFrom_bounds hmem
  exact (h segment place hmem).concat_of_le (by omega)

theorem JoinCase.covered_iff {kept inputs : List TranscriptSegment}
    (h : JoinCase chars tail state newSegment next)
    (hcovered : Covered (kept ++ state.joined) inputs)
    (htext : bareText (kept ++ state.joined) = bareText inputs)
    (htimed : WellTimed (kept ++ state.joined ++ [newSegment])) :
    Covered (kept ++ next.joined) (inputs ++ [newSegment]) ↔
      ∀ last ∈ state.joined.getLast?, KeepsCover chars inputs last newSegment := by
  rcases h.replaces with ⟨hnil, hopened⟩ | ⟨front, last, hjoined, hnext⟩
  · rw [hnil, List.append_nil] at hcovered htext
    refine iff_of_true ?_ ?_
    · rw [hopened, covered_append_iff]
      refine ⟨hcovered.concat (by rw [htext]), fun segment place hmem => ?_⟩
      obtain ⟨rfl, rfl⟩ := Prod.mk.inj (List.mem_singleton.mp hmem)
      exact coversInputs_new (by rw [htext]) ⟨le_rfl, le_rfl⟩
    · rw [hnil]
      exact fun _ h => by cases h
  · have hlast : state.joined.getLast? = some last := by simp [hjoined]
    rw [hjoined, ← List.append_assoc] at hcovered htext htimed
    have hpair : WellTimed [last, newSegment] := by
      rw [List.append_assoc] at htimed
      exact (WellTimed.append_iff.mp htimed).2.1
    have hlengths := congrArg List.length htext
    rw [bareText_append, bareText_cons, bareText_nil, List.append_nil, List.length_append]
      at hlengths
    obtain ⟨hfront, hback⟩ := covered_append_iff.mp hcovered
    have hcovers : CoversInputs inputs last (bareText (kept ++ front)).length :=
      hback _ _ (List.mem_singleton.mpr rfl)
    rw [hnext, ← List.append_assoc, covered_append_iff,
      mergedSegments_covered_iff hcovers hlengths hpair, hlast]
    constructor
    · rintro ⟨-, hkeeps⟩ other hother
      rwa [← Option.some.inj hother]
    · intro hkeeps
      exact ⟨hfront.concat (by omega), hkeeps last rfl⟩

/-- Each round of the loop, with the inputs before it, costs no coverage. -/
def CoverKept (chars : CharClass) (tail : Option TranscriptSegment) :
    List TranscriptSegment → JoinState → List TranscriptSegment → Prop
  | _, _, [] => True
  | inputs, state, newSegment :: rest =>
    (∀ last ∈ state.joined.getLast?, KeepsCover chars inputs last newSegment) ∧
      CoverKept chars tail (inputs ++ [newSegment]) (joinSegment chars tail state newSegment) rest

variable {kept inputs newSegments : List TranscriptSegment}

/-- After every round all inputs so far are covered, exactly when no round costs coverage. -/
theorem joinFold_covered_iff (hcovered : Covered (kept ++ state.joined) inputs)
    (htext : bareText (kept ++ state.joined) = bareText inputs)
    (htimed : WellTimed (kept ++ state.joined ++ newSegments)) :
    (∀ count, Covered
      (kept ++ ((newSegments.take count).foldl (joinSegment chars tail) state).joined)
        (inputs ++ newSegments.take count)) ↔ CoverKept chars tail inputs state newSegments := by
  induction newSegments generalizing state inputs with
  | nil => simpa [CoverKept] using hcovered
  | cons newSegment rest ih =>
    have hcase := joinSegment_case chars tail state newSegment
    have hround : WellTimed (kept ++ state.joined ++ [newSegment]) := by
      rw [← List.singleton_append, ← List.append_assoc] at htimed
      exact (WellTimed.append_iff.mp htimed).1
    have hstep := hcase.covered_iff hcovered htext hround
    have htext' : bareText (kept ++ (joinSegment chars tail state newSegment).joined) =
        bareText (inputs ++ [newSegment]) := by
      rw [bareText_append, hcase.text_eq, ← List.append_assoc, ← bareText_append, htext,
        bareText_append, bareText_cons, bareText_nil, List.append_nil]
    rw [CoverKept, ← hstep]
    constructor
    · intro hall
      have hnext : Covered (kept ++ (joinSegment chars tail state newSegment).joined)
          (inputs ++ [newSegment]) := by simpa using hall 1
      refine ⟨hnext, (ih hnext htext' (hcase.wellTimed htimed)).mp fun count => ?_⟩
      simpa using hall (count + 1)
    · rintro ⟨hnext, hrest⟩ count
      cases count with
      | zero => simpa using hcovered
      | succ count =>
        have hlater := (ih hnext htext' (hcase.wellTimed htimed)).mpr hrest count
        simpa using hlater

theorem joinFold_timed (chars : CharClass) (tail : Option TranscriptSegment) (state : JoinState)
    (htimed : WellTimed (kept ++ state.joined ++ newSegments))
    (hspan : WithinSpan (kept ++ state.joined ++ newSegments) inputs) :
    WellTimed (kept ++ (newSegments.foldl (joinSegment chars tail) state).joined) ∧
      WithinSpan (kept ++ (newSegments.foldl (joinSegment chars tail) state).joined) inputs := by
  induction newSegments generalizing state with
  | nil => simpa using And.intro htimed hspan
  | cons newSegment rest ih =>
    have hcase := joinSegment_case chars tail state newSegment
    exact ih _ (hcase.wellTimed htimed) (hcase.withinSpan htimed hspan)

/-! ### One call -/

theorem spansFrom_normalize (position : ℕ) (segments : List TranscriptSegment) :
    spansFrom position (segments.map normalize) =
      (spansFrom position segments).map fun span => (normalize span.1, span.2) := by
  induction segments generalizing position with
  | nil => rfl
  | cons segment rest ih =>
    rw [List.map_cons, spansFrom, spansFrom, List.map_cons, ih]
    simp [normalize]

theorem coversInputs_normalize {segment : TranscriptSegment} {position : ℕ} :
    CoversInputs inputs (normalize segment) position ↔ CoversInputs inputs segment position := by
  simp only [CoversInputs, Covers, normalize, bare_normalizeText]

theorem covered_normalize {segments : List TranscriptSegment} :
    Covered (segments.map normalize) inputs ↔ Covered segments inputs := by
  simp only [Covered, spansFrom_normalize, List.mem_map]
  constructor
  · intro h segment place hmem
    exact coversInputs_normalize.mp (h _ _ ⟨_, hmem, rfl⟩)
  · rintro h _ _ ⟨⟨segment, place⟩, hmem, hspan⟩
    obtain ⟨rfl, rfl⟩ := Prod.mk.inj hspan
    exact coversInputs_normalize.mpr (h segment place hmem)

theorem wellTimed_normalize {segments : List TranscriptSegment} (h : WellTimed segments) :
    WellTimed (segments.map normalize) where
  start_le_stop := by
    intro segment hsegment
    obtain ⟨other, hother, rfl⟩ := List.mem_map.mp hsegment
    exact h.start_le_stop other hother
  apart := List.pairwise_map.mpr h.apart

theorem withinSpan_normalize {segments : List TranscriptSegment} (h : WithinSpan segments inputs) :
    WithinSpan (segments.map normalize) inputs := by
  intro segment hsegment
  obtain ⟨other, hother, rfl⟩ := List.mem_map.mp hsegment
  exact h other hother

/-- The segments of a call without delta, before they are normalized. -/
def joinedSegments (chars : CharClass) (segments newSegments : List TranscriptSegment) :
    List TranscriptSegment :=
  segments.dropLast ++ (newSegments.foldl (joinSegment chars segments.getLast?)
    { joined := segments.getLast?.toList }).joined

theorem combineSegments_zero {segments : List TranscriptSegment} (hne : newSegments ≠ []) :
    (combineSegments chars segments newSegments 0).segments =
      (joinedSegments chars segments newSegments).map normalize := by
  have hshift : newSegments.map (shift 0) = newSegments := by
    have hsame : shift 0 = id := by
      funext segment
      simp [shift]
    rw [hsame, List.map_id]
  rw [combineSegments_of_ne hne, joinAll, hshift]
  rfl

theorem combineSegments_covered_iff {segments : List TranscriptSegment} :
    Covered (combineSegments chars segments newSegments 0).segments inputs ↔
      Covered (joinedSegments chars segments newSegments) inputs := by
  by_cases hnone : newSegments = []
  · have hsame : joinedSegments chars segments newSegments = segments := by
      rw [joinedSegments, hnone]
      exact dropLast_append_getLast? segments
    rw [hsame, combineSegments, if_pos hnone]
  · rw [combineSegments_zero hnone, covered_normalize]

/-- No merge of the call costs coverage. -/
def KeepsAllCover (chars : CharClass) (segments newSegments : List TranscriptSegment) : Prop :=
  CoverKept chars segments.getLast? segments { joined := segments.getLast?.toList } newSegments

/-- The returned segments are as well timed as the inputs and within their span. They cover every
input whose whole text they hold, if no merge costs coverage; and they do so after every new
segment only then. -/
theorem combineSegments_timeline (chars : CharClass) {segments newSegments : List TranscriptSegment}
    (htimed : WellTimed (segments ++ newSegments)) :
    (WellTimed (combineSegments chars segments newSegments 0).segments ∧
      WithinSpan (combineSegments chars segments newSegments 0).segments
        (segments ++ newSegments)) ∧
    (KeepsAllCover chars segments newSegments →
      Covered (combineSegments chars segments newSegments 0).segments (segments ++ newSegments)) ∧
    ((∀ count, Covered (combineSegments chars segments (newSegments.take count) 0).segments
      (segments ++ newSegments.take count)) ↔ KeepsAllCover chars segments newSegments) := by
  have hspan : WithinSpan (segments ++ newSegments) (segments ++ newSegments) :=
    fun segment hsegment => ⟨⟨segment, hsegment, le_rfl⟩, ⟨segment, hsegment, le_rfl⟩⟩
  have hsplit := dropLast_append_getLast? segments
  have hiff : (∀ count, Covered (combineSegments chars segments (newSegments.take count) 0).segments
      (segments ++ newSegments.take count)) ↔ KeepsAllCover chars segments newSegments := by
    simp only [combineSegments_covered_iff, joinedSegments]
    refine joinFold_covered_iff ?_ ?_ ?_
    · rw [hsplit]
      exact covered_self segments
    · rw [hsplit]
    · rwa [hsplit]
  refine ⟨?_, fun hkeeps => ?_, hiff⟩
  · by_cases hnone : newSegments = []
    · rw [combineSegments, if_pos hnone]
      rw [hnone, List.append_nil] at htimed hspan ⊢
      exact ⟨htimed, hspan⟩
    · rw [combineSegments_zero hnone]
      rw [← hsplit] at htimed
      have hinside : WithinSpan (segments.dropLast ++ segments.getLast?.toList ++ newSegments)
          (segments ++ newSegments) := by
        rwa [hsplit]
      have hfold := joinFold_timed chars segments.getLast?
        { joined := segments.getLast?.toList } htimed hinside
      exact ⟨wellTimed_normalize hfold.1, withinSpan_normalize hfold.2⟩
  · have hall := hiff.mpr hkeeps newSegments.length
    rwa [List.take_length] at hall

def unfinishedSegment : TranscriptSegment where
  id := "a"
  text := "unfinished".toList
  speaker := some "SPEAKER_00"
  isUser := false
  start := 0
  stop := 2

def continuingSegment : TranscriptSegment where
  id := "b"
  text := "continues now.".toList
  speaker := some "SPEAKER_01"
  isUser := false
  start := 2
  stop := 4

theorem wellTimed_unfinished : WellTimed ([] ++ [unfinishedSegment, continuingSegment]) where
  start_le_stop := by
    intro segment hsegment
    rcases List.mem_pair.mp hsegment with rfl | rfl
    · decide +kernel
    · decide +kernel
  apart := by
    rw [List.nil_append, List.pairwise_pair]
    decide +kernel

/-- One speaker's segments are joined, and their times with them. -/
theorem combineSegments_timeline_sameSpeaker :
    Covered (combineSegments asciiClass [unfinishedSegment]
      [{ continuingSegment with speaker := some "SPEAKER_00" }] 0).segments
        ([unfinishedSegment] ++ [{ continuingSegment with speaker := some "SPEAKER_00" }]) := by
  have htimed : WellTimed
      ([unfinishedSegment] ++ [{ continuingSegment with speaker := some "SPEAKER_00" }]) := by
    refine ⟨fun segment hsegment => ?_, ?_⟩
    · rcases List.mem_pair.mp hsegment with rfl | rfl
      · decide +kernel
      · decide +kernel
    · rw [List.singleton_append, List.pairwise_pair]
      decide +kernel
  refine (combineSegments_timeline asciiClass htimed).2.1 ⟨fun last hlast => ?_, trivial⟩
  obtain rfl : unfinishedSegment = last := Option.some.inj hlast
  exact .of_still (by decide +kernel) (by decide +kernel)

/-- The unfinished sentence goes to the next speaker, whose segment keeps its start. -/
theorem not_combineSegments_timeline :
    ¬ ∀ (chars : CharClass) (segments newSegments : List TranscriptSegment),
      WellTimed (segments ++ newSegments) →
      Covered (combineSegments chars segments newSegments 0).segments
        (segments ++ newSegments) := by
  intro hall
  have hcovered := hall asciiClass [] [unfinishedSegment, continuingSegment] wellTimed_unfinished
  have hresult : (combineSegments asciiClass [] [unfinishedSegment, continuingSegment] 0).segments =
      [{ continuingSegment with text := "unfinished continues now.".toList }] := by decide +kernel
  rw [hresult] at hcovered
  have hstart := hcovered _ _ List.mem_cons_self unfinishedSegment 0 List.mem_cons_self
    (by decide +kernel) le_rfl (by decide +kernel)
  exact absurd hstart.1 (by decide +kernel)

end Omi.Transcripts
