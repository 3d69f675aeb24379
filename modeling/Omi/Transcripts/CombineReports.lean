import Omi.Foundation.Runs
import Omi.Transcripts.CombineSegments

/-! What `combine_segments` reports of its changes: the stored segments that it has changed are
among the updated ones, or their ids among the removed. -/
namespace Omi.Transcripts
open Omi.Foundation

def idsOf (segments : List TranscriptSegment) : List String :=
  segments.map fun segment => segment.id

@[simp] theorem idsOf_nil : idsOf [] = [] := rfl

@[simp] theorem idsOf_cons (segment : TranscriptSegment) (rest : List TranscriptSegment) :
    idsOf (segment :: rest) = segment.id :: idsOf rest := rfl

@[simp] theorem idsOf_append (front back : List TranscriptSegment) :
    idsOf (front ++ back) = idsOf front ++ idsOf back := List.map_append

@[simp] theorem idsOf_normalize (segments : List TranscriptSegment) :
    idsOf (segments.map normalize) = idsOf segments := by
  simp [idsOf, normalize]

theorem mem_idsOf {segments : List TranscriptSegment} {segment : TranscriptSegment}
    (h : segment ∈ segments) : segment.id ∈ idsOf segments :=
  List.mem_map_of_mem h

/-- A stored segment that is not reported is what it was, and each stored id is either still there
or removed. -/
structure Reports (segments : List TranscriptSegment) (result : CombineResult) : Prop where
  unreported : ∀ segment ∈ segments, segment.id ∉ idsOf result.updated →
    segment.id ∉ result.removedIds →
    ∀ other ∈ result.segments, other.id = segment.id → other = segment
  owned : ∀ segment ∈ segments,
    (segment.id ∈ idsOf result.segments ∧ segment.id ∉ result.removedIds) ∨
      (segment.id ∉ idsOf result.segments ∧ segment.id ∈ result.removedIds)

/-- No two segments, stored or new, have the same id. -/
def DistinctIds (segments newSegments : List TranscriptSegment) : Prop :=
  (idsOf (segments ++ newSegments)).Nodup

/-- Normalizing leaves the stored segments alone, but for the last one. -/
def Settled (segments newSegments : List TranscriptSegment) : Prop :=
  newSegments ≠ [] → ∀ segment ∈ segments.dropLast, normalize segment = segment

instance (segments newSegments : List TranscriptSegment) :
    Decidable (DistinctIds segments newSegments) :=
  inferInstanceAs (Decidable (List.Nodup _))

instance (segments newSegments : List TranscriptSegment) :
    Decidable (Settled segments newSegments) :=
  inferInstanceAs (Decidable (_ → _))

/-! ### The ids that the loop keeps -/

variable {chars : CharClass} {tail : Option TranscriptSegment} {state next : JoinState}
  {newSegment : TranscriptSegment}

/-- The stored last segment is joined, or its id is the one that is removed. -/
inductive TailOwned (tail : Option TranscriptSegment) (state : JoinState) : Prop
  | joined (hremoved : state.removedIds = [])
      (hjoined : ∀ stored ∈ tail, stored.id ∈ idsOf state.joined)
  | removed (stored : TranscriptSegment) (hstored : stored ∈ tail)
      (hremoved : state.removedIds = [stored.id]) (hgone : stored.id ∉ idsOf state.joined)

theorem MergeCase.ids {a b : TranscriptSegment} {merged : Merged}
    (h : MergeCase chars a b merged) :
    (idsOf (merged.1.toList ++ merged.2.toList)).Sublist [a.id, b.id] := by
  cases h <;> simp [withSentence, withMoved, withJoined]

theorem mergedSegments_ids (chars : CharClass) (a b : TranscriptSegment) :
    (idsOf (mergedSegments chars a b)).Sublist [a.id, b.id] :=
  (merge_case a b).ids

theorem JoinCase.ids (h : JoinCase chars tail state newSegment next) :
    (idsOf next.joined).Sublist (idsOf state.joined ++ [newSegment.id]) := by
  rcases h.replaces with ⟨hnil, hopened⟩ | ⟨front, last, hjoined, hnext⟩
  · simp [hnil, hopened]
  · have hids := (mergedSegments_ids chars last newSegment).append_left (idsOf front)
    rw [hnext, hjoined, idsOf_append]
    simpa using hids

/-- A round, for a new segment with an id of its own. -/
theorem JoinCase.tailOwned (h : JoinCase chars tail state newSegment next)
    (howned : TailOwned tail state) (hdistinct : (idsOf state.joined).Nodup)
    (hnew : ∀ stored ∈ tail, stored.id ≠ newSegment.id) : TailOwned tail next := by
  cases howned with
  | joined hremoved htail =>
    cases h with
    | opened hnil =>
      refine .joined hremoved fun stored hstored => ?_
      have hmem := htail stored hstored
      rw [hnil] at hmem
      cases hmem
    | merged front last first second hjoined hmerge =>
      refine .joined hremoved fun stored hstored => ?_
      have hmem := htail stored hstored
      rw [hjoined] at hmem
      simp only [idsOf_append, idsOf_cons, idsOf_nil, List.mem_append, List.mem_cons,
        (merge_case_of_eq hmerge).id_eq] at hmem ⊢
      tauto
    | dropped front last moved hjoined hmerge hother =>
      refine .joined hremoved fun stored hstored => ?_
      have hmem := htail stored hstored
      rw [hjoined] at hmem
      simp only [idsOf_append, idsOf_cons, idsOf_nil, List.mem_append, List.mem_singleton] at hmem ⊢
      exact .inl (hmem.resolve_right (hother stored hstored))
    | removed stored front last moved hstored hid hjoined hmerge =>
      obtain ⟨other, hother, hmoved⟩ := (merge_case_of_eq hmerge).moved_some
      obtain rfl : moved = other := Option.some.inj hother
      refine .removed stored hstored (by rw [hremoved, hid]; rfl) ?_
      rw [hjoined, idsOf_append] at hdistinct
      have hfront : last.id ∉ idsOf front := fun hmem =>
        (List.nodup_append.mp hdistinct).2.2 _ hmem _ (List.mem_singleton.mpr rfl) rfl
      simp only [idsOf_append, idsOf_cons, idsOf_nil, List.mem_append, List.mem_singleton, hmoved]
      rintro (hmem | hsame)
      · exact hfront (hid ▸ hmem)
      · exact hnew stored hstored hsame
  | removed stored hstored hremoved hgone =>
    have hgone' : stored.id ∉ idsOf next.joined := by
      intro hmem
      rcases List.mem_append.mp (h.ids.subset hmem) with hold | hfresh
      · exact hgone hold
      · exact hnew stored hstored (List.mem_singleton.mp hfresh)
    cases h with
    | opened hnil => exact .removed stored hstored hremoved hgone'
    | merged front last first second hjoined hmerge =>
      exact .removed stored hstored hremoved hgone'
    | dropped front last moved hjoined hmerge hother =>
      exact .removed stored hstored hremoved hgone'
    | removed other front last moved hother hid hjoined hmerge =>
      -- the stored one is joined no more, so it is not dropped again
      obtain rfl : stored = other := Option.some.inj (hstored.symm.trans hother)
      refine absurd ?_ hgone
      rw [hjoined, idsOf_append, hid]
      exact List.mem_append_right _ (List.mem_singleton.mpr rfl)

/-- The ids that a loop over new segments leaves, and what becomes of the stored last one's. -/
theorem joinFold_ids (chars : CharClass) {newSegments : List TranscriptSegment}
    (howned : TailOwned tail state)
    (hdistinct : (idsOf (state.joined ++ newSegments)).Nodup)
    (hnew : ∀ stored ∈ tail, stored.id ∉ idsOf newSegments) :
    TailOwned tail (newSegments.foldl (joinSegment chars tail) state) ∧
      (idsOf (newSegments.foldl (joinSegment chars tail) state).joined).Sublist
        (idsOf (state.joined ++ newSegments)) := by
  induction newSegments generalizing state with
  | nil => exact ⟨howned, by simp⟩
  | cons newSegment rest ih =>
    have hcase := joinSegment_case chars tail state newSegment
    have hsublist : (idsOf ((joinSegment chars tail state newSegment).joined ++ rest)).Sublist
        (idsOf (state.joined ++ newSegment :: rest)) := by
      have hids := hcase.ids.append_right (idsOf rest)
      simpa using hids
    have hjoined : (idsOf state.joined).Nodup := by
      rw [idsOf_append] at hdistinct
      exact (List.nodup_append.mp hdistinct).1
    have hnext := hcase.tailOwned howned hjoined fun stored hstored hsame =>
      hnew stored hstored (by simp [hsame])
    obtain ⟨htail, hids⟩ := ih hnext (hdistinct.sublist hsublist) fun stored hstored hmem =>
      hnew stored hstored (List.mem_cons_of_mem _ hmem)
    exact ⟨htail, hids.trans hsublist⟩

/-! ### One call -/

section call
variable {segments newSegments : List TranscriptSegment} {deltaSeconds : ℤ}

@[simp] theorem idsOf_shift (newSegments : List TranscriptSegment) :
    idsOf (newSegments.map (shift deltaSeconds)) = idsOf newSegments := by
  simp only [idsOf, List.map_map]
  refine List.map_congr_left fun segment _ => ?_
  show (shift deltaSeconds segment).id = segment.id
  unfold shift
  split_ifs <;> rfl

theorem idsOf_dropLast_tail (segments newSegments : List TranscriptSegment) :
    idsOf (segments ++ newSegments) =
      idsOf segments.dropLast ++ idsOf (segments.getLast?.toList ++ newSegments) := by
  rw [← idsOf_append, ← List.append_assoc, dropLast_append_getLast?]

theorem joinAll_ids (chars : CharClass) (deltaSeconds : ℤ)
    (hdistinct : DistinctIds segments newSegments) :
    TailOwned segments.getLast? (joinAll chars segments newSegments deltaSeconds) ∧
      (idsOf (joinAll chars segments newSegments deltaSeconds).joined).Sublist
        (idsOf (segments.getLast?.toList ++ newSegments)) := by
  have hnodup : (idsOf (segments.getLast?.toList ++ newSegments)).Nodup := by
    rw [DistinctIds, idsOf_dropLast_tail] at hdistinct
    exact (List.nodup_append.mp hdistinct).2.1
  have howned : TailOwned segments.getLast? { joined := segments.getLast?.toList } :=
    .joined rfl fun stored hstored => mem_idsOf (Option.mem_toList.mpr hstored)
  have hshifted : (idsOf (segments.getLast?.toList ++
      newSegments.map (shift deltaSeconds))).Nodup := by simpa using hnodup
  have hfold := joinFold_ids chars howned hshifted
    (by
      intro stored hstored hmem
      rw [idsOf_shift] at hmem
      rw [idsOf_append] at hnodup
      exact (List.nodup_append.mp hnodup).2.2 _ (mem_idsOf (Option.mem_toList.mpr hstored)) _
        hmem rfl)
  simpa [joinAll] using hfold

theorem TailOwned.mem_removed (h : TailOwned tail state) {id : String}
    (hid : id ∈ state.removedIds) : ∃ stored ∈ tail, stored.id = id := by
  cases h with
  | joined hremoved htail =>
    rw [hremoved] at hid
    cases hid
  | removed stored hstored hremoved hgone =>
    rw [hremoved] at hid
    exact ⟨stored, hstored, (List.mem_singleton.mp hid).symm⟩

/-- The stored last segment is among the joined ones, or reported as removed. -/
theorem TailOwned.of_mem (h : TailOwned tail state) {segment : TranscriptSegment}
    (hsegment : segment ∈ tail) :
    (segment.id ∈ idsOf state.joined ∧ segment.id ∉ state.removedIds) ∨
      (segment.id ∈ state.removedIds ∧ segment.id ∉ idsOf state.joined) := by
  cases h with
  | joined hremoved htail =>
    refine .inl ⟨htail segment hsegment, ?_⟩
    rw [hremoved]
    exact List.not_mem_nil
  | removed stored hstored hremoved hgone =>
    obtain rfl : stored = segment := Option.some.inj (hstored.symm.trans hsegment)
    refine .inr ⟨?_, hgone⟩
    rw [hremoved]
    exact List.mem_singleton.mpr rfl

theorem mem_dropLast_or_getLast? {segment : TranscriptSegment} (h : segment ∈ segments) :
    segment ∈ segments.dropLast ∨ segment ∈ segments.getLast? := by
  rw [← dropLast_append_getLast? segments] at h
  exact (List.mem_append.mp h).imp id Option.mem_toList.mp

/-- The segments before the last one share no id with what is joined. -/
theorem DistinctIds.apart (hdistinct : DistinctIds segments newSegments)
    {segment : TranscriptSegment} (hsegment : segment ∈ segments.dropLast) :
    segment.id ∉ idsOf (segments.getLast?.toList ++ newSegments) := by
  intro hmem
  rw [DistinctIds, idsOf_dropLast_tail] at hdistinct
  exact (List.nodup_append.mp hdistinct).2.2 _ (mem_idsOf hsegment) _ hmem rfl

/-- With ids of their own, a call reports all it changes exactly when normalizing leaves the
segments before the last one alone. -/
theorem combineSegments_reports_iff (hdistinct : DistinctIds segments newSegments) :
    Reports segments (combineSegments chars segments newSegments deltaSeconds) ↔
      Settled segments newSegments := by
  by_cases hnone : newSegments = []
  · have hresult : combineSegments chars segments newSegments deltaSeconds =
        { segments := segments, updated := [], removedIds := [] } := if_pos hnone
    rw [hresult]
    refine iff_of_true ⟨fun segment hsegment _ _ other hother hid => ?_, fun segment hsegment => ?_⟩
      fun hne => absurd hnone hne
    · rw [DistinctIds, hnone, List.append_nil] at hdistinct
      exact List.inj_on_of_nodup_map hdistinct hother hsegment hid
    · exact .inl ⟨mem_idsOf hsegment, List.not_mem_nil⟩
  · obtain ⟨howned, hids⟩ := joinAll_ids chars deltaSeconds hdistinct
    rw [combineSegments_of_ne hnone]
    set state := joinAll chars segments newSegments deltaSeconds
    have hunjoined : ∀ segment ∈ segments.dropLast, segment.id ∉ idsOf state.joined :=
      fun segment hsegment hmem => hdistinct.apart hsegment (hids.subset hmem)
    have hunremoved : ∀ segment ∈ segments.dropLast, segment.id ∉ state.removedIds := by
      intro segment hsegment hmem
      obtain ⟨stored, hstored, hid⟩ := howned.mem_removed hmem
      refine hdistinct.apart hsegment ?_
      rw [← hid, idsOf_append]
      exact List.mem_append_left _ (mem_idsOf (Option.mem_toList.mpr hstored))
    have hunique : (idsOf ((segments.dropLast ++ state.joined).map normalize)).Nodup := by
      rw [DistinctIds, idsOf_dropLast_tail] at hdistinct
      rw [idsOf_normalize, idsOf_append]
      exact hdistinct.sublist (hids.append_left _)
    have hkept : ∀ segment ∈ segments.dropLast,
        normalize segment ∈ (segments.dropLast ++ state.joined).map normalize := fun segment h =>
      List.mem_map_of_mem (List.mem_append_left _ h)
    constructor
    · intro hreports _ segment hsegment
      refine hreports.unreported segment (List.mem_of_mem_dropLast hsegment) ?_
        (hunremoved segment hsegment) _ (hkept segment hsegment) rfl
      rw [idsOf_normalize]
      exact hunjoined segment hsegment
    · intro hsettled
      refine ⟨fun segment hsegment hupdated hremoved other hother hid => ?_,
        fun segment hsegment => ?_⟩
      · rw [idsOf_normalize] at hupdated
        rcases mem_dropLast_or_getLast? hsegment with hinit | hlast
        · have hsame := List.inj_on_of_nodup_map hunique hother (hkept segment hinit) hid
          rw [hsame]
          exact hsettled hnone segment hinit
        · rcases howned.of_mem hlast with ⟨hjoined, -⟩ | ⟨hgone, -⟩
          · exact absurd hjoined hupdated
          · exact absurd hgone hremoved
      · rw [idsOf_normalize, idsOf_append, List.mem_append]
        rcases mem_dropLast_or_getLast? hsegment with hinit | hlast
        · exact .inl ⟨.inl (mem_idsOf hinit), hunremoved segment hinit⟩
        · refine (howned.of_mem hlast).imp (And.imp_left .inr) fun hremoved => ⟨?_, hremoved.1⟩
          rintro (hinit | hjoined)
          · obtain ⟨other, hother, hid⟩ := List.mem_map.mp hinit
            refine hdistinct.apart hother ?_
            rw [hid, idsOf_append]
            exact List.mem_append_left _ (mem_idsOf (Option.mem_toList.mpr hlast))
          · exact hremoved.2 hjoined

end call

/-! ### Sequences of calls -/

/-- The new segments of a call, and its delta. -/
structure CombineCall where
  newSegments : List TranscriptSegment
  deltaSeconds : ℤ := 0

def combineCall (chars : CharClass) (segments : List TranscriptSegment) (call : CombineCall) :
    CombineResult :=
  combineSegments chars segments call.newSegments call.deltaSeconds

/-- Each call is applied to the result of the last one. -/
def combineStep (chars : CharClass) (segments : List TranscriptSegment) (call : CombineCall) :
    List TranscriptSegment :=
  (combineCall chars segments call).segments

/-- In a sequence of calls, all changes are reported if the segments have ids of their own and the
stored ones before the last are normalized; and with ids of their own, only then. -/
theorem combineCalls_report (chars : CharClass) (segments : List TranscriptSegment)
    (calls : List CombineCall) :
    (EveryStep (combineStep chars) (fun stored call => DistinctIds stored call.newSegments ∧
        Settled stored call.newSegments) segments calls →
      EveryStep (combineStep chars) (fun stored call => Reports stored (combineCall chars stored call))
        segments calls) ∧
    (EveryStep (combineStep chars) (fun stored call => DistinctIds stored call.newSegments)
        segments calls →
      EveryStep (combineStep chars) (fun stored call => Reports stored (combineCall chars stored call))
        segments calls →
      EveryStep (combineStep chars) (fun stored call => Settled stored call.newSegments)
        segments calls) := by
  constructor
  · intro hevery
    exact hevery.imp fun stored call ⟨hdistinct, hsettled⟩ =>
      (combineSegments_reports_iff hdistinct).mpr hsettled
  · intro hdistinct hreports
    exact (hdistinct.and hreports).imp fun stored call ⟨hids, hreport⟩ =>
      (combineSegments_reports_iff hids).mp hreport

def firstSegment : TranscriptSegment where
  id := "a"
  text := "Yes   no.".toList
  speaker := some "SPEAKER_00"
  isUser := false
  start := 0
  stop := 1

def secondSegment : TranscriptSegment where
  id := "b"
  text := "Right.".toList
  speaker := some "SPEAKER_01"
  isUser := false
  start := 2
  stop := 3

def thirdSegment : TranscriptSegment where
  id := "c"
  text := "Good.".toList
  speaker := some "SPEAKER_02"
  isUser := false
  start := 4
  stop := 5

/-- More of the third speaker, behind a short pause. -/
def fourthSegment : TranscriptSegment :=
  { thirdSegment with
    id := "d"
    text := "And so on.".toList
    start := 6
    stop := 7 }

/-- Two stored segments, the last of which goes on in the first call; the second call adds one. -/
theorem combineCalls_report_twice :
    combineStep asciiClass [secondSegment, thirdSegment] { newSegments := [fourthSegment] } =
        [secondSegment, { thirdSegment with text := "Good. And so on.".toList, stop := 7 }] ∧
      EveryStep (combineStep asciiClass)
        (fun stored call => Reports stored (combineCall asciiClass stored call))
          [secondSegment, thirdSegment]
            [{ newSegments := [fourthSegment] },
              { newSegments := [{ firstSegment with start := 8, stop := 9 }] }] := by
  refine ⟨by decide +kernel, (combineCalls_report asciiClass _ _).1 ?_⟩
  decide +kernel

/-- The three spaces become two in the first call and one in the second, which does not report it. -/
theorem not_combineCalls_report :
    ¬ ∀ (chars : CharClass) (segments : List TranscriptSegment) (calls : List CombineCall),
      EveryStep (combineStep chars) (fun stored call => Reports stored (combineCall chars stored call))
        segments calls := by
  intro hall
  obtain ⟨-, hreports, -⟩ := hall asciiClass [] [{ newSegments := [firstSegment, secondSegment] },
    { newSegments := [thirdSegment] }]
  have hstored : combineStep asciiClass [] { newSegments := [firstSegment, secondSegment] } =
      [{ firstSegment with text := "Yes  no.".toList }, secondSegment] := by decide +kernel
  rw [hstored] at hreports
  have hsame := hreports.unreported { firstSegment with text := "Yes  no.".toList }
    List.mem_cons_self (by decide +kernel) (by decide +kernel)
    { firstSegment with text := "Yes no.".toList } (by decide +kernel) rfl
  exact absurd hsame (by decide +kernel)

end Omi.Transcripts
