import Omi.Transcripts.Sentences

/-! `TranscriptSegment.combine_segments`: new segments are merged one by one into the last stored
one, and all texts are normalized. Times are exact. -/
namespace Omi.Transcripts
open Omi.Foundation

structure TranscriptSegment where
  id : String
  text : Text
  speaker : Option String
  isUser : Bool
  start : ℚ
  stop : ℚ
  speechProfileProcessed : Bool := true
  sttProvider : Option String := none
  speakerIdScope : Option String := none
  deriving DecidableEq

/-! ### Merging two segments -/

/-- `a.speaker == b.speaker or (a.is_user and b.is_user)`. -/
def sameSpeaker (a b : TranscriptSegment) : Bool :=
  decide (a.speaker = b.speaker) || (a.isUser && b.isUser)

def shouldMergeSameSpeaker (a b : TranscriptSegment) : Bool :=
  sameSpeaker a b && decide (a.speechProfileProcessed = b.speechProfileProcessed) &&
    decide (b.start - a.stop < 3) && (decide (a.text.length < 125) || !endsSentence a.text)

variable (chars : CharClass)

def shouldMergeLowercaseContinuation (a b : TranscriptSegment) : Bool :=
  a.text ≠ [] && b.text ≠ [] && sameSpeaker a b && !endsSentence a.text &&
    startsWithLowercaseCased chars b.text &&
    decide (a.speechProfileProcessed = b.speechProfileProcessed)

/-- What `_merge` leaves of two segments. No first segment: its text has gone to the second. -/
abbrev Merged := Option TranscriptSegment × Option TranscriptSegment

/-- `b.text = f'{last_incomplete} {b.text}'.strip()`. -/
def withMoved (moved : Text) (b : TranscriptSegment) : TranscriptSegment :=
  { b with text := stripList (moved ++ ' ' :: b.text) }

/-- `a.text = f'{a.text} {first_sentence}'.strip()`. -/
def withSentence (a : TranscriptSegment) (sentence : Text) : TranscriptSegment :=
  { a with text := stripList (a.text ++ ' ' :: sentence) }

def withJoined (a b : TranscriptSegment) : TranscriptSegment :=
  { a with text := a.text ++ ' ' :: b.text, stop := b.stop }

/-- The last incomplete sentence of `a` moves to `b`, if it is shorter. -/
def mergeForward (a b : TranscriptSegment) (lastIncomplete before : Text) : Option Merged :=
  if lastIncomplete.length < (stripList b.text).length then
    if before ≠ [] then
      some (some { a with text := before, stop := min a.stop b.start },
        some (withMoved lastIncomplete b))
    else some (none, some (withMoved lastIncomplete b))
  else none

/-- The branches for two speakers; `none` where none of them returns. -/
def mergeSpeakers (a b : TranscriptSegment) : Option Merged :=
  match extractLastIncompleteSentence a.text with
  | (none, _) => none
  | (some lastIncomplete, before) =>
    let (firstSentence, rest) := splitFirstSentence b.text
    if canBackwardMergeFirstSentence firstSentence rest lastIncomplete then
      some (some (withSentence a firstSentence), some { b with text := rest })
    else if canBackwardMergeSingleSentence chars firstSentence lastIncomplete then
      some (some (withSentence a firstSentence), none)
    else mergeForward a b lastIncomplete before

/-- The block for two speakers who both have a text. -/
def mergeOtherSpeaker (a b : TranscriptSegment) : Option Merged :=
  if !sameSpeaker a b && a.text ≠ [] && b.text ≠ [] then mergeSpeakers chars a b else none

def mergeSameSpeaker (a b : TranscriptSegment) : Merged :=
  if shouldMergeSameSpeaker a b then (some (withJoined a b), none)
  else if shouldMergeLowercaseContinuation chars a b then (some (withJoined a b), none)
  else (some a, some b)

def merge (a b : TranscriptSegment) : Merged :=
  if b.sttProvider ≠ a.sttProvider then (some a, some b)
  else if b.speakerIdScope ≠ a.speakerIdScope then (some a, some b)
  else (mergeOtherSpeaker chars a b).getD (mergeSameSpeaker chars a b)

/-! ### The join loop -/

structure JoinState where
  joined : List TranscriptSegment
  removedIds : List String := []
  droppedExistingTail : Bool := false

/-- One new segment. A segment whose text has gone is dropped, and the stored one is reported. -/
def joinSegment (tail : Option TranscriptSegment) (state : JoinState)
    (newSegment : TranscriptSegment) : JoinState :=
  match state.joined.getLast? with
  | none => { state with joined := [newSegment] }
  | some last =>
    match merge chars last newSegment with
    | (some a, b) => { state with joined := state.joined.dropLast ++ a :: b.toList }
    | (none, b) =>
      let dropped : JoinState := { state with joined := state.joined.dropLast ++ b.toList }
      if tail.any fun stored => last.id = stored.id then
        { dropped with
          removedIds := state.removedIds ++ [last.id]
          droppedExistingTail := true }
      else dropped

def shift (deltaSeconds : ℤ) (segment : TranscriptSegment) : TranscriptSegment :=
  if 0 < deltaSeconds then
    { segment with start := segment.start + deltaSeconds, stop := segment.stop + deltaSeconds }
  else segment

def joinAll (segments newSegments : List TranscriptSegment) (deltaSeconds : ℤ) : JoinState :=
  (newSegments.map (shift deltaSeconds)).foldl (joinSegment chars segments.getLast?)
    { joined := segments.getLast?.toList }

def normalize (segment : TranscriptSegment) : TranscriptSegment :=
  { segment with text := normalizeText segment.text }

/-- The stored segments that stay before the joined ones. -/
def keptSegments (segments : List TranscriptSegment) (state : JoinState) :
    List TranscriptSegment :=
  if state.droppedExistingTail then segments.dropLast
  else
    match segments.getLast?, state.joined.head? with
    | some tail, some first => if tail.id = first.id then segments.dropLast else segments
    | _, _ => segments

/-- The stored segments, those of them that are reported as updated, and the removed ids. -/
structure CombineResult where
  segments : List TranscriptSegment
  updated : List TranscriptSegment
  removedIds : List String

def combineSegments (segments newSegments : List TranscriptSegment) (deltaSeconds : ℤ) :
    CombineResult :=
  if newSegments = [] then { segments := segments, updated := [], removedIds := [] }
  else
    let state := joinAll chars segments newSegments deltaSeconds
    { segments := (keptSegments segments state ++ state.joined).map normalize
      updated := state.joined.map normalize
      removedIds := state.removedIds }

/-! ### What a merge can do -/

variable {chars}

/-- The branches of `_merge`, with what each of them knows. -/
inductive MergeCase (chars : CharClass) (a b : TranscriptSegment) : Merged → Prop
  | kept : MergeCase chars a b (some a, some b)
  | firstSentence (first rest : Text) (hsplit : splitFirstSentence b.text = (first, rest))
      (hrest : rest ≠ []) :
      MergeCase chars a b (some (withSentence a first), some { b with text := rest })
  | singleSentence (first : Text) (hsplit : splitFirstSentence b.text = (first, []))
      (hother : sameSpeaker a b = false) :
      MergeCase chars a b (some (withSentence a first), none)
  | moved (lastIncomplete before : Text)
      (hlast : extractLastIncompleteSentence a.text = (some lastIncomplete, before))
      (hbefore : before ≠ []) :
      MergeCase chars a b (some { a with text := before, stop := min a.stop b.start },
        some (withMoved lastIncomplete b))
  | movedWhole (lastIncomplete : Text)
      (hlast : extractLastIncompleteSentence a.text = (some lastIncomplete, [])) :
      MergeCase chars a b (none, some (withMoved lastIncomplete b))
  | joined (hspeaker : sameSpeaker a b = true) : MergeCase chars a b (some (withJoined a b), none)

theorem mergeForward_case {a b : TranscriptSegment} {lastIncomplete before : Text} {merged : Merged}
    (hlast : extractLastIncompleteSentence a.text = (some lastIncomplete, before))
    (h : mergeForward a b lastIncomplete before = some merged) : MergeCase chars a b merged := by
  unfold mergeForward at h
  split_ifs at h with hshorter hbefore
  · cases h
    exact .moved lastIncomplete before hlast hbefore
  · cases h
    rw [not_not] at hbefore
    subst hbefore
    exact .movedWhole lastIncomplete hlast

theorem mergeSpeakers_case {a b : TranscriptSegment} {merged : Merged}
    (hother : sameSpeaker a b = false) (h : mergeSpeakers chars a b = some merged) : MergeCase chars a b merged := by
  unfold mergeSpeakers at h
  rcases hlast : extractLastIncompleteSentence a.text with ⟨- | lastIncomplete, before⟩
  · rw [hlast] at h
    cases h
  · rw [hlast] at h
    rcases hsplit : splitFirstSentence b.text with ⟨first, rest⟩
    rw [hsplit] at h
    dsimp only at h
    by_cases hfirst : canBackwardMergeFirstSentence first rest lastIncomplete = true
    · rw [if_pos hfirst] at h
      cases h
      have hrest : rest ≠ [] := by
        unfold canBackwardMergeFirstSentence at hfirst
        simp only [Bool.and_eq_true, decide_eq_true_eq] at hfirst
        exact hfirst.1.1
      exact .firstSentence first rest hsplit hrest
    · rw [if_neg hfirst] at h
      by_cases hsingle : canBackwardMergeSingleSentence chars first lastIncomplete = true
      · rw [if_pos hsingle] at h
        cases h
        -- a rest would have let the first sentence alone move
        have hrest : rest = [] := by
          unfold canBackwardMergeFirstSentence at hfirst
          unfold canBackwardMergeSingleSentence at hsingle
          simp only [Bool.and_eq_true, decide_eq_true_eq] at hfirst hsingle
          by_contra hne
          exact hfirst ⟨⟨hne, hsingle.1.1⟩, hsingle.2⟩
        subst hrest
        exact .singleSentence first hsplit hother
      · rw [if_neg hsingle] at h
        exact mergeForward_case hlast h

theorem mergeSameSpeaker_case (a b : TranscriptSegment) :
    MergeCase chars a b (mergeSameSpeaker chars a b) := by
  unfold mergeSameSpeaker
  split_ifs with hsame hlower
  · refine .joined ?_
    unfold shouldMergeSameSpeaker at hsame
    simp only [Bool.and_eq_true] at hsame
    exact hsame.1.1.1
  · refine .joined ?_
    unfold shouldMergeLowercaseContinuation at hlower
    simp only [Bool.and_eq_true] at hlower
    exact hlower.1.1.1.2
  · exact .kept

theorem merge_case (a b : TranscriptSegment) : MergeCase chars a b (merge chars a b) := by
  unfold merge
  split_ifs
  · exact .kept
  · exact .kept
  · cases hmoved : mergeOtherSpeaker chars a b with
    | none => exact mergeSameSpeaker_case a b
    | some merged =>
      unfold mergeOtherSpeaker at hmoved
      split_ifs at hmoved with hother
      refine mergeSpeakers_case ?_ hmoved
      simp only [Bool.and_eq_true, Bool.not_eq_true'] at hother
      exact hother.1.1

theorem merge_case_of_eq {a b : TranscriptSegment} {merged : Merged}
    (h : merge chars a b = merged) : MergeCase chars a b merged :=
  h ▸ merge_case a b

/-- What a merge leaves, in order. -/
def mergedSegments (chars : CharClass) (a b : TranscriptSegment) : List TranscriptSegment :=
  (merge chars a b).1.toList ++ (merge chars a b).2.toList

/-- The texts of a list of segments, without whitespace. -/
def bareText (segments : List TranscriptSegment) : Text :=
  bare (segments.flatMap fun segment => segment.text)

@[simp] theorem bareText_nil : bareText [] = [] := rfl

@[simp] theorem bareText_append (front back : List TranscriptSegment) :
    bareText (front ++ back) = bareText front ++ bareText back := by
  rw [bareText, List.flatMap_append, bare_append]
  rfl

@[simp] theorem bareText_cons (segment : TranscriptSegment) (rest : List TranscriptSegment) :
    bareText (segment :: rest) = bare segment.text ++ bareText rest := by
  rw [bareText, List.flatMap_cons, bare_append]
  rfl

/-- A merge keeps the text of the two segments. -/
theorem MergeCase.text_eq {a b : TranscriptSegment} {merged : Merged}
    (h : MergeCase chars a b merged) :
    bareText (merged.1.toList ++ merged.2.toList) = bare a.text ++ bare b.text := by
  cases h with
  | kept => simp
  | firstSentence first rest hsplit hrest =>
    have htext := splitFirstSentence_bare hsplit
    simp [withSentence, htext]
  | singleSentence first hsplit hother =>
    have htext := splitFirstSentence_bare hsplit
    simp [withSentence, htext]
  | moved lastIncomplete before hlast hbefore =>
    have htext := extractLastIncompleteSentence_bare hlast
    simp [withMoved, htext]
  | movedWhole lastIncomplete hlast =>
    have htext := extractLastIncompleteSentence_bare hlast
    simp [withMoved, htext]
  | joined hspeaker => simp [withJoined]

theorem mergedSegments_bareText (a b : TranscriptSegment) :
    bareText (mergedSegments chars a b) = bare a.text ++ bare b.text :=
  (merge_case a b).text_eq

/-- The first segment keeps its id, whatever it is merged with. -/
theorem MergeCase.id_eq {a b first : TranscriptSegment} {second : Option TranscriptSegment}
    (h : MergeCase chars a b (some first, second)) : first.id = a.id := by
  cases h <;> rfl

/-- Where the first segment goes, the second stays. -/
theorem MergeCase.moved_some {a b : TranscriptSegment} {second : Option TranscriptSegment}
    (h : MergeCase chars a b (none, second)) : ∃ moved, second = some moved ∧ moved.id = b.id := by
  cases h
  exact ⟨_, rfl, rfl⟩

/-! ### What a round of the loop can do -/

variable {tail : Option TranscriptSegment} {state next : JoinState}
  {newSegment : TranscriptSegment}

/-- The branches of the loop's body. -/
inductive JoinCase (chars : CharClass) (tail : Option TranscriptSegment) (state : JoinState)
    (newSegment : TranscriptSegment) : JoinState → Prop
  | opened (hnil : state.joined = []) :
      JoinCase chars tail state newSegment { state with joined := [newSegment] }
  | merged (front : List TranscriptSegment) (last first : TranscriptSegment)
      (second : Option TranscriptSegment) (hjoined : state.joined = front ++ [last])
      (hmerge : merge chars last newSegment = (some first, second)) :
      JoinCase chars tail state newSegment { state with joined := front ++ first :: second.toList }
  | dropped (front : List TranscriptSegment) (last moved : TranscriptSegment)
      (hjoined : state.joined = front ++ [last])
      (hmerge : merge chars last newSegment = (none, some moved))
      (hother : ∀ stored ∈ tail, stored.id ≠ last.id) :
      JoinCase chars tail state newSegment { state with joined := front ++ [moved] }
  | removed (stored : TranscriptSegment) (front : List TranscriptSegment)
      (last moved : TranscriptSegment) (hstored : stored ∈ tail) (hid : stored.id = last.id)
      (hjoined : state.joined = front ++ [last])
      (hmerge : merge chars last newSegment = (none, some moved)) :
      JoinCase chars tail state newSegment
        { joined := front ++ [moved], removedIds := state.removedIds ++ [last.id],
          droppedExistingTail := true }

theorem joinSegment_case (chars : CharClass) (tail : Option TranscriptSegment) (state : JoinState)
    (newSegment : TranscriptSegment) :
    JoinCase chars tail state newSegment (joinSegment chars tail state newSegment) := by
  unfold joinSegment
  rcases List.eq_nil_or_concat state.joined with hnil | ⟨front, last, hconcat⟩
  · rw [hnil]
    exact .opened hnil
  · have hjoined : state.joined = front ++ [last] := by rw [hconcat, List.concat_eq_append]
    have hlast : state.joined.getLast? = some last := by simp [hjoined]
    have hfront : state.joined.dropLast = front := by simp [hjoined]
    rw [hlast]
    rcases hmerged : merge chars last newSegment with ⟨- | first, second⟩
    · obtain ⟨moved, rfl, -⟩ := (merge_case_of_eq hmerged).moved_some
      simp only [hmerged, hfront]
      cases tail with
      | none => exact .dropped front last moved hjoined hmerged fun _ h => by cases h
      | some stored =>
        by_cases hid : stored.id = last.id
        · rw [if_pos (by simp [hid])]
          exact .removed stored front last moved rfl hid hjoined hmerged
        · rw [if_neg (by simpa using fun hsame => hid hsame.symm)]
          refine .dropped front last moved hjoined hmerged fun other hother => ?_
          rw [← Option.some.inj hother]
          exact hid
    · simp only [hmerged, hfront]
      exact .merged front last first second hjoined hmerged

/-- A round of the loop replaces the last joined segment and the new one. -/
theorem JoinCase.replaces (h : JoinCase chars tail state newSegment next) :
    (state.joined = [] ∧ next.joined = [newSegment]) ∨ ∃ front last,
      state.joined = front ++ [last] ∧
        next.joined = front ++ mergedSegments chars last newSegment := by
  cases h with
  | opened hnil => exact .inl ⟨hnil, rfl⟩
  | merged front last first second hjoined hmerge =>
    exact .inr ⟨front, last, hjoined, by simp [mergedSegments, hmerge]⟩
  | dropped front last moved hjoined hmerge hother =>
    exact .inr ⟨front, last, hjoined, by simp [mergedSegments, hmerge]⟩
  | removed stored front last moved hstored hid hjoined hmerge =>
    exact .inr ⟨front, last, hjoined, by simp [mergedSegments, hmerge]⟩

theorem JoinCase.text_eq (h : JoinCase chars tail state newSegment next) :
    bareText next.joined =
      bareText state.joined ++ bare newSegment.text := by
  rcases h.replaces with ⟨hnil, hopened⟩ | ⟨front, last, hjoined, hnext⟩
  · simp [hnil, hopened]
  · rw [hnext, hjoined, bareText_append, mergedSegments_bareText]
    simp

theorem foldl_joinSegment_bareText (newSegments : List TranscriptSegment) :
    bareText (newSegments.foldl (joinSegment chars tail) state).joined =
      bareText state.joined ++ bareText newSegments := by
  induction newSegments generalizing state with
  | nil => simp
  | cons newSegment rest ih =>
    rw [List.foldl_cons, ih, (joinSegment_case _ _ _ _).text_eq, bareText_cons, List.append_assoc]

/-- The copy of the stored last segment leads the joined ones, or has been dropped. -/
def TailLeads (tail : Option TranscriptSegment) (state : JoinState) : Prop :=
  ∀ stored ∈ tail, state.droppedExistingTail = true ∨
    ∃ first ∈ state.joined.head?, stored.id = first.id

theorem JoinCase.tailLeads (h : JoinCase chars tail state newSegment next)
    (hleads : TailLeads tail state) : TailLeads tail next := by
  intro stored hstored
  cases h with
  | opened hnil =>
    rcases hleads stored hstored with hdropped | ⟨first, hfirst, -⟩
    · exact .inl hdropped
    · rw [hnil] at hfirst
      cases hfirst
  | merged front last first second hjoined hmerge =>
    refine (hleads stored hstored).imp id fun ⟨head, hhead, hid⟩ => ?_
    rw [hjoined] at hhead
    cases front with
    | nil =>
      obtain rfl : last = head := Option.some.inj hhead
      exact ⟨first, rfl, hid.trans (merge_case_of_eq hmerge).id_eq.symm⟩
    | cons other front => exact ⟨head, hhead, hid⟩
  | dropped front last moved hjoined hmerge hother =>
    refine (hleads stored hstored).imp id fun ⟨head, hhead, hid⟩ => ?_
    rw [hjoined] at hhead
    cases front with
    | nil =>
      obtain rfl : last = head := Option.some.inj hhead
      exact absurd hid (hother stored hstored)
    | cons other front => exact ⟨head, hhead, hid⟩
  | removed => exact .inl rfl

theorem tailLeads_joinAll (chars : CharClass) (segments newSegments : List TranscriptSegment)
    (deltaSeconds : ℤ) :
    TailLeads segments.getLast? (joinAll chars segments newSegments deltaSeconds) := by
  refine List.foldlRecOn _ _ ?_ fun state hstate newSegment _ =>
    (joinSegment_case _ _ state newSegment).tailLeads hstate
  intro stored hstored
  refine .inr ⟨stored, ?_, rfl⟩
  rw [Option.mem_def.mp hstored]
  rfl

/-- Whatever is joined, the stored last segment gives way to it. -/
theorem keptSegments_joinAll (segments newSegments : List TranscriptSegment) (deltaSeconds : ℤ) :
    keptSegments segments (joinAll chars segments newSegments deltaSeconds) =
      segments.dropLast := by
  have hleads := tailLeads_joinAll chars segments newSegments deltaSeconds
  unfold keptSegments
  split_ifs with hdropped
  · rfl
  · cases htail : segments.getLast? with
    | none => simp [List.getLast?_eq_none_iff.mp htail]
    | some tail =>
      obtain ⟨first, hfirst, hid⟩ := (hleads tail htail).resolve_left hdropped
      rw [Option.mem_def.mp hfirst]
      simp only [hid, if_true]

/-- A call that brings new segments. -/
theorem combineSegments_of_ne {segments newSegments : List TranscriptSegment} {deltaSeconds : ℤ}
    (hne : newSegments ≠ []) :
    combineSegments chars segments newSegments deltaSeconds =
      { segments := (segments.dropLast ++
          (joinAll chars segments newSegments deltaSeconds).joined).map normalize
        updated := (joinAll chars segments newSegments deltaSeconds).joined.map normalize
        removedIds := (joinAll chars segments newSegments deltaSeconds).removedIds } := by
  rw [combineSegments, if_neg hne]
  dsimp only
  rw [keptSegments_joinAll]

theorem bareText_normalize (segments : List TranscriptSegment) :
    bareText (segments.map normalize) = bareText segments := by
  induction segments with
  | nil => rfl
  | cons segment rest ih => simp [normalize, ih]

theorem bareText_shift (deltaSeconds : ℤ) (segments : List TranscriptSegment) :
    bareText (segments.map (shift deltaSeconds)) = bareText segments := by
  induction segments with
  | nil => rfl
  | cons segment rest ih =>
    have htext : (shift deltaSeconds segment).text = segment.text := by
      unfold shift
      split_ifs <;> rfl
    rw [List.map_cons, bareText_cons, bareText_cons, htext, ih]

theorem dropLast_append_getLast? (segments : List TranscriptSegment) :
    segments.dropLast ++ segments.getLast?.toList = segments := by
  cases hlast : segments.getLast? with
  | none => simp [List.getLast?_eq_none_iff.mp hlast]
  | some last => simpa using List.dropLast_append_getLast? last hlast

/-- No word is lost, doubled or moved past another. -/
theorem combineSegments_bareText (chars : CharClass) (segments newSegments : List TranscriptSegment)
    (deltaSeconds : ℤ) :
    bareText (combineSegments chars segments newSegments deltaSeconds).segments =
      bareText segments ++ bareText newSegments := by
  by_cases hnone : newSegments = []
  · simp [combineSegments, hnone]
  · rw [combineSegments_of_ne hnone, bareText_normalize, bareText_append, joinAll,
      foldl_joinSegment_bareText, bareText_shift, ← List.append_assoc, ← bareText_append]
    dsimp only
    rw [dropLast_append_getLast?]

end Omi.Transcripts
