import Mathlib

/-! The voice segments of an uploaded file, merged and capped, and those that are exported for
transcription (`_merge_and_cap_vad_segments` and `retrieve_vad_segments` of
`utils/sync/pipeline.py`), over exact arithmetic. -/
namespace Omi.Sync

/-- A voice segment of a file, in seconds. -/
structure VoiceSegment where
  start : ℚ
  stop : ℚ
deriving DecidableEq, Repr

namespace VoiceSegment

def length (segment : VoiceSegment) : ℚ := segment.stop - segment.start

/-- The instant lies in the segment. -/
def Holds (segment : VoiceSegment) (instant : ℚ) : Prop :=
  segment.start ≤ instant ∧ instant < segment.stop

def Precedes (segment other : VoiceSegment) : Prop := segment.stop ≤ other.start

end VoiceSegment

/-- `MAX_VAD_SEGMENT_SECONDS`, unless the environment has another. -/
def maxVadSegmentSeconds : ℕ+ := 300

variable (cap : ℕ+)

/-- One turn of the merging loop: a segment less than two minutes behind the last one joins it
where both fit the cap. -/
def mergeVoice (merged : List VoiceSegment) (segment : VoiceSegment) : List VoiceSegment :=
  match merged.getLast? with
  | none => merged ++ [segment]
  | some last =>
    if segment.start - last.stop < 120 ∧ segment.stop - last.start ≤ cap then
      merged.dropLast ++ [{ last with stop := segment.stop }]
    else merged ++ [segment]

theorem ceil_rest_lt {start stop : ℚ} (h : start < stop) :
    ⌈(stop - min (start + cap) stop) / cap⌉₊ < ⌈(stop - start) / cap⌉₊ := by
  have hcap : (0 : ℚ) < cap := by exact_mod_cast cap.pos
  have hpos : 0 < (stop - start) / cap := div_pos (sub_pos.mpr h) hcap
  have hceil : 0 < ⌈(stop - start) / cap⌉₊ := Nat.ceil_pos.mpr hpos
  rcases le_total (start + cap) stop with hle | hle
  · rw [min_eq_left hle]
    have hsplit : (stop - (start + cap)) / cap = (stop - start) / cap - 1 := by
      field_simp
      ring
    rw [hsplit, Nat.ceil_sub_one]
    omega
  · rw [min_eq_right hle, sub_self, zero_div, Nat.ceil_zero]
    exact hceil

/-- The loop that cuts a segment at the cap. -/
def capPieces (chunkStart stop : ℚ) : List VoiceSegment :=
  if chunkStart < stop then
    ⟨chunkStart, min (chunkStart + cap) stop⟩ :: capPieces (min (chunkStart + cap) stop) stop
  else []
termination_by ⌈(stop - chunkStart) / cap⌉₊
decreasing_by exact ceil_rest_lt cap ‹_›

/-- A merged segment, cut where it is too long. -/
def piecesOf (segment : VoiceSegment) : List VoiceSegment :=
  if segment.length ≤ cap then [segment] else capPieces cap segment.start segment.stop

def mergeAndCapVadSegments (voiceSegments : List VoiceSegment) : List VoiceSegment :=
  (voiceSegments.foldl (mergeVoice cap) []).flatMap (piecesOf cap)

/-- What `retrieve_vad_segments` exports: the pieces of a second and more. -/
def exportedSegments (voiceSegments : List VoiceSegment) : List VoiceSegment :=
  (mergeAndCapVadSegments cap voiceSegments).filter fun segment => 1 ≤ segment.length

/-- The files are named by these times. -/
def segmentTimestamps (startTimestamp : ℚ) (voiceSegments : List VoiceSegment) : List ℚ :=
  (exportedSegments cap voiceSegments).map fun segment => startTimestamp + segment.start

/-! ### Segments in order -/

/-- Segments as a detector returns them: none runs backwards, and each begins after those before
it. -/
structure Voiced (segments : List VoiceSegment) : Prop where
  forward : ∀ segment ∈ segments, segment.start ≤ segment.stop
  apart : segments.Pairwise VoiceSegment.Precedes

/-- Of segments in order only one holds an instant. -/
theorem eq_of_holds {segments : List VoiceSegment} (h : segments.Pairwise VoiceSegment.Precedes)
    {first second : VoiceSegment} {instant : ℚ} (hfirst : first ∈ segments)
    (hsecond : second ∈ segments) (hin : first.Holds instant) (hin' : second.Holds instant) :
    first = second := by
  have hbefore : ∀ {a b : VoiceSegment}, a.Precedes b → a.Holds instant → ¬ b.Holds instant := by
    intro a b hab ha hb
    exact absurd (ha.2.trans_le hab) (not_lt.mpr hb.1)
  induction segments with
  | nil => cases hfirst
  | cons head rest ih =>
    obtain ⟨hhead, hrest⟩ := List.pairwise_cons.mp h
    rcases List.mem_cons.mp hfirst with hfirst | hfirst
    · rcases List.mem_cons.mp hsecond with hsecond | hsecond
      · rw [hfirst, hsecond]
      · rw [hfirst] at hin
        exact absurd hin' (hbefore (hhead second hsecond) hin)
    · rcases List.mem_cons.mp hsecond with hsecond | hsecond
      · rw [hsecond] at hin'
        exact absurd hin (hbefore (hhead first hfirst) hin')
      · exact ih hrest hfirst hsecond

/-! ### Merging -/

variable {cap}

/-- What the merging loop has made of the segments so far. -/
structure MergedFrom (cap : ℕ+) (voice merged : List VoiceSegment) : Prop where
  voiced : Voiced merged
  ends : ∀ segment ∈ merged, ∃ last ∈ voice, segment.stop = last.stop
  /-- A merged segment over the cap is one of the detector's, -/
  long : ∀ segment ∈ merged, segment.length ≤ cap ∨ segment ∈ voice
  /-- and each of the detector's lies in a merged one, alone where that is over the cap. -/
  covers : ∀ segment ∈ voice, ∃ whole ∈ merged, whole.start ≤ segment.start ∧
    segment.stop ≤ whole.stop ∧ (whole.length ≤ cap ∨ whole = segment)

section merging
variable {voice init merged : List VoiceSegment} {last segment : VoiceSegment}

theorem MergedFrom.append (h : MergedFrom cap voice merged)
    (hsegment : segment.start ≤ segment.stop) (hbehind : ∀ s ∈ voice, s.Precedes segment) :
    MergedFrom cap (voice ++ [segment]) (merged ++ [segment]) := by
  constructor
  case voiced =>
    constructor
    · intro s hs
      rcases List.mem_append.mp hs with hold | hnew
      · exact h.voiced.forward s hold
      · rwa [List.mem_singleton.mp hnew]
    · rw [List.pairwise_append]
      refine ⟨h.voiced.apart, List.pairwise_singleton _ _, fun s hs new hnew => ?_⟩
      obtain ⟨source, hsource, hstop⟩ := h.ends s hs
      rw [List.mem_singleton.mp hnew, VoiceSegment.Precedes, hstop]
      exact hbehind source hsource
  case ends =>
    intro s hs
    rcases List.mem_append.mp hs with hold | hnew
    · obtain ⟨source, hsource, hstop⟩ := h.ends s hold
      exact ⟨source, List.mem_append_left _ hsource, hstop⟩
    · exact ⟨s, List.mem_append_right _ hnew, rfl⟩
  case long =>
    intro s hs
    rcases List.mem_append.mp hs with hold | hnew
    · exact (h.long s hold).imp_right fun hmem => List.mem_append_left _ hmem
    · exact .inr (List.mem_append_right _ hnew)
  case covers =>
    intro s hs
    rcases List.mem_append.mp hs with hold | hnew
    · obtain ⟨whole, hwhole, hcovers⟩ := h.covers s hold
      exact ⟨whole, List.mem_append_left _ hwhole, hcovers⟩
    · exact ⟨s, List.mem_append_right _ hnew, le_rfl, le_rfl, .inr rfl⟩

theorem MergedFrom.join (h : MergedFrom cap voice (init ++ [last]))
    (hsegment : segment.start ≤ segment.stop) (hbehind : ∀ s ∈ voice, s.Precedes segment)
    (hfits : segment.stop - last.start ≤ cap) :
    MergedFrom cap (voice ++ [segment]) (init ++ [{ last with stop := segment.stop }]) := by
  have hmem : last ∈ init ++ [last] := List.mem_append_right _ List.mem_cons_self
  have hgrows : last.stop ≤ segment.stop := by
    obtain ⟨source, hsource, hstop⟩ := h.ends last hmem
    rw [hstop]
    exact (hbehind source hsource).trans hsegment
  have hforward := h.voiced.forward last hmem
  obtain ⟨hinit, -, hlast⟩ := List.pairwise_append.mp h.voiced.apart
  constructor
  case voiced =>
    constructor
    · intro s hs
      rcases List.mem_append.mp hs with hold | hnew
      · exact h.voiced.forward s (List.mem_append_left _ hold)
      · rw [List.mem_singleton.mp hnew]
        exact hforward.trans hgrows
    · rw [List.pairwise_append]
      refine ⟨hinit, List.pairwise_singleton _ _, fun s hs new hnew => ?_⟩
      rw [List.mem_singleton.mp hnew]
      exact hlast s hs last List.mem_cons_self
  case ends =>
    intro s hs
    rcases List.mem_append.mp hs with hold | hnew
    · obtain ⟨source, hsource, hstop⟩ := h.ends s (List.mem_append_left _ hold)
      exact ⟨source, List.mem_append_left _ hsource, hstop⟩
    · rw [List.mem_singleton.mp hnew]
      exact ⟨segment, List.mem_append_right _ List.mem_cons_self, rfl⟩
  case long =>
    intro s hs
    rcases List.mem_append.mp hs with hold | hnew
    · exact (h.long s (List.mem_append_left _ hold)).imp_right fun hmem =>
        List.mem_append_left _ hmem
    · rw [List.mem_singleton.mp hnew]
      exact .inl hfits
  case covers =>
    have hjoined : ({ last with stop := segment.stop } : VoiceSegment) ∈
        init ++ [{ last with stop := segment.stop }] :=
      List.mem_append_right _ List.mem_cons_self
    intro s hs
    rcases List.mem_append.mp hs with hold | hnew
    · obtain ⟨whole, hwhole, hstart, hstop, hlong⟩ := h.covers s hold
      rcases List.mem_append.mp hwhole with hkept | hgrown
      · exact ⟨whole, List.mem_append_left _ hkept, hstart, hstop, hlong⟩
      · rw [List.mem_singleton.mp hgrown] at hstart hstop
        exact ⟨_, hjoined, hstart, hstop.trans hgrows, .inl hfits⟩
    · rw [List.mem_singleton.mp hnew]
      obtain ⟨source, hsource, hstop⟩ := h.ends last hmem
      have hbefore : last.stop ≤ segment.start := hstop.le.trans (hbehind source hsource)
      exact ⟨_, hjoined, hforward.trans hbefore, le_rfl, .inl hfits⟩

/-- One turn of the loop. -/
theorem MergedFrom.mergeVoice (h : MergedFrom cap voice merged)
    (hsegment : segment.start ≤ segment.stop) (hbehind : ∀ s ∈ voice, s.Precedes segment) :
    MergedFrom cap (voice ++ [segment]) (mergeVoice cap merged segment) := by
  unfold Sync.mergeVoice
  cases hlast : merged.getLast? with
  | none => exact h.append hsegment hbehind
  | some last =>
    dsimp only
    split_ifs with hjoins
    · obtain ⟨init, rfl⟩ := List.getLast?_eq_some_iff.mp hlast
      rw [List.dropLast_concat]
      exact h.join hsegment hbehind hjoins.2
    · exact h.append hsegment hbehind

/-- The merging loop over segments in order. -/
theorem mergedFrom (h : Voiced voice) :
    MergedFrom cap voice (voice.foldl (Sync.mergeVoice cap) []) := by
  induction voice using List.reverseRecOn with
  | nil =>
    have hnone : ∀ segment ∈ ([] : List VoiceSegment), False := fun _ => List.not_mem_nil
    exact ⟨h, fun s hs => (hnone s hs).elim, fun s hs => (hnone s hs).elim,
      fun s hs => (hnone s hs).elim⟩
  | append_singleton voice segment ih =>
    obtain ⟨hbefore, -, hbehind⟩ := List.pairwise_append.mp h.apart
    have hvoiced : Voiced voice :=
      ⟨fun s hs => h.forward s (List.mem_append_left _ hs), hbefore⟩
    rw [List.foldl_concat]
    exact (ih hvoiced).mergeVoice
      (h.forward segment (List.mem_append_right _ List.mem_cons_self))
      fun s hs => hbehind s hs segment List.mem_cons_self

end merging

/-! ### Cutting at the cap -/

/-- What is left of a length cut at the cap. -/
def remainder (cap : ℕ+) (length : ℚ) : ℚ := length - cap * ⌊length / cap⌋

section cutting
variable {start stop length : ℚ} {segment : VoiceSegment}

theorem cap_pos (cap : ℕ+) : (0 : ℚ) < cap := by exact_mod_cast cap.pos

theorem one_le_cap (cap : ℕ+) : (1 : ℚ) ≤ cap := by exact_mod_cast one_le

theorem remainder_of_lt (hpos : 0 ≤ length) (hlt : length < cap) :
    remainder cap length = length := by
  have hfloor : ⌊length / cap⌋ = 0 := by
    apply Int.floor_eq_zero_iff.mpr
    constructor
    · exact div_nonneg hpos (cap_pos cap).le
    · exact (div_lt_one (cap_pos cap)).mpr hlt
  rw [remainder, hfloor]
  simp

theorem remainder_sub_cap : remainder cap (length - cap) = remainder cap length := by
  have hcap := (cap_pos cap).ne'
  have hfloor : ⌊(length - cap) / cap⌋ = ⌊length / cap⌋ - 1 := by
    rw [sub_div, div_self hcap, Int.floor_sub_one]
  rw [remainder, remainder, hfloor]
  push_cast
  ring

/-- A piece lies in the segment it is cut from, and has a length of its own. -/
theorem of_mem_capPieces (h : segment ∈ capPieces cap start stop) :
    start ≤ segment.start ∧ segment.start < segment.stop ∧ segment.stop ≤ stop ∧
      segment.length ≤ cap := by
  have hcap := cap_pos cap
  fun_induction capPieces cap start stop with
  | case1 start hlt ih =>
    rcases List.mem_cons.mp h with rfl | hrest
    · have hend : start < min (start + cap) stop := lt_min (by linarith) hlt
      have hlong : min (start + cap) stop ≤ start + cap := min_le_left _ _
      refine ⟨le_rfl, hend, min_le_right _ _, ?_⟩
      rw [VoiceSegment.length]
      linarith
    · obtain ⟨hstart, hrest⟩ := ih hrest
      have hend : start ≤ min (start + cap) stop := le_min (by linarith) hlt.le
      exact ⟨hend.trans hstart, hrest⟩
  | case2 start hge => cases h

theorem capPieces_apart : (capPieces cap start stop).Pairwise VoiceSegment.Precedes := by
  fun_induction capPieces cap start stop with
  | case1 start hlt ih =>
    apply List.Pairwise.cons _ ih
    intro piece hpiece
    exact (of_mem_capPieces hpiece).1
  | case2 start hge => exact List.Pairwise.nil

/-- No instant is lost in the cut. -/
theorem exists_mem_capPieces {instant : ℚ} (hstart : start ≤ instant) (hstop : instant < stop) :
    ∃ piece ∈ capPieces cap start stop, piece.Holds instant := by
  fun_induction capPieces cap start stop with
  | case1 start hlt ih =>
    by_cases hin : instant < min (start + cap) stop
    · exact ⟨_, List.mem_cons_self, hstart, hin⟩
    · obtain ⟨piece, hpiece, hholds⟩ := ih (not_lt.mp hin)
      exact ⟨piece, List.mem_cons_of_mem _ hpiece, hholds⟩
  | case2 start hge => exact absurd (hstart.trans_lt hstop) hge

/-- Every piece is long enough to be exported where the remainder is. -/
theorem one_le_capPieces_iff (h : start ≤ stop) :
    (∀ piece ∈ capPieces cap start stop, 1 ≤ piece.length) ↔
      remainder cap (stop - start) = 0 ∨ 1 ≤ remainder cap (stop - start) := by
  have hcap := cap_pos cap
  fun_induction capPieces cap start stop with
  | case1 start hlt ih =>
    rw [List.forall_mem_cons]
    rcases le_or_gt (start + cap) stop with hfull | hlast
    · rw [min_eq_left hfull] at ih ⊢
      have hhead : 1 ≤ VoiceSegment.length ⟨start, start + cap⟩ := by
        rw [VoiceSegment.length]
        linarith [one_le_cap cap]
      have hrest : stop - (start + cap) = stop - start - cap := by ring
      have ih := ih hfull
      rw [hrest, remainder_sub_cap] at ih
      exact (and_iff_right hhead).trans ih
    · rw [min_eq_right hlast.le]
      have hnone : capPieces cap stop stop = [] := by
        rw [capPieces, if_neg (lt_irrefl stop)]
      rw [hnone, remainder_of_lt (by linarith) (by linarith), VoiceSegment.length]
      have hpos : stop - start ≠ 0 := by linarith
      constructor
      · intro hlong
        exact .inr hlong.1
      · intro hlong
        exact ⟨hlong.resolve_left hpos, fun piece hpiece => absurd hpiece List.not_mem_nil⟩
  | case2 start hge =>
    have hnone : stop - start = 0 := by linarith
    rw [hnone, remainder_of_lt le_rfl hcap]
    simp

theorem piecesOf_of_le (h : segment.length ≤ cap) : piecesOf cap segment = [segment] := if_pos h

theorem piecesOf_of_lt (h : cap < segment.length) :
    piecesOf cap segment = capPieces cap segment.start segment.stop := if_neg (not_le.mpr h)

theorem of_mem_piecesOf {piece : VoiceSegment} (h : piece ∈ piecesOf cap segment) :
    segment.start ≤ piece.start ∧ piece.stop ≤ segment.stop ∧ piece.length ≤ cap := by
  rcases le_or_gt segment.length cap with hshort | hlong
  · rw [piecesOf_of_le hshort, List.mem_singleton] at h
    rw [h]
    exact ⟨le_rfl, le_rfl, hshort⟩
  · rw [piecesOf_of_lt hlong] at h
    obtain ⟨hstart, -, hstop, hcapped⟩ := of_mem_capPieces h
    exact ⟨hstart, hstop, hcapped⟩

theorem piecesOf_apart : (piecesOf cap segment).Pairwise VoiceSegment.Precedes := by
  rcases le_or_gt segment.length cap with hshort | hlong
  · rw [piecesOf_of_le hshort]
    exact List.pairwise_singleton _ _
  · rw [piecesOf_of_lt hlong]
    exact capPieces_apart

end cutting

/-! ### The speech that is exported -/

section exported
variable {voice : List VoiceSegment} {segment piece : VoiceSegment}

theorem mem_mergeAndCap : piece ∈ mergeAndCapVadSegments cap voice ↔
    ∃ whole ∈ voice.foldl (mergeVoice cap) [], piece ∈ piecesOf cap whole := List.mem_flatMap

theorem mem_exported : piece ∈ exportedSegments cap voice ↔
    piece ∈ mergeAndCapVadSegments cap voice ∧ 1 ≤ piece.length := by
  simp [exportedSegments]

theorem mergeAndCap_apart (h : Voiced voice) :
    (mergeAndCapVadSegments cap voice).Pairwise VoiceSegment.Precedes := by
  apply List.pairwise_flatMap.mpr
  constructor
  · intro whole _
    exact piecesOf_apart
  · apply (mergedFrom h).voiced.apart.imp
    intro whole other hbefore piece hpiece later hlater
    exact (of_mem_piecesOf hpiece).2.1.trans (hbefore.trans (of_mem_piecesOf hlater).1)

theorem mergeAndCap_capped (hpiece : piece ∈ mergeAndCapVadSegments cap voice) :
    piece.length ≤ cap := by
  obtain ⟨whole, -, hwhole⟩ := mem_mergeAndCap.mp hpiece
  exact (of_mem_piecesOf hwhole).2.2

/-- A segment over the cap is cut alone. -/
theorem mem_merged_of_long (h : Voiced voice) (hsegment : segment ∈ voice)
    (hlong : cap < segment.length) : segment ∈ voice.foldl (mergeVoice cap) [] := by
  obtain ⟨whole, hwhole, hstart, hstop, hshort | heq⟩ := (mergedFrom h).covers segment hsegment
  · rw [VoiceSegment.length] at hlong hshort
    linarith
  · rwa [heq] at hwhole

/-- The exported pieces are in order, apart and within the cap, and every instant of a voice
segment of a second or more is in one of them. -/
structure SpeechCovered (cap : ℕ+) (voice : List VoiceSegment) : Prop where
  voiced : Voiced (exportedSegments cap voice)
  capped : ∀ piece ∈ exportedSegments cap voice, piece.length ≤ cap
  covers : ∀ segment ∈ voice, 1 ≤ segment.length → ∀ instant, segment.Holds instant →
    ∃ piece ∈ exportedSegments cap voice, piece.Holds instant

theorem exported_voiced (h : Voiced voice) : Voiced (exportedSegments cap voice) := by
  constructor
  · intro piece hpiece
    have hlong := (mem_exported.mp hpiece).2
    rw [VoiceSegment.length] at hlong
    linarith
  · exact (mergeAndCap_apart h).sublist List.filter_sublist

/-- No two exported files have one name. -/
theorem segmentTimestamps_increasing (h : Voiced voice) (startTimestamp : ℚ) :
    (segmentTimestamps cap startTimestamp voice).Pairwise (· < ·) := by
  apply List.pairwise_map.mpr
  apply (exported_voiced h).apart.imp_of_mem
  intro piece later hpiece _ hbefore
  have hlong := (mem_exported.mp hpiece).2
  rw [VoiceSegment.length] at hlong
  rw [VoiceSegment.Precedes] at hbefore
  linarith

/-- The pieces of a long segment that are exported hold all of it. -/
theorem all_exported_of_covers (h : Voiced voice) (hcovers : SpeechCovered cap voice)
    (hsegment : segment ∈ voice) (hlong : cap < segment.length)
    (hpiece : piece ∈ capPieces cap segment.start segment.stop) : 1 ≤ piece.length := by
  obtain ⟨hstart, hnonempty, hstop, -⟩ := of_mem_capPieces hpiece
  have hin : segment.Holds piece.start := ⟨hstart, hnonempty.trans_le hstop⟩
  have hsecond : 1 ≤ segment.length := (one_le_cap cap).trans hlong.le
  obtain ⟨exported, hexported, hholds⟩ := hcovers.covers segment hsegment hsecond _ hin
  obtain ⟨hmem, hexported⟩ := mem_exported.mp hexported
  have hmem' : piece ∈ mergeAndCapVadSegments cap voice := by
    apply mem_mergeAndCap.mpr
    refine ⟨segment, mem_merged_of_long h hsegment hlong, ?_⟩
    rwa [piecesOf_of_lt hlong]
  rwa [eq_of_holds (mergeAndCap_apart h) hmem hmem' hholds ⟨le_rfl, hnonempty⟩] at hexported

theorem remainder_of_covers (h : Voiced voice) (hcovers : SpeechCovered cap voice)
    (hsegment : segment ∈ voice) (hlong : cap < segment.length) :
    remainder cap segment.length = 0 ∨ 1 ≤ remainder cap segment.length := by
  apply (one_le_capPieces_iff (h.forward segment hsegment)).mp
  intro piece hpiece
  exact all_exported_of_covers h hcovers hsegment hlong hpiece

theorem covers_of_remainders (h : Voiced voice)
    (hrest : ∀ segment ∈ voice, cap < segment.length →
      remainder cap segment.length = 0 ∨ 1 ≤ remainder cap segment.length)
    (hsegment : segment ∈ voice) (hsecond : 1 ≤ segment.length) {instant : ℚ}
    (hin : segment.Holds instant) : ∃ piece ∈ exportedSegments cap voice, piece.Holds instant := by
  obtain ⟨whole, hwhole, hstart, hstop, hwholeLong⟩ := (mergedFrom h).covers segment hsegment
  rcases le_or_gt whole.length cap with hshort | hlong
  · refine ⟨whole, mem_exported.mpr ⟨mem_mergeAndCap.mpr ⟨whole, hwhole, ?_⟩, ?_⟩, ?_⟩
    · rw [piecesOf_of_le hshort]
      exact List.mem_cons_self
    · rw [VoiceSegment.length] at hsecond ⊢
      linarith
    · exact ⟨hstart.trans hin.1, hin.2.trans_le hstop⟩
  · have heq : whole = segment := hwholeLong.resolve_left (not_le.mpr hlong)
    rw [heq] at hlong hwhole
    obtain ⟨piece, hpiece, hholds⟩ := exists_mem_capPieces hin.1 hin.2
    have hall := (one_le_capPieces_iff (h.forward segment hsegment)).mpr
      (hrest segment hsegment hlong)
    refine ⟨piece, mem_exported.mpr ⟨mem_mergeAndCap.mpr ⟨segment, hwhole, ?_⟩, ?_⟩, hholds⟩
    · rwa [piecesOf_of_lt hlong]
    · exact hall piece hpiece

/-- The merging and the cutting keep every voice segment of a second whole exactly when no segment
over the cap leaves less than a second; what is left then is not exported. -/
theorem speechCovered_iff (h : Voiced voice) : SpeechCovered cap voice ↔
    ∀ segment ∈ voice, cap < segment.length →
      remainder cap segment.length = 0 ∨ 1 ≤ remainder cap segment.length := by
  constructor
  · intro hcovers segment hsegment hlong
    exact remainder_of_covers h hcovers hsegment hlong
  · intro hrest
    constructor
    case voiced => exact exported_voiced h
    case capped =>
      intro piece hpiece
      exact mergeAndCap_capped (mem_exported.mp hpiece).1
    case covers =>
      intro segment hsegment hsecond instant hin
      exact covers_of_remainders h hrest hsegment hsecond hin

/-- Two talks close enough to be merged, and a long one behind them, which is cut. -/
def threeTalks : List VoiceSegment := [⟨0, 100⟩, ⟨150, 200⟩, ⟨1000, 1650⟩]

theorem speechCovered_iff_threeTalks :
    threeTalks.foldl (mergeVoice maxVadSegmentSeconds) [] = [⟨0, 200⟩, ⟨1000, 1650⟩] ∧
      SpeechCovered maxVadSegmentSeconds threeTalks := by
  have hmerged : threeTalks.foldl (mergeVoice maxVadSegmentSeconds) [] =
      [⟨0, 200⟩, ⟨1000, 1650⟩] := by
    norm_num [threeTalks, mergeVoice, maxVadSegmentSeconds]
  have hvoiced : Voiced threeTalks := by
    constructor
    · norm_num [threeTalks]
    · norm_num [threeTalks, VoiceSegment.Precedes]
  have hlength : VoiceSegment.length ⟨1000, 1650⟩ = 650 := by norm_num [VoiceSegment.length]
  have hfloor : ⌊(650 : ℚ) / 300⌋ = 2 := by
    rw [Int.floor_eq_iff]
    norm_num
  refine ⟨hmerged, (speechCovered_iff hvoiced).mpr fun segment hsegment hlong => ?_⟩
  simp only [threeTalks, List.mem_cons, List.not_mem_nil, or_false] at hsegment
  obtain rfl | rfl | rfl := hsegment
  · norm_num [VoiceSegment.length, maxVadSegmentSeconds] at hlong
  · norm_num [VoiceSegment.length, maxVadSegmentSeconds] at hlong
  · rw [hlength]
    norm_num [remainder, maxVadSegmentSeconds, hfloor]

/-- The last half second of five minutes and a half second of voice is in no exported file. -/
theorem not_speechCovered_remainder :
    ¬ ∀ voice, Voiced voice → SpeechCovered maxVadSegmentSeconds voice := by
  intro hcovers
  have hvoiced : Voiced [⟨0, 601 / 2⟩] := by
    constructor
    · intro segment hsegment
      rw [List.mem_singleton.mp hsegment]
      norm_num
    · exact List.pairwise_singleton _ _
  have hlong : (maxVadSegmentSeconds : ℚ) < VoiceSegment.length ⟨0, 601 / 2⟩ := by
    norm_num [VoiceSegment.length, maxVadSegmentSeconds]
  have hrest := remainder_of_covers hvoiced (hcovers _ hvoiced) List.mem_cons_self hlong
  have hfloor : ⌊(601 / 2 : ℚ) / 300⌋ = 1 := by
    rw [Int.floor_eq_iff]
    norm_num
  norm_num [remainder, VoiceSegment.length, maxVadSegmentSeconds, hfloor] at hrest

end exported

end Omi.Sync
