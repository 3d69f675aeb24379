import Mathlib.Algebra.Order.Ring.Rat
import Mathlib.Tactic.Linarith
import Mathlib.Tactic.NormNum
import Omi.Foundation.Bisect
import Omi.Foundation.Rounding

/-! The mapping of provider audio time to wall-clock time (`WallTimeMapper` of
`utils/stt/vad_gate.py`), and what it keeps over exact arithmetic. Each method runs under the mapper's
lock. -/
namespace Omi.Vad
open Omi.Foundation

/-- A checkpoint `(dg_sec, wall_rel_sec)`. -/
abbrev Checkpoint := ℚ × ℚ

def maxCheckpoints : ℕ := 500

structure WallTimeMapper where
  /-- What the arithmetic does to each result. -/
  rounding : Rounding := .exact
  checkpoints : List Checkpoint := []
  providerCursorSec : ℚ := 0
  sending : Bool := false

/-- The anchor for early remaps and the most recent checkpoints. -/
def compactCheckpoints (checkpoints : List Checkpoint) : List Checkpoint :=
  if maxCheckpoints < checkpoints.length then
    if maxCheckpoints ≤ 1 then checkpoints.take 1
    else checkpoints.take 1 ++ checkpoints.drop (checkpoints.length - (maxCheckpoints - 1))
  else checkpoints

namespace WallTimeMapper

/-- The wall time of a new checkpoint, at least what has been sent since the last one after
it. -/
def checkpointWall (mapper : WallTimeMapper) (chunkWallRelSec : ℚ) : ℚ :=
  match mapper.checkpoints.getLast? with
  | none => chunkWallRelSec
  | some (prevDg, prevWall) =>
    max chunkWallRelSec
      (mapper.rounding (prevWall + mapper.rounding (mapper.providerCursorSec - prevDg)))

def onAudioSent (mapper : WallTimeMapper) (chunkDurationSec chunkWallRelSec : ℚ) :
    WallTimeMapper :=
  let checkpoint := (mapper.providerCursorSec, mapper.checkpointWall chunkWallRelSec)
  { mapper with
    checkpoints :=
      if mapper.sending then mapper.checkpoints
      else compactCheckpoints (mapper.checkpoints ++ [checkpoint])
    providerCursorSec := mapper.rounding (mapper.providerCursorSec + chunkDurationSec)
    sending := true }

def onSilenceSkipped (mapper : WallTimeMapper) : WallTimeMapper :=
  { mapper with sending := false }

theorem lookup_lt {checkpoints : List Checkpoint} (h : checkpoints ≠ []) (dgSec : ℚ) :
    bisectRight (checkpoints.map Prod.fst) dgSec - 1 < checkpoints.length := by
  have hpos := List.length_pos_iff.2 h
  have hle := bisectRight_le (checkpoints.map Prod.fst) dgSec
  rw [List.length_map] at hle
  omega

/-- Convert provider audio time to wall-clock-relative time. -/
def dgToWallRel (mapper : WallTimeMapper) (dgSec : ℚ) : ℚ :=
  if h : mapper.checkpoints = [] then dgSec
  else
    let i := bisectRight (mapper.checkpoints.map Prod.fst) dgSec - 1
    let checkpoint := mapper.checkpoints.get ⟨i, lookup_lt h dgSec⟩
    mapper.rounding (checkpoint.2 + mapper.rounding (dgSec - checkpoint.1))

end WallTimeMapper

/-- The calls the gate makes on its mapper. -/
inductive MapperCall where
  | audioSent (chunkDurationSec chunkWallRelSec : ℚ)
  | silenceSkipped
  deriving DecidableEq, Repr

def MapperCall.durationSec : MapperCall → ℚ
  | .audioSent chunkDurationSec _ => chunkDurationSec
  | .silenceSkipped => 0

namespace WallTimeMapper

def call (mapper : WallTimeMapper) : MapperCall → WallTimeMapper
  | .audioSent chunkDurationSec chunkWallRelSec =>
    mapper.onAudioSent chunkDurationSec chunkWallRelSec
  | .silenceSkipped => mapper.onSilenceSkipped

def calls (mapper : WallTimeMapper) (made : List MapperCall) : WallTimeMapper :=
  made.foldl call mapper

end WallTimeMapper

/-- The times of a transcript segment. -/
structure SegmentTimes where
  start : ℚ
  stop : ℚ
  deriving DecidableEq, Repr

/-- Both times of each segment, in order. -/
def segmentTimes (segments : List SegmentTimes) : List ℚ :=
  segments.flatMap fun segment => [segment.start, segment.stop]

/-- No segment runs backwards or into the next. -/
def InOrder (segments : List SegmentTimes) : Prop := (segmentTimes segments).Pairwise (· ≤ ·)

/-- The body of `remap_segments` on a gate in active mode. -/
def WallTimeMapper.remap (mapper : WallTimeMapper) (segment : SegmentTimes) : SegmentTimes :=
  ⟨mapper.dgToWallRel segment.start, mapper.dgToWallRel segment.stop⟩

/-! ### Coherent checkpoints -/

/-- Wall time passes at least as fast as provider time between two checkpoints. -/
def Spread (p q : Checkpoint) : Prop := p.1 ≤ q.1 ∧ q.1 - p.1 ≤ q.2 - p.2

theorem Spread.wall_le {p q : Checkpoint} (h : Spread p q) : p.2 ≤ q.2 := by
  obtain ⟨hdg, hwall⟩ := h
  linarith

theorem Spread.trans {p q r : Checkpoint} (hpq : Spread p q) (hqr : Spread q r) :
    Spread p r := by
  obtain ⟨hdg, hwall⟩ := hpq
  obtain ⟨hdg', hwall'⟩ := hqr
  exact ⟨hdg.trans hdg', by linarith⟩

/-- What every call keeps over exact arithmetic: the checkpoints are spread, and none lies beyond the
cursor. -/
structure WallTimeMapper.Coherent (mapper : WallTimeMapper) : Prop where
  exact : mapper.rounding = .exact
  spread : mapper.checkpoints.Pairwise Spread
  behind : ∀ checkpoint ∈ mapper.checkpoints, checkpoint.1 ≤ mapper.providerCursorSec

/-- Compaction only drops checkpoints. -/
theorem compactCheckpoints_sublist (checkpoints : List Checkpoint) :
    List.Sublist (compactCheckpoints checkpoints) checkpoints := by
  unfold compactCheckpoints
  split_ifs with hlong hone
  · exact List.take_sublist 1 checkpoints
  · have hbound : 1 ≤ checkpoints.length - (maxCheckpoints - 1) := by omega
    have hdrop : List.Sublist (checkpoints.drop (checkpoints.length - (maxCheckpoints - 1)))
        (checkpoints.drop 1) := List.drop_sublist_drop_left checkpoints hbound
    calc List.Sublist (checkpoints.take 1 ++ _) (checkpoints.take 1 ++ checkpoints.drop 1) :=
          (List.append_sublist_append_left _).2 hdrop
      _ = checkpoints := List.take_append_drop 1 checkpoints
  · exact List.Sublist.refl checkpoints

namespace WallTimeMapper.Coherent
variable {mapper : WallTimeMapper}

theorem of_checkpoints_nil (hexact : mapper.rounding = .exact) (h : mapper.checkpoints = []) :
    mapper.Coherent := by
  refine ⟨hexact, ?_, ?_⟩
  · rw [h]
    exact .nil
  · simp [h]

/-- A new checkpoint stands at the cursor, spread from all earlier ones. -/
theorem spread_checkpointWall (h : mapper.Coherent) (chunkWallRelSec : ℚ) :
    ∀ checkpoint ∈ mapper.checkpoints,
      Spread checkpoint (mapper.providerCursorSec, mapper.checkpointWall chunkWallRelSec) := by
  intro checkpoint hmem
  obtain ⟨last, hlast⟩ : ∃ last, mapper.checkpoints.getLast? = some last := by
    cases hlist : mapper.checkpoints.getLast? with
    | none => simp [List.getLast?_eq_none_iff.1 hlist] at hmem
    | some last => exact ⟨last, rfl⟩
  have hnew : Spread last (mapper.providerCursorSec, mapper.checkpointWall chunkWallRelSec) := by
    refine ⟨h.behind last (List.mem_of_getLast? hlast), ?_⟩
    have hwall : last.2 + (mapper.providerCursorSec - last.1) ≤
        mapper.checkpointWall chunkWallRelSec := by
      simp only [checkpointWall, hlast, h.exact, Rounding.exact_apply]
      exact le_max_right _ _
    linarith
  obtain ⟨init, hinit⟩ := List.getLast?_eq_some_iff.1 hlast
  rw [hinit, List.mem_append, List.mem_singleton] at hmem
  rcases hmem with hearlier | rfl
  · have hpairs := h.spread
    rw [hinit, List.pairwise_append] at hpairs
    exact (hpairs.2.2 checkpoint hearlier last (List.mem_singleton_self last)).trans hnew
  · exact hnew

theorem cursor_le_call (h : mapper.Coherent) {made : MapperCall}
    (hduration : 0 ≤ made.durationSec) :
    mapper.providerCursorSec ≤ (mapper.call made).providerCursorSec := by
  cases made with
  | silenceSkipped => exact le_rfl
  | audioSent chunkDurationSec chunkWallRelSec =>
    simp only [WallTimeMapper.call, onAudioSent, h.exact, Rounding.exact_apply]
    exact le_add_of_nonneg_right hduration

/-- One call keeps the checkpoints coherent. -/
theorem call (h : mapper.Coherent) {made : MapperCall} (hduration : 0 ≤ made.durationSec) :
    (mapper.call made).Coherent := by
  cases made with
  | silenceSkipped => exact ⟨h.exact, h.spread, h.behind⟩
  | audioSent chunkDurationSec chunkWallRelSec =>
    have hcursor : mapper.providerCursorSec ≤
        (mapper.call (.audioSent chunkDurationSec chunkWallRelSec)).providerCursorSec :=
      h.cursor_le_call hduration
    by_cases hsending : mapper.sending = true
    · refine ⟨h.exact, ?_, fun checkpoint hmem => ?_⟩
      · simpa [WallTimeMapper.call, onAudioSent, hsending] using h.spread
      · have hmem : checkpoint ∈ mapper.checkpoints := by
          simpa [WallTimeMapper.call, onAudioSent, hsending] using hmem
        exact (h.behind checkpoint hmem).trans hcursor
    · let new := (mapper.providerCursorSec, mapper.checkpointWall chunkWallRelSec)
      have hcheckpoints : (mapper.call (.audioSent chunkDurationSec chunkWallRelSec)).checkpoints =
          compactCheckpoints (mapper.checkpoints ++ [new]) := by
        simp [WallTimeMapper.call, onAudioSent, hsending, new]
      have hkept := compactCheckpoints_sublist (mapper.checkpoints ++ [new])
      rw [← hcheckpoints] at hkept
      refine ⟨h.exact, List.Pairwise.sublist hkept ?_, fun checkpoint hmem => ?_⟩
      · rw [List.pairwise_append]
        refine ⟨h.spread, List.pairwise_singleton Spread new, fun checkpoint hmem last hlast => ?_⟩
        rw [List.mem_singleton.1 hlast]
        exact h.spread_checkpointWall chunkWallRelSec checkpoint hmem
      · rcases List.mem_append.1 (hkept.subset hmem) with hmem | hmem
        · exact (h.behind checkpoint hmem).trans hcursor
        · rw [List.mem_singleton.1 hmem]
          exact hcursor

theorem calls {made : List MapperCall} (h : mapper.Coherent)
    (hdurations : ∀ call ∈ made, 0 ≤ call.durationSec) : (mapper.calls made).Coherent := by
  induction made generalizing mapper with
  | nil => exact h
  | cons first rest ih =>
    have hfirst := h.call (hdurations first List.mem_cons_self)
    exact ih hfirst fun call hmem => hdurations call (List.mem_cons_of_mem first hmem)

/-! ### The mapping -/

theorem marks_sorted (h : mapper.Coherent) :
    (mapper.checkpoints.map Prod.fst).Pairwise (· ≤ ·) := by
  rw [List.pairwise_map]
  exact h.spread.imp fun hspread => hspread.1

theorem walls_sorted (h : mapper.Coherent) :
    (mapper.checkpoints.map Prod.snd).Pairwise (· ≤ ·) := by
  rw [List.pairwise_map]
  exact h.spread.imp Spread.wall_le

/-- Coherent checkpoints never compress time. -/
theorem sub_le_dgToWallRel_sub (h : mapper.Coherent) {a b : ℚ} (hab : a ≤ b) :
    b - a ≤ mapper.dgToWallRel b - mapper.dgToWallRel a := by
  by_cases hnil : mapper.checkpoints = []
  · simp [dgToWallRel, hnil]
  have hmono := bisectRight_mono h.marks_sorted hab
  simp only [dgToWallRel, hnil, dite_false, h.exact, Rounding.exact_apply]
  -- the checkpoints of `a` and `b` are one or spread
  rcases (Nat.sub_le_sub_right hmono 1).eq_or_lt with heq | hlt
  · simp only [heq]
    linarith
  · have hspread := List.pairwise_iff_getElem.1 h.spread _ _ (lookup_lt hnil a)
      (lookup_lt hnil b) hlt
    obtain ⟨-, hwall⟩ := hspread
    simp only [List.get_eq_getElem]
    linarith

theorem dgToWallRel_mono (h : mapper.Coherent) : Monotone mapper.dgToWallRel := by
  intro a b hab
  have hgap := h.sub_le_dgToWallRel_sub hab
  linarith

theorem remap_inOrder (h : mapper.Coherent) {segments : List SegmentTimes}
    (hsegments : InOrder segments) : InOrder (segments.map mapper.remap) := by
  have htimes : segmentTimes (segments.map mapper.remap) =
      (segmentTimes segments).map mapper.dgToWallRel := by
    simp [segmentTimes, WallTimeMapper.remap, List.flatMap_map, List.map_flatMap]
  unfold InOrder
  rw [htimes, List.pairwise_map]
  exact hsegments.imp fun hle => h.dgToWallRel_mono hle

end WallTimeMapper.Coherent

/-- After every sequence of calls that send audio of non-negative length, compactions included,
the checkpoints are sorted in both coordinates, the mapping never compresses time, and
segments in order stay in order when remapped. The cursor starts where `activate` left it. -/
theorem wallTimeExpands (cursorSec : ℚ) (made : List MapperCall)
    (hdurations : ∀ call ∈ made, 0 ≤ call.durationSec) :
    let mapper := ({ providerCursorSec := cursorSec } : WallTimeMapper).calls made
    (mapper.checkpoints.map Prod.fst).Pairwise (· ≤ ·) ∧
    (mapper.checkpoints.map Prod.snd).Pairwise (· ≤ ·) ∧
    (∀ a b, a ≤ b → b - a ≤ mapper.dgToWallRel b - mapper.dgToWallRel a) ∧
    ∀ segments, InOrder segments → InOrder (segments.map mapper.remap) := by
  intro mapper
  have h : mapper.Coherent :=
    (WallTimeMapper.Coherent.of_checkpoints_nil rfl rfl).calls hdurations
  refine ⟨h.marks_sorted, h.walls_sorted, ?_, ?_⟩
  · intro a b hab
    exact h.sub_le_dgToWallRel_sub hab
  · intro segments hsegments
    exact h.remap_inOrder hsegments

/-- Two seconds of speech, a gap of eight, and one second more. -/
theorem wallTimeExpands_gap :
    let made : List MapperCall := [.audioSent 2 0, .silenceSkipped, .audioSent 1 10]
    let mapper := ({ providerCursorSec := 0 } : WallTimeMapper).calls made
    (mapper.checkpoints = [(0, 0), (2, 10)]) ∧
      (3 : ℚ) - 1 ≤ mapper.dgToWallRel 3 - mapper.dgToWallRel 1 := by
  intro made mapper
  refine ⟨by decide +kernel, ?_⟩
  exact (wallTimeExpands 0 made (by decide +kernel)).2.2.1 1 3 (by norm_num)

/-! ### Contiguous audio -/

/-- A gap was cut out at a provider time: the checkpoint there lies later than the audio since the
one before it accounts for. -/
def WallTimeMapper.CutAt (mapper : WallTimeMapper) (dgSec : ℚ) : Prop :=
  ∃ i, ∃ _ : i + 1 < mapper.checkpoints.length,
    mapper.checkpoints[i + 1].1 = dgSec ∧
      mapper.checkpoints[i].2 + (dgSec - mapper.checkpoints[i].1) < mapper.checkpoints[i + 1].2

namespace WallTimeMapper
variable {mapper : WallTimeMapper}

/-- The place of the checkpoint that a provider time is mapped by. -/
def lookup (mapper : WallTimeMapper) (dgSec : ℚ) : ℕ :=
  bisectRight (mapper.checkpoints.map Prod.fst) dgSec - 1

theorem dgToWallRel_eq (hexact : mapper.rounding = .exact) (hne : mapper.checkpoints ≠ [])
    (dgSec : ℚ) :
    ∃ h : mapper.lookup dgSec < mapper.checkpoints.length, mapper.dgToWallRel dgSec =
      mapper.checkpoints[mapper.lookup dgSec].2 +
        (dgSec - mapper.checkpoints[mapper.lookup dgSec].1) := by
  refine ⟨lookup_lt hne dgSec, ?_⟩
  simp only [dgToWallRel, hne, dite_false, hexact, Rounding.exact_apply]
  rfl

@[simp] theorem calls_append (mapper : WallTimeMapper) (made more : List MapperCall) :
    mapper.calls (made ++ more) = (mapper.calls made).calls more := by
  simp [calls]

/-- A call makes at most one checkpoint, at the cursor, and makes it for audio after a skip. -/
theorem mem_checkpoints_call {made : MapperCall} {checkpoint : Checkpoint}
    (h : checkpoint ∈ (mapper.call made).checkpoints) :
    checkpoint ∈ mapper.checkpoints ∨
      checkpoint.1 = mapper.providerCursorSec ∧ mapper.sending = false ∧
        made ≠ .silenceSkipped := by
  cases made with
  | silenceSkipped => exact .inl h
  | audioSent chunkDurationSec chunkWallRelSec =>
    cases hsending : mapper.sending with
    | true =>
      refine .inl ?_
      simpa [call, onAudioSent, hsending] using h
    | false =>
      simp only [call, onAudioSent, hsending, Bool.false_eq_true, if_false] at h
      rcases List.mem_append.mp ((compactCheckpoints_sublist _).subset h) with hold | hnew
      · exact .inl hold
      · rw [List.mem_singleton.mp hnew]
        exact .inr ⟨rfl, rfl, nofun⟩

/-- New checkpoints stand at or beyond the cursor. -/
theorem mem_checkpoints_calls {made : List MapperCall} {checkpoint : Checkpoint}
    (hcoherent : mapper.Coherent) (hdurations : ∀ call ∈ made, 0 ≤ call.durationSec)
    (h : checkpoint ∈ (mapper.calls made).checkpoints) :
    checkpoint ∈ mapper.checkpoints ∨
      mapper.providerCursorSec ≤ checkpoint.1 ∧ ∃ call ∈ made, call ≠ .silenceSkipped := by
  induction made generalizing mapper with
  | nil => exact .inl h
  | cons first rest ih =>
    have hrest := fun call hmem => hdurations call (List.mem_cons_of_mem first hmem)
    have hfirst := hdurations first List.mem_cons_self
    have hcursor : mapper.providerCursorSec ≤ (mapper.call first).providerCursorSec :=
      hcoherent.cursor_le_call hfirst
    rcases ih (hcoherent.call hfirst) hrest h with hold | ⟨hbeyond, call, hmem, hsends⟩
    · rcases mem_checkpoints_call hold with holder | ⟨hnew, -, hsends⟩
      · exact .inl holder
      · exact .inr ⟨hnew.ge, first, List.mem_cons_self, hsends⟩
    · exact .inr ⟨hcursor.trans hbeyond, call, List.mem_cons_of_mem first hmem, hsends⟩

/-- An uninterrupted run makes no checkpoint but at its start. -/
theorem mem_checkpoints_run {run : List MapperCall} {checkpoint : Checkpoint}
    (hrun : .silenceSkipped ∉ run) (h : checkpoint ∈ (mapper.calls run).checkpoints) :
    checkpoint ∈ mapper.checkpoints ∨ checkpoint.1 = mapper.providerCursorSec := by
  have hsending : ∀ {mapper : WallTimeMapper} {run : List MapperCall}, .silenceSkipped ∉ run →
      mapper.sending = true → checkpoint ∈ (mapper.calls run).checkpoints →
        checkpoint ∈ mapper.checkpoints := by
    intro mapper run hrun hsending h
    induction run generalizing mapper with
    | nil => exact h
    | cons first rest ih =>
      obtain ⟨hfirst, hrest⟩ := not_or.mp (List.mem_cons.not.mp hrun)
      have hnext : (mapper.call first).sending = true := by
        cases first with
        | silenceSkipped => exact absurd rfl hfirst
        | audioSent => rfl
      rcases mem_checkpoints_call (ih hrest hnext h) with hold | ⟨-, hidle, -⟩
      · exact hold
      · rw [hsending] at hidle
        cases hidle
  cases run with
  | nil => exact .inl h
  | cons first rest =>
    obtain ⟨hfirst, hrest⟩ := not_or.mp (List.mem_cons.not.mp hrun)
    have hnext : (mapper.call first).sending = true := by
      cases first with
      | silenceSkipped => exact absurd rfl hfirst
      | audioSent => rfl
    rcases mem_checkpoints_call (hsending hrest hnext h) with hold | ⟨hnew, -⟩
    · exact .inl hold
    · exact .inr hnew

/-- Between the checkpoints `i` and `j` the wall time gains nothing on the provider time unless a
gap was cut out at one of those after `i`. -/
theorem wall_sub_le {i j : ℕ} (hij : i ≤ j)
    (hj : j < mapper.checkpoints.length)
    (huncut : ∀ k, i ≤ k → (hk : k < j) → ¬ mapper.CutAt mapper.checkpoints[k + 1].1) :
    mapper.checkpoints[j].2 - mapper.checkpoints[i].2 ≤
      mapper.checkpoints[j].1 - mapper.checkpoints[i].1 := by
  induction j, hij using Nat.le_induction with
  | base => simp
  | succ j hij ih =>
    have hprevious := ih (by omega) fun k hik hkj => huncut k hik (by omega)
    have hlast : ¬ mapper.checkpoints[j].2 + (mapper.checkpoints[j + 1].1 -
        mapper.checkpoints[j].1) < mapper.checkpoints[j + 1].2 := fun hcut =>
      huncut j hij (by omega) ⟨j, hj, rfl, hcut⟩
    linarith

namespace Coherent

theorem lookup_splitsAt (h : mapper.Coherent) (dgSec : ℚ) :
    SplitsAt (mapper.checkpoints.map Prod.fst) dgSec
      (bisectRight (mapper.checkpoints.map Prod.fst) dgSec) :=
  bisectRight_splitsAt h.marks_sorted dgSec

/-- Checkpoints behind the one that a time is mapped by lie beyond it. -/
theorem lt_mark (h : mapper.Coherent) {dgSec : ℚ} {i : ℕ} (hi : i < mapper.checkpoints.length)
    (hbehind : mapper.lookup dgSec < i) : dgSec < mapper.checkpoints[i].1 := by
  have hafter := (h.lookup_splitsAt dgSec).after i (by simpa using hi) (by
    unfold lookup at hbehind
    omega)
  simpa using hafter

/-- A checkpoint that is not the first is looked up for no time before its mark. -/
theorem mark_le (h : mapper.Coherent) {dgSec : ℚ} {i : ℕ} (hi : i < mapper.checkpoints.length)
    (hpos : 0 < i) (hahead : i ≤ mapper.lookup dgSec) : mapper.checkpoints[i].1 ≤ dgSec := by
  have hbefore := (h.lookup_splitsAt dgSec).before i (by simpa using hi) (by
    unfold lookup at hahead
    omega)
  simpa using hbefore

/-- Where no checkpoint lies inside `(a, b)`, the interval keeps its length if and only if no gap
was cut out at its end. -/
theorem dgToWallRel_sub_eq_iff (h : mapper.Coherent) {a b : ℚ} (hab : a < b)
    (hinside : ∀ checkpoint ∈ mapper.checkpoints, a < checkpoint.1 → b ≤ checkpoint.1) :
    mapper.dgToWallRel b - mapper.dgToWallRel a = b - a ↔ ¬ mapper.CutAt b := by
  by_cases hne : mapper.checkpoints = []
  · have huncut : ¬ mapper.CutAt b := by
      rintro ⟨i, hi, -⟩
      simp [hne] at hi
    simp [dgToWallRel, hne, huncut]
  obtain ⟨hla, hwallA⟩ := dgToWallRel_eq h.exact hne a
  obtain ⟨hlb, hwallB⟩ := dgToWallRel_eq h.exact hne b
  have hlookup : mapper.lookup a ≤ mapper.lookup b :=
    Nat.sub_le_sub_right (bisectRight_mono h.marks_sorted hab.le) 1
  rw [hwallA, hwallB]
  constructor
  · rintro hlength ⟨i, hi, hmark, hcut⟩
    have hb : i + 1 ≤ mapper.lookup b := by
      by_contra hbehind
      have hlt := h.lt_mark hi (not_le.mp hbehind)
      rw [hmark] at hlt
      exact lt_irrefl b hlt
    have ha : mapper.lookup a ≤ i := by
      by_contra hahead
      have hle := h.mark_le hi (Nat.succ_pos i) (not_le.mp hahead)
      rw [hmark] at hle
      exact absurd hab (not_lt.mpr hle)
    have hspread : ∀ j k (hj : j < mapper.checkpoints.length) (hk : k < mapper.checkpoints.length),
        j ≤ k → mapper.checkpoints[k].1 - mapper.checkpoints[j].1 ≤
          mapper.checkpoints[k].2 - mapper.checkpoints[j].2 := by
      intro j k hj hk hjk
      rcases hjk.eq_or_lt with rfl | hlt
      · simp
      · exact (List.pairwise_iff_getElem.mp h.spread j k hj hk hlt).2
    have hbefore := hspread _ i hla (by omega) ha
    have hafter := hspread (i + 1) _ hi hlb hb
    rw [hmark] at hafter
    linarith
  · intro huncut
    have hle := wall_sub_le hlookup hlb fun k hk hkb => by
      have hk' : k + 1 < mapper.checkpoints.length := by omega
      have hbeyond : a < mapper.checkpoints[k + 1].1 := h.lt_mark hk' (by omega)
      have hback : mapper.checkpoints[k + 1].1 ≤ b := h.mark_le hk' (Nat.succ_pos k) (by omega)
      have hend := hinside _ (List.getElem_mem hk') hbeyond
      rwa [le_antisymm hback hend]
    have hge := h.sub_le_dgToWallRel_sub hab.le
    rw [hwallA, hwallB] at hge
    linarith

/-- A time at which a gap was cut out is mapped to where the audio goes on. -/
theorem dgToWallRel_of_cutAt (h : mapper.Coherent) {dgSec : ℚ} (hcut : mapper.CutAt dgSec) :
    ∃ checkpoint ∈ mapper.checkpoints, checkpoint.1 = dgSec ∧
      mapper.dgToWallRel dgSec = checkpoint.2 := by
  obtain ⟨i, hi, hmark, -⟩ := hcut
  have hne : mapper.checkpoints ≠ [] := by
    rintro hnil
    simp [hnil] at hi
  obtain ⟨hlookup, hwall⟩ := dgToWallRel_eq h.exact hne dgSec
  have hahead : i + 1 ≤ mapper.lookup dgSec := by
    by_contra hbehind
    have hlt := h.lt_mark hi (not_le.mp hbehind)
    rw [hmark] at hlt
    exact lt_irrefl dgSec hlt
  have hle := h.mark_le hlookup (by omega) le_rfl
  have hge : dgSec ≤ mapper.checkpoints[mapper.lookup dgSec].1 := by
    refine hmark.ge.trans ?_
    rcases hahead.eq_or_lt with heq | hlt
    · simp only [heq, le_refl]
    · exact (List.pairwise_iff_getElem.mp h.spread _ _ hi hlookup hlt).1
  refine ⟨_, List.getElem_mem hlookup, le_antisymm hle hge, ?_⟩
  rw [hwall, le_antisymm hle hge]
  ring

end Coherent
end WallTimeMapper

/-- An interval inside an uninterrupted run keeps its length if and only if no gap was cut out at
its end. Strictly inside the run, and where nothing is sent after it, none was; where one was, the
end is mapped to where the audio goes on. -/
theorem remap_run (cursorSec : ℚ) (before run after : List MapperCall)
    (hdurations : ∀ call ∈ before ++ run ++ after, 0 ≤ call.durationSec)
    (hrun : .silenceSkipped ∉ run) {a b : ℚ} (hab : a < b)
    (ha : (({ providerCursorSec := cursorSec } : WallTimeMapper).calls
      before).providerCursorSec ≤ a)
    (hb : b ≤ (({ providerCursorSec := cursorSec } : WallTimeMapper).calls
      (before ++ run)).providerCursorSec) :
    let start : WallTimeMapper := { providerCursorSec := cursorSec }
    let mapper := start.calls (before ++ run ++ after)
    (mapper.dgToWallRel b - mapper.dgToWallRel a = b - a ↔ ¬ mapper.CutAt b) ∧
    (b < (start.calls (before ++ run)).providerCursorSec ∨
      (∀ call ∈ after, call = .silenceSkipped) → ¬ mapper.CutAt b) ∧
    (mapper.CutAt b → ∃ checkpoint ∈ mapper.checkpoints, checkpoint.1 = b ∧
      mapper.dgToWallRel b = checkpoint.2) := by
  intro start mapper
  have hcoherent : start.Coherent := .of_checkpoints_nil rfl rfl
  have h : mapper.Coherent := hcoherent.calls hdurations
  have hbefore : (start.calls before).Coherent :=
    hcoherent.calls fun call hmem => hdurations call (by simp [hmem])
  have hafter : ∀ call ∈ after, 0 ≤ call.durationSec :=
    fun call hmem => hdurations call (by simp [hmem])
  -- a checkpoint is no later than the run's start, or no earlier than its end
  have hmarks : ∀ checkpoint ∈ mapper.checkpoints, a < checkpoint.1 →
      (start.calls (before ++ run)).providerCursorSec ≤ checkpoint.1 ∧
        ∃ call ∈ after, call ≠ .silenceSkipped := by
    intro checkpoint hmem hbeyond
    simp only [mapper, WallTimeMapper.calls_append] at hmem ⊢
    have hmade := hcoherent.calls fun call hmem => hdurations call (List.mem_append_left after hmem)
    rw [WallTimeMapper.calls_append] at hmade
    rcases WallTimeMapper.mem_checkpoints_calls hmade hafter hmem with hold | hnew
    · have hearly : checkpoint.1 ≤ (start.calls before).providerCursorSec := by
        rcases WallTimeMapper.mem_checkpoints_run hrun hold with hold | hstart
        · exact hbefore.behind checkpoint hold
        · exact hstart.le
      exact absurd (hearly.trans ha) (not_le.mpr hbeyond)
    · exact hnew
  refine ⟨h.dgToWallRel_sub_eq_iff hab fun checkpoint hmem hbeyond =>
    hb.trans (hmarks checkpoint hmem hbeyond).1, ?_, h.dgToWallRel_of_cutAt⟩
  rintro hend ⟨i, hi, hmark, -⟩
  obtain ⟨hle, call, hcall, hsends⟩ := hmarks _ (List.getElem_mem hi) (by rwa [hmark])
  rw [hmark] at hle
  rcases hend with hinside | hskips
  · exact absurd hinside (not_lt.mpr hle)
  · exact hsends (hskips call hcall)

/-- The second half of two seconds of speech that a gap of eight follows. -/
theorem remap_run_gap :
    let made : List MapperCall := [.audioSent 2 0, .silenceSkipped, .audioSent 1 10]
    let mapper := ({ providerCursorSec := 0 } : WallTimeMapper).calls made
    (mapper.dgToWallRel (3 / 2) - mapper.dgToWallRel 1 = 3 / 2 - 1 ↔ ¬ mapper.CutAt (3 / 2)) ∧
      mapper.dgToWallRel (3 / 2) = 3 / 2 := by
  intro made mapper
  refine ⟨?_, by decide +kernel⟩
  exact (remap_run 0 [] [.audioSent 2 0] [.silenceSkipped, .audioSent 1 10] (by decide +kernel)
    (by decide +kernel) (by norm_num) (by decide +kernel) (by decide +kernel)).1

/-- A segment that ends where the gap was cut out absorbs it. -/
theorem not_remap_run_end :
    let made : List MapperCall := [.audioSent 2 0, .silenceSkipped, .audioSent 1 10]
    let mapper := ({ providerCursorSec := 0 } : WallTimeMapper).calls made
    mapper.remap ⟨1, 2⟩ = ⟨1, 10⟩ ∧
      mapper.dgToWallRel 2 - mapper.dgToWallRel 1 ≠ (2 : ℚ) - 1 := by
  decide +kernel

end Omi.Vad
