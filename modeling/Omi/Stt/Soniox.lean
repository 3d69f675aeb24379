import Mathlib
import Omi.Foundation.NumberText
import Omi.Foundation.PyText
import Omi.Foundation.PyValue

/-! The segments that the Soniox socket makes of a message's tokens. Times are exact; a start
and a duration count milliseconds of the stream. -/
namespace Omi.Stt
open Omi.Foundation

/-! ### Tokens and segments -/

structure SonioxToken where
  isFinal : Bool
  text : String
  startMs : ℕ
  durationMs : Option ℕ := none
  speaker : PyVal := .none
deriving DecidableEq

structure SonioxSegment where
  speaker : String
  start : ℚ
  stop : ℚ
  text : String
  isUser : Bool := false
  personId : Option String := none
deriving DecidableEq, Repr

namespace SonioxToken

def start (token : SonioxToken) : ℚ := token.startMs / 1000

/-- A live token has no duration; its end falls back to its own start. -/
def stop (token : SonioxToken) : ℚ :=
  match token.durationMs with
  | some duration => (token.startMs + duration) / 1000
  | none => token.start

/-- `int(raw_speaker)`, with `none` for a `TypeError` or a `ValueError`. -/
def rawSpeaker (token : SonioxToken) : Option ℤ :=
  match token.speaker with
  | .int i => some i
  | .bool b => some (if b then 1 else 0)
  | .float q => some (if 0 ≤ q then ⌊q⌋ else ⌈q⌉)
  | .str s => pyInt? s
  | _ => none

def speakerIdx (token : SonioxToken) : ℕ :=
  match token.rawSpeaker with
  | some raw => (raw - 1).toNat
  | none => 0

/-- `f'SPEAKER_{speaker_idx:02d}'`. -/
def speakerName (token : SonioxToken) : String :=
  (if token.speakerIdx < 10 then "SPEAKER_0" else "SPEAKER_") ++ toString token.speakerIdx

end SonioxToken

open SonioxToken

section socket
variable (preseconds : ℚ)

/-- The segment that a token opens. -/
def openSegment (token : SonioxToken) : SonioxSegment :=
  { speaker := token.speakerName
    start := token.start - preseconds
    stop := token.stop - preseconds
    text := token.text }

/-- The part of the loop that a token reaches if it is not skipped; the last segment is the head
of the list. -/
def addToken (segments : List SonioxSegment) (token : SonioxToken) : List SonioxSegment :=
  match segments with
  | [] => [openSegment preseconds token]
  | last :: earlier =>
    let last := { last with stop := max last.stop (token.start - preseconds) }
    if last.speaker = token.speakerName then
      { last with text := last.text ++ token.text, stop := token.stop } :: earlier
    else openSegment preseconds token :: last :: earlier

/-- One turn of the loop: a token that is not final, or blank, or before the profile's end is
skipped. -/
def handleToken (segments : List SonioxSegment) (token : SonioxToken) : List SonioxSegment :=
  if !token.isFinal then segments
  else if isBlank token.text then segments
  else if preseconds ≠ 0 ∧ token.start < preseconds then segments
  else addToken preseconds segments token

/-- What `_handle_tokens` streams; for an empty list it makes no call. -/
def handleTokens (tokens : List SonioxToken) : List SonioxSegment :=
  ((tokens.foldl (handleToken preseconds) []).reverse.map fun segment =>
    { segment with text := strip segment.text }).filter fun segment => segment.text ≠ ""

/-! ### Runs of one speaker -/

/-- The final tokens at or after `preseconds` that say something. -/
def heard (tokens : List SonioxToken) : List SonioxToken :=
  tokens.filter fun token => token.isFinal && !isBlank token.text && decide (preseconds ≤ token.start)

def sameSpeaker (a b : SonioxToken) : Bool := a.speakerName == b.speakerName

/-- The maximal runs of heard tokens of one speaker. -/
def runs (tokens : List SonioxToken) : List (List SonioxToken) :=
  (heard preseconds tokens).splitBy sameSpeaker

def runSpeaker (run : List SonioxToken) : String := (run.head?.map speakerName).getD ""

def runText (run : List SonioxToken) : String := String.join (run.map text)

def runStart (run : List SonioxToken) : ℚ := (run.head?.map SonioxToken.start).getD 0

def runEnd (run : List SonioxToken) : ℚ := (run.getLast?.map SonioxToken.stop).getD 0

/-- The end that the loop leaves in a segment while it is the last one: only that of a single
token is relative to `preseconds`. -/
def openEnd (run : List SonioxToken) : ℚ :=
  if run.length ≤ 1 then runEnd run - preseconds else runEnd run

/-- The end once another run has begun. -/
def closedEnd (run : List SonioxToken) (rest : List (List SonioxToken)) : ℚ :=
  match rest with
  | [] => openEnd preseconds run
  | next :: _ => max (openEnd preseconds run) (runStart next - preseconds)

/-- The segments of a list of runs. -/
def segmentsOf : List (List SonioxToken) → List SonioxSegment
  | [] => []
  | run :: rest =>
    { speaker := runSpeaker run
      start := runStart run - preseconds
      stop := closedEnd preseconds run rest
      text := runText run } :: segmentsOf rest

end socket

/-! ### The loop makes one segment of each run -/

section loop
variable {preseconds : ℚ}

theorem SonioxToken.start_le_stop (token : SonioxToken) : token.start ≤ token.stop := by
  unfold SonioxToken.stop
  cases token.durationMs with
  | none => exact le_rfl
  | some duration =>
    have hle : (token.startMs : ℚ) ≤ token.startMs + duration :=
      le_add_of_nonneg_right (Nat.cast_nonneg _)
    exact div_le_div_of_nonneg_right hle (by norm_num)

theorem SonioxToken.start_nonneg (token : SonioxToken) : 0 ≤ token.start :=
  div_nonneg (Nat.cast_nonneg _) (by norm_num)

/-- Skipped tokens leave the segments alone, so the loop runs over the heard ones. -/
theorem foldl_handleToken (segments : List SonioxSegment) (tokens : List SonioxToken) :
    tokens.foldl (handleToken preseconds) segments =
      (heard preseconds tokens).foldl (addToken preseconds) segments := by
  induction tokens generalizing segments with
  | nil => rfl
  | cons token tokens ih =>
    have hskip : (preseconds ≠ 0 ∧ token.start < preseconds) ↔ ¬ preseconds ≤ token.start := by
      rw [not_le, and_iff_right_iff_imp]
      rintro hlt rfl
      exact absurd hlt (not_lt.mpr token.start_nonneg)
    rw [List.foldl_cons, ih, heard, heard, List.filter_cons, handleToken]
    by_cases hfinal : token.isFinal <;> by_cases hblank : isBlank token.text <;>
      by_cases hearly : preseconds ≤ token.start <;> simp [hfinal, hblank, hearly, hskip]

/-- The segments that come of a last segment and the tokens behind it. -/
def closeRun (preseconds : ℚ) (last : SonioxSegment) : List SonioxToken → List SonioxSegment
  | [] => [last]
  | token :: tokens =>
    let last := { last with stop := max last.stop (token.start - preseconds) }
    if last.speaker = token.speakerName then
      closeRun preseconds { last with text := last.text ++ token.text, stop := token.stop } tokens
    else last :: closeRun preseconds (openSegment preseconds token) tokens

theorem foldl_addToken (last : SonioxSegment) (earlier : List SonioxSegment)
    (tokens : List SonioxToken) :
    (tokens.foldl (addToken preseconds) (last :: earlier)).reverse =
      earlier.reverse ++ closeRun preseconds last tokens := by
  induction tokens generalizing last earlier with
  | nil => simp [closeRun]
  | cons token tokens ih =>
    rw [List.foldl_cons, addToken, closeRun]
    dsimp only
    split_ifs with hspeaker
    · exact ih _ _
    · rw [ih, List.reverse_cons, List.append_assoc, List.singleton_append]

/-- The last segment while it covers `run`. -/
def openRun (preseconds : ℚ) (run : List SonioxToken) : SonioxSegment :=
  { speaker := runSpeaker run
    start := runStart run - preseconds
    stop := openEnd preseconds run
    text := runText run }

theorem openRun_singleton (token : SonioxToken) :
    openRun preseconds [token] = openSegment preseconds token := by
  simp [openRun, openSegment, runSpeaker, runStart, openEnd, runEnd, runText]

/-- A run of one speaker takes in another token of that speaker. -/
theorem openRun_concat {run : List SonioxToken} (hne : run ≠ []) (token : SonioxToken) :
    openRun preseconds (run ++ [token]) =
      { openRun preseconds run with
        text := (openRun preseconds run).text ++ token.text
        stop := token.stop } := by
  obtain ⟨first, others, rfl⟩ := List.exists_cons_of_ne_nil hne
  have hlong : ¬ (first :: others ++ [token]).length ≤ 1 := by simp
  have hend : runEnd (first :: others ++ [token]) = token.stop := by
    rw [runEnd, List.getLast?_concat]
    rfl
  have htext : runText (first :: others ++ [token]) = runText (first :: others) ++ token.text := by
    simp [runText, String.append_assoc]
  simp only [openRun, openEnd, if_neg hlong, hend, htext]
  rfl

theorem runStart_head_splitBy (token : SonioxToken) (tokens : List SonioxToken) :
    ∃ rest, (token :: tokens).splitBy sameSpeaker =
      ((token :: tokens).splitBy sameSpeaker).headD [] :: rest ∧
        runStart (((token :: tokens).splitBy sameSpeaker).headD []) = token.start := by
  have hne : (token :: tokens).splitBy sameSpeaker ≠ [] := List.splitBy_ne_nil.mpr (by simp)
  obtain ⟨run, rest, hruns⟩ := List.exists_cons_of_ne_nil hne
  have hhead := List.head_head_splitBy sameSpeaker (l := token :: tokens) (by simp)
  have hrun : run ≠ [] := List.ne_nil_of_mem_splitBy (hruns ▸ List.mem_cons_self)
  obtain ⟨first, others, rfl⟩ := List.exists_cons_of_ne_nil hrun
  refine ⟨rest, by rw [hruns]; rfl, ?_⟩
  simp only [hruns, List.head_cons] at hhead
  rw [hruns, ← hhead]
  rfl

theorem splitBy_oneSpeaker {run : List SonioxToken} (hne : run ≠ [])
    (hspeaker : ∀ token ∈ run, token.speakerName = runSpeaker run) :
    run.splitBy sameSpeaker = [run] := by
  apply List.splitBy_of_isChain hne
  apply List.Pairwise.isChain
  apply List.pairwise_of_forall_mem_list
  intro a ha b hb
  simp [sameSpeaker, hspeaker a ha, hspeaker b hb]

theorem closeRun_openRun (preseconds : ℚ) {run : List SonioxToken} (hne : run ≠ [])
    (hspeaker : ∀ token ∈ run, token.speakerName = runSpeaker run) (tokens : List SonioxToken) :
    closeRun preseconds (openRun preseconds run) tokens =
      segmentsOf preseconds ((run ++ tokens).splitBy sameSpeaker) := by
  induction tokens generalizing run with
  | nil =>
    rw [List.append_nil, splitBy_oneSpeaker hne hspeaker]
    rfl
  | cons token tokens ih =>
    have hopen : (openRun preseconds run).speaker = runSpeaker run := rfl
    rw [closeRun]
    dsimp only
    split_ifs with hsame
    · have hfirst : runSpeaker (run ++ [token]) = runSpeaker run := by
        obtain ⟨first, others, rfl⟩ := List.exists_cons_of_ne_nil hne
        rfl
      have hspeaker' : ∀ other ∈ run ++ [token],
          other.speakerName = runSpeaker (run ++ [token]) := by
        intro other hother
        rw [hfirst]
        rcases List.mem_append.mp hother with hother | hother
        · exact hspeaker other hother
        · rw [List.mem_singleton.mp hother, ← hopen, hsame]
      have happend : run ++ token :: tokens = run ++ [token] ++ tokens := by simp
      rw [happend, ← ih (by simp) hspeaker', openRun_concat hne]
    · have hother : ∀ last ∈ run.getLast?, sameSpeaker last token = false := by
        intro last hlast
        have hmem := List.mem_of_getLast? hlast
        rw [sameSpeaker, hspeaker last hmem, beq_eq_false_iff_ne]
        exact hsame
      obtain ⟨rest, hruns, hstart⟩ := runStart_head_splitBy token tokens
      have htail := ih (List.cons_ne_nil token []) (by simp [runSpeaker])
      rw [openRun_singleton, List.singleton_append] at htail
      rw [List.splitBy_append_cons tokens hother, splitBy_oneSpeaker hne hspeaker,
        List.singleton_append, segmentsOf, htail, hruns, closedEnd, hstart]
      rfl

theorem segments_runs (tokens : List SonioxToken) :
    ((heard preseconds tokens).foldl (addToken preseconds) []).reverse =
      segmentsOf preseconds (runs preseconds tokens) := by
  rw [runs]
  cases heard preseconds tokens with
  | nil => rfl
  | cons token tokens =>
    have hclose := closeRun_openRun preseconds (List.cons_ne_nil token [])
      (by simp [runSpeaker]) tokens
    rw [openRun_singleton, List.singleton_append] at hclose
    rw [← hclose, List.foldl_cons, addToken, foldl_addToken]
    rfl

/-- A run says something, since each of its tokens does. -/
theorem strip_runText_ne {tokens run : List SonioxToken} (hrun : run ∈ runs preseconds tokens) :
    strip (runText run) ≠ "" := by
  have hne : run ≠ [] := List.ne_nil_of_mem_splitBy hrun
  obtain ⟨first, others, rfl⟩ := List.exists_cons_of_ne_nil hne
  have hheard : first ∈ heard preseconds tokens := by
    rw [← List.flatten_splitBy sameSpeaker (heard preseconds tokens)]
    exact List.mem_flatten.mpr ⟨_, hrun, List.mem_cons_self⟩
  have hsays : isBlank first.text = false := by
    have hkept := (List.mem_filter.mp hheard).2
    simp only [Bool.and_eq_true, Bool.not_eq_true'] at hkept
    exact hkept.1.2
  rw [Ne, strip_eq_empty_iff]
  intro hblank
  have hfirst : isBlank first.text = true := by
    simp only [isBlank, List.all_eq_true] at hblank ⊢
    intro c hc
    exact hblank c (by simp [runText, hc])
  rw [hfirst] at hsays
  cases hsays

def SonioxSegment.stripped (segment : SonioxSegment) : SonioxSegment :=
  { segment with text := strip segment.text }

theorem exists_run_of_mem {allRuns : List (List SonioxToken)} {segment : SonioxSegment}
    (h : segment ∈ segmentsOf preseconds allRuns) :
    ∃ run ∈ allRuns, segment.text = runText run ∧ segment.start = runStart run - preseconds := by
  induction allRuns with
  | nil => cases h
  | cons run rest ih =>
    rcases List.mem_cons.mp h with rfl | h
    · exact ⟨run, List.mem_cons_self, rfl, rfl⟩
    · obtain ⟨other, hother, hsegment⟩ := ih h
      exact ⟨other, List.mem_cons_of_mem _ hother, hsegment⟩

/-- What is streamed is one segment for each run. -/
theorem handleTokens_eq (tokens : List SonioxToken) :
    handleTokens preseconds tokens =
      (segmentsOf preseconds (runs preseconds tokens)).map SonioxSegment.stripped := by
  rw [handleTokens, foldl_handleToken, segments_runs]
  apply List.filter_eq_self.mpr
  intro segment hsegment
  obtain ⟨raw, hraw, rfl⟩ := List.mem_map.mp hsegment
  obtain ⟨run, hrun, htext, -⟩ := exists_run_of_mem hraw
  simpa [htext] using strip_runText_ne hrun

end loop

/-! ### Times -/

/-- No token starts before the one before it has ended. -/
def InTimeOrder (tokens : List SonioxToken) : Prop :=
  tokens.IsChain fun a b => a.stop ≤ b.start

theorem InTimeOrder.pairwise {tokens : List SonioxToken} (h : InTimeOrder tokens) :
    tokens.Pairwise fun a b => a.stop ≤ b.start :=
  haveI : IsTrans SonioxToken fun a b => a.stop ≤ b.start :=
    ⟨fun _ b _ hab hbc => hab.trans (b.start_le_stop.trans hbc)⟩
  List.isChain_iff_pairwise.mp h

/-- Runs whose tokens are in time order: none ends before it starts, or after the next starts. -/
structure RunsInOrder (allRuns : List (List SonioxToken)) : Prop where
  within : ∀ run ∈ allRuns, runStart run ≤ runEnd run
  apart : allRuns.Pairwise fun a b => runEnd a ≤ runStart b

theorem RunsInOrder.tail {run : List SonioxToken} {rest : List (List SonioxToken)}
    (h : RunsInOrder (run :: rest)) : RunsInOrder rest where
  within := fun other hother => h.within other (List.mem_cons_of_mem _ hother)
  apart := (List.pairwise_cons.mp h.apart).2

theorem runs_inOrder (preseconds : ℚ) {tokens : List SonioxToken}
    (horder : InTimeOrder (tokens.filter SonioxToken.isFinal)) :
    RunsInOrder (runs preseconds tokens) := by
  have hsub : (heard preseconds tokens).Sublist (tokens.filter SonioxToken.isFinal) := by
    have hfilter : heard preseconds tokens = (tokens.filter SonioxToken.isFinal).filter
        fun token => !isBlank token.text && decide (preseconds ≤ token.start) := by
      rw [heard, List.filter_filter]
      congr 1
      funext token
      cases token.isFinal <;> simp
    rw [hfilter]
    exact List.filter_sublist
  have hpairs := horder.pairwise.sublist hsub
  rw [← List.flatten_splitBy sameSpeaker (heard preseconds tokens), List.pairwise_flatten] at hpairs
  have hsplit : ∀ run ∈ runs preseconds tokens, ∃ first last, first ∈ run.head? ∧
      last ∈ run.getLast? ∧ runStart run = first.start ∧ runEnd run = last.stop := by
    intro run hrun
    have hne : run ≠ [] := List.ne_nil_of_mem_splitBy hrun
    refine ⟨run.head hne, run.getLast hne, List.head?_eq_some_head hne,
      List.getLast?_eq_some_getLast hne, ?_, ?_⟩
    · rw [runStart, List.head?_eq_some_head hne]
      rfl
    · rw [runEnd, List.getLast?_eq_some_getLast hne]
      rfl
  constructor
  · intro run hrun
    obtain ⟨first, others, rfl⟩ := List.exists_cons_of_ne_nil (List.ne_nil_of_mem_splitBy hrun)
    have hinner := List.pairwise_cons.mp (hpairs.1 _ hrun)
    obtain ⟨start, last, hstart, hlast, hfirst, hend⟩ := hsplit _ hrun
    rw [hfirst, hend]
    cases hstart
    rcases List.mem_cons.mp (List.mem_of_getLast? hlast) with rfl | hmem
    · exact last.start_le_stop
    · exact first.start_le_stop.trans ((hinner.1 last hmem).trans last.start_le_stop)
  · apply hpairs.2.imp_of_mem
    intro a b ha hb hab
    obtain ⟨-, last, -, hlast, -, hend⟩ := hsplit a ha
    obtain ⟨first, -, hfirst, -, hstart, -⟩ := hsplit b hb
    rw [hend, hstart]
    exact hab last (List.mem_of_getLast? hlast) first (List.mem_of_mem_head? hfirst)

/-- Times relative to `preseconds`: no segment ends before it starts, or after the next one
starts, or after its tokens do. -/
structure WellTimed (preseconds : ℚ) (allRuns : List (List SonioxToken))
    (segments : List SonioxSegment) : Prop where
  within : ∀ segment ∈ segments, segment.start ≤ segment.stop
  apart : segments.Pairwise fun a b => a.stop ≤ b.start
  lastEnds : ∀ segment ∈ segments.getLast?, ∀ run ∈ allRuns.getLast?,
    segment.stop ≤ runEnd run - preseconds

/-- A run of several tokens ends at least `preseconds` before the next one starts; where it is
the last one, `preseconds` are not positive and not below its negative length. -/
def EndsAgree (preseconds : ℚ) : List (List SonioxToken) → Prop
  | [] => True
  | [run] => 1 < run.length → preseconds ≤ 0 ∧ runStart run - preseconds ≤ runEnd run
  | run :: next :: rest =>
    (1 < run.length → runEnd run + preseconds ≤ runStart next) ∧ EndsAgree preseconds (next :: rest)

section times
variable {preseconds : ℚ}

theorem wellTimed_singleton_iff {run : List SonioxToken} (horder : runStart run ≤ runEnd run) :
    WellTimed preseconds [run] (segmentsOf preseconds [run]) ↔ EndsAgree preseconds [run] := by
  have hstop : segmentsOf preseconds [run] = [openRun preseconds run] := rfl
  rw [hstop, EndsAgree]
  constructor
  · intro htimed hlong
    have hwithin : runStart run - preseconds ≤ openEnd preseconds run :=
      htimed.within _ List.mem_cons_self
    have hends : openEnd preseconds run ≤ runEnd run - preseconds := htimed.lastEnds _ rfl run rfl
    rw [openEnd, if_neg (by omega)] at hwithin hends
    exact ⟨by linarith, hwithin⟩
  · intro hagree
    have hbounds : runStart run - preseconds ≤ openEnd preseconds run ∧
        openEnd preseconds run ≤ runEnd run - preseconds := by
      rw [openEnd]
      split_ifs with hshort
      · exact ⟨by linarith, le_rfl⟩
      · obtain ⟨hnonpos, hstart⟩ := hagree (by omega)
        exact ⟨hstart, by linarith⟩
    refine ⟨?_, List.pairwise_singleton _ _, ?_⟩
    · intro segment hsegment
      rw [List.mem_singleton.mp hsegment]
      exact hbounds.1
    · rintro segment ⟨⟩ other ⟨⟩
      exact hbounds.2

theorem wellTimed_cons_iff {run next : List SonioxToken} {rest : List (List SonioxToken)}
    (horder : RunsInOrder (run :: next :: rest)) :
    WellTimed preseconds (run :: next :: rest) (segmentsOf preseconds (run :: next :: rest)) ↔
      (1 < run.length → runEnd run + preseconds ≤ runStart next) ∧
        WellTimed preseconds (next :: rest) (segmentsOf preseconds (next :: rest)) := by
  obtain ⟨hbehind, hafter⟩ := List.pairwise_cons.mp horder.apart
  have hwithin := horder.within run List.mem_cons_self
  have hnext := hbehind next List.mem_cons_self
  have hstarts : ∀ segment ∈ segmentsOf preseconds (next :: rest),
      runStart next - preseconds ≤ segment.start := by
    intro segment hsegment
    obtain ⟨other, hother, -, hstart⟩ := exists_run_of_mem hsegment
    rw [hstart]
    rcases List.mem_cons.mp hother with rfl | hother
    · exact le_rfl
    · have hfirst := horder.within next (by simp)
      have hlater := (List.pairwise_cons.mp hafter).1 other hother
      linarith
  have hclosed : closedEnd preseconds run (next :: rest) ≤ runStart next - preseconds ↔
      (1 < run.length → runEnd run + preseconds ≤ runStart next) := by
    rw [closedEnd, max_le_iff, openEnd]
    split_ifs with hshort
    · simp only [le_refl, and_true]
      exact iff_of_true (by linarith) fun hlong => absurd hlong (by omega)
    · rw [and_iff_left le_rfl, forall_prop_of_true (by omega), ← le_sub_iff_add_le]
  have hlast : (segmentsOf preseconds (run :: next :: rest)).getLast? =
      (segmentsOf preseconds (next :: rest)).getLast? := by
    rw [segmentsOf, segmentsOf, List.getLast?_cons_cons]
  rw [← hclosed]
  constructor
  · intro htimed
    have hpairs := List.pairwise_cons.mp htimed.apart
    refine ⟨hpairs.1 _ List.mem_cons_self, ?_, hpairs.2, ?_⟩
    · exact fun segment hsegment => htimed.within segment (List.mem_cons_of_mem _ hsegment)
    · intro segment hsegment other hother
      exact htimed.lastEnds segment (hlast ▸ hsegment) other
        (by rwa [List.getLast?_cons_cons])
  · rintro ⟨hstop, htimed⟩
    constructor
    · intro segment hsegment
      rcases List.mem_cons.mp hsegment with rfl | hsegment
      · change runStart run - preseconds ≤ max _ (runStart next - preseconds)
        exact le_max_of_le_right (by linarith)
      · exact htimed.within segment hsegment
    · refine List.pairwise_cons.mpr ⟨fun segment hsegment => ?_, htimed.apart⟩
      exact hstop.trans (hstarts segment hsegment)
    · intro segment hsegment other hother
      rw [List.getLast?_cons_cons] at hother
      exact htimed.lastEnds segment (hlast ▸ hsegment) other hother

theorem wellTimed_iff {allRuns : List (List SonioxToken)} (horder : RunsInOrder allRuns) :
    WellTimed preseconds allRuns (segmentsOf preseconds allRuns) ↔
      EndsAgree preseconds allRuns := by
  induction allRuns with
  | nil =>
    exact iff_of_true ⟨by simp [segmentsOf], List.Pairwise.nil, by simp [segmentsOf]⟩ trivial
  | cons run rest ih =>
    cases rest with
    | nil => exact wellTimed_singleton_iff (horder.within run List.mem_cons_self)
    | cons next rest => rw [wellTimed_cons_iff horder, ih horder.tail, EndsAgree]

theorem wellTimed_stripped_iff {allRuns : List (List SonioxToken)}
    {segments : List SonioxSegment} :
    WellTimed preseconds allRuns (segments.map SonioxSegment.stripped) ↔
      WellTimed preseconds allRuns segments := by
  constructor
  · rintro ⟨hwithin, hapart, hlast⟩
    refine ⟨fun segment hsegment => ?_, List.pairwise_map.mp hapart, ?_⟩
    · exact hwithin segment.stripped (List.mem_map_of_mem hsegment)
    · intro segment hsegment run hrun
      exact hlast segment.stripped (by simp [Option.mem_def.mp hsegment]) run hrun
  · rintro ⟨hwithin, hapart, hlast⟩
    refine ⟨?_, List.pairwise_map.mpr hapart, ?_⟩
    · simp only [List.forall_mem_map]
      exact hwithin
    · intro segment hsegment run hrun
      rw [List.getLast?_map, Option.mem_def, Option.map_eq_some_iff] at hsegment
      obtain ⟨raw, hraw, rfl⟩ := hsegment
      exact hlast raw hraw run hrun

end times

/-- The streamed segments are the maximal runs of the heard tokens, each with its speaker, its
text without outer whitespace and its start. Their ends are right exactly when no run of several
tokens, whose end is not made relative, reaches what follows it. -/
theorem sonioxCoalescing_iff (preseconds : ℚ) (tokens : List SonioxToken)
    (horder : InTimeOrder (tokens.filter SonioxToken.isFinal)) :
    ((handleTokens preseconds tokens).map fun segment =>
        (segment.speaker, segment.text, segment.start)) =
      ((runs preseconds tokens).map fun run =>
        (runSpeaker run, strip (runText run), runStart run - preseconds)) ∧
    (WellTimed preseconds (runs preseconds tokens) (handleTokens preseconds tokens) ↔
      EndsAgree preseconds (runs preseconds tokens)) := by
  rw [handleTokens_eq, wellTimed_stripped_iff]
  refine ⟨?_, wellTimed_iff (runs_inOrder preseconds horder)⟩
  induction runs preseconds tokens with
  | nil => rfl
  | cons run rest ih =>
    rw [segmentsOf, List.map_cons, List.map_cons, List.map_cons, ih]
    rfl

/-- Two words from second 3 to second 4 of one speaker. -/
def twoWords : List SonioxToken :=
  [{ isFinal := true, text := "so ", startMs := 3000, durationMs := some 500 },
    { isFinal := true, text := "it", startMs := 3500, durationMs := some 500 }]

theorem inTimeOrder_twoWords : InTimeOrder (twoWords.filter SonioxToken.isFinal) := by
  have hfilter : twoWords.filter SonioxToken.isFinal = twoWords := rfl
  rw [hfilter, InTimeOrder, twoWords, List.isChain_pair]
  norm_num [SonioxToken.stop, SonioxToken.start]

/-- Behind a profile of 2 seconds the words make a segment from 1 to 4 instead of 1 to 2. -/
theorem not_sonioxCoalescing : ¬ ∀ (preseconds : ℚ) (tokens : List SonioxToken),
    InTimeOrder (tokens.filter SonioxToken.isFinal) →
      WellTimed preseconds (runs preseconds tokens) (handleTokens preseconds tokens) := by
  intro htimed
  have hends := (htimed 2 twoWords inTimeOrder_twoWords).lastEnds
    ⟨"SPEAKER_00", 1, 4, "so it", false, none⟩ (by decide +kernel) twoWords (by decide +kernel)
  have hlate : ¬ (4 : ℚ) ≤ runEnd twoWords - 2 := by decide +kernel
  exact hlate hends

/-- Without a profile the times of the two words agree. -/
theorem sonioxCoalescing_noProfile :
    WellTimed 0 (runs 0 twoWords) (handleTokens 0 twoWords) := by
  apply (sonioxCoalescing_iff 0 twoWords inTimeOrder_twoWords).2.mpr
  have hruns : runs 0 twoWords = [twoWords] := by decide +kernel
  rw [hruns]
  intro _
  have hspan : runStart twoWords - 0 ≤ runEnd twoWords := by decide +kernel
  exact ⟨le_rfl, hspan⟩

end Omi.Stt
