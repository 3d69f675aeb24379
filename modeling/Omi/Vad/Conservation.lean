import Mathlib.Algebra.Order.BigOperators.Group.List
import Omi.Foundation.Settlement
import Omi.Vad.Gate

/-! What becomes of the audio fed to a gate in active mode. -/
namespace Omi.Vad
open Omi.Foundation

/-! ### One chunk -/

/-- Eviction keeps a suffix with the newest chunk, within the pre-roll or down to one chunk. -/
theorem evict_spec (config : GateConfig) (chunks : List Pcm) (totalMs : ℚ) :
    let kept := evict config chunks totalMs
    kept.1 <:+ chunks ∧ (chunks ≠ [] → kept.1 ≠ []) ∧
      (kept.2 ≤ vadGatePreRollMs ∨ kept.1.length ≤ 1) := by
  fun_induction evict config chunks totalMs with
  | case1 evicted next rest totalMs hover ih =>
    obtain ⟨hsuffix, hne, hbound⟩ := ih
    exact ⟨hsuffix.trans (List.suffix_cons evicted (next :: rest)), fun _ => hne (by simp), hbound⟩
  | case2 evicted next rest totalMs hover =>
    exact ⟨List.suffix_rfl, fun h => h, .inl (not_lt.1 hover)⟩
  | case3 chunks totalMs hshort =>
    refine ⟨List.suffix_rfl, fun h => h, .inr ?_⟩
    match chunks, hshort with
    | [], _ => simp
    | [_], _ => simp
    | evicted :: next :: rest, hshort => exact absurd rfl (hshort evicted next rest)

/-- Over exact arithmetic the total stays the length of what is kept. -/
theorem evict_total {config : GateConfig} (hexact : config.rounding = .exact) (chunks : List Pcm)
    (totalMs : ℚ) (htotal : totalMs = (chunks.map config.durationMs).sum) :
    (evict config chunks totalMs).2 =
      ((evict config chunks totalMs).1.map config.durationMs).sum := by
  fun_induction evict config chunks totalMs with
  | case1 evicted next rest totalMs hover ih =>
    refine ih ?_
    rw [htotal, hexact, Rounding.exact_apply, List.map_cons, List.sum_cons, add_sub_cancel_left]
  | case2 evicted next rest totalMs hover => exact htotal
  | case3 chunks totalMs hshort => exact htotal

namespace VADStreamingGate
variable (gate : VADStreamingGate) (chunk : AudioChunk)

/-- What a gate keeps about its pre-roll. -/
structure Tidy : Prop where
  active : gate.mode = .active
  total : gate.config.rounding = .exact →
    gate.preRollTotalMs = (gate.preRoll.map gate.config.durationMs).sum
  bounded : gate.preRollTotalMs ≤ vadGatePreRollMs ∨ gate.preRoll.length ≤ 1
  idle : gate.state ≠ .silence → gate.preRoll = []

/-- What the state machine did with a chunk, and with the audio that waited before it. -/
inductive Outcome (gate next : VADStreamingGate) (chunk : AudioChunk) : Pcm → Prop
  /-- Onset: the retained pre-roll is sent. -/
  | onset (silent : gate.state = .silence) (speech : chunk.isSpeech = true)
      (state : next.state = .speech) (preRoll : next.preRoll = [])
      (total : next.preRollTotalMs = 0)
      (sent : next.bytesSent = gate.bytesSent + (gate.retained chunk.pcm).1.flatten.length) :
      Outcome gate next chunk (gate.retained chunk.pcm).1.flatten
  /-- Silence: the chunk waits in the pre-roll. -/
  | waited (silent : gate.state = .silence) (noSpeech : chunk.isSpeech = false)
      (state : next.state = .silence) (preRoll : next.preRoll = (gate.retained chunk.pcm).1)
      (total : next.preRollTotalMs = (gate.retained chunk.pcm).2)
      (sent : next.bytesSent = gate.bytesSent) : Outcome gate next chunk []
  /-- Speech or hangover: the chunk is sent. -/
  | passed (talking : gate.state ≠ .silence) (state : next.state ≠ .silence)
      (preRoll : next.preRoll = gate.preRoll)
      (total : next.preRollTotalMs = gate.preRollTotalMs)
      (sent : next.bytesSent = gate.bytesSent + chunk.pcm.length) :
      Outcome gate next chunk chunk.pcm
  /-- The hangover has expired: the chunk is the new pre-roll. -/
  | expired (talking : gate.state ≠ .silence) (noSpeech : chunk.isSpeech = false)
      (late : vadGateHangoverMs < gate.config.rounding
        (gate.config.rounding (gate.audioCursorMs + gate.config.chunkMs chunk.pcm) -
          gate.lastSpeechMs))
      (state : next.state = .silence) (preRoll : next.preRoll = [chunk.pcm])
      (total : next.preRollTotalMs = gate.config.durationMs chunk.pcm)
      (sent : next.bytesSent = gate.bytesSent) : Outcome gate next chunk []

variable {gate} {chunk}

theorem processAudio_active (h : gate.mode = .active) :
    gate.processAudio chunk =
      ((((gate.receive chunk).updateState chunk).1).recordPrometheusAudio,
        ((gate.receive chunk).updateState chunk).2) := by
  simp only [processAudio, h]

/-- The state machine leaves the accounting of the chunk alone. -/
theorem updateState_frame (gate : VADStreamingGate) (chunk : AudioChunk) :
    (gate.updateState chunk).1.config = gate.config ∧
      (gate.updateState chunk).1.mode = gate.mode ∧
      (gate.updateState chunk).1.audioCursorMs = gate.audioCursorMs ∧
      (gate.updateState chunk).1.lastSpeechMs = gate.lastSpeechMs ∧
      (gate.updateState chunk).1.bytesReceived = gate.bytesReceived := by
  unfold updateState
  cases gate.state with
  | silence =>
    unfold updateSilence
    cases hspeech : chunk.isSpeech
    · exact ⟨rfl, rfl, rfl, rfl, rfl⟩
    · exact ⟨rfl, rfl, rfl, rfl, rfl⟩
  | speech =>
    unfold updateSpeech
    cases hspeech : chunk.isSpeech
    · exact ⟨rfl, rfl, rfl, rfl, rfl⟩
    · exact ⟨rfl, rfl, rfl, rfl, rfl⟩
  | hangover =>
    unfold updateHangover
    cases hspeech : chunk.isSpeech
    · by_cases hlate : vadGateHangoverMs <
          gate.config.rounding (gate.audioCursorMs - gate.lastSpeechMs)
      · simp only [Bool.false_eq_true, if_false, hlate, if_true]
        exact ⟨rfl, rfl, rfl, rfl, rfl⟩
      · simp only [Bool.false_eq_true, if_false, hlate]
        exact ⟨rfl, rfl, rfl, rfl, rfl⟩
    · exact ⟨rfl, rfl, rfl, rfl, rfl⟩

/-- Every chunk has one of the outcomes. -/
theorem processAudio_outcome (h : gate.mode = .active) (chunk : AudioChunk) :
    Outcome gate (gate.processAudio chunk).1 chunk (gate.processAudio chunk).2.audioToSend := by
  rw [processAudio_active h]
  unfold updateState
  have hstate : (gate.receive chunk).state = gate.state := rfl
  rw [hstate]
  cases hgate : gate.state with
  | silence =>
    unfold updateSilence
    cases hspeech : chunk.isSpeech with
    | true => exact .onset hgate hspeech rfl rfl rfl rfl
    | false => exact .waited hgate hspeech hgate rfl rfl rfl
  | speech =>
    unfold updateSpeech
    have htalking : gate.state ≠ .silence := by simp [hgate]
    cases hspeech : chunk.isSpeech with
    | true => exact .passed htalking htalking rfl rfl rfl
    | false => exact .passed htalking (by simp [recordPrometheusAudio]) rfl rfl rfl
  | hangover =>
    have htalking : gate.state ≠ .silence := by simp [hgate]
    unfold updateHangover
    cases hspeech : chunk.isSpeech with
    | true => exact .passed htalking (by simp [recordPrometheusAudio]) rfl rfl rfl
    | false =>
      have hlast : (gate.receive chunk).lastSpeechMs = gate.lastSpeechMs := by
        simp [receive, hspeech]
      by_cases hlate : vadGateHangoverMs < (gate.receive chunk).config.rounding
          ((gate.receive chunk).audioCursorMs - (gate.receive chunk).lastSpeechMs)
      · simp only [Bool.false_eq_true, if_false, hlate, if_true]
        refine .expired htalking hspeech ?_ rfl rfl rfl rfl
        rw [hlast] at hlate
        exact hlate
      · simp only [Bool.false_eq_true, if_false, hlate]
        exact .passed htalking htalking rfl rfl rfl

/-- What a chunk adds to the accounts of the gate. -/
theorem processAudio_frame (h : gate.mode = .active) (chunk : AudioChunk) :
    (gate.processAudio chunk).1.config = gate.config ∧
      (gate.processAudio chunk).1.mode = .active ∧
      (gate.processAudio chunk).1.audioCursorMs =
        gate.config.rounding (gate.audioCursorMs + gate.config.chunkMs chunk.pcm) ∧
      (gate.processAudio chunk).1.lastSpeechMs =
        (if chunk.isSpeech then
            gate.config.rounding (gate.audioCursorMs + gate.config.chunkMs chunk.pcm)
          else gate.lastSpeechMs) ∧
      (gate.processAudio chunk).1.bytesReceived = gate.bytesReceived + chunk.pcm.length := by
  rw [processAudio_active h]
  obtain ⟨hconfig, hmode, hcursor, hlast, hreceived⟩ :=
    updateState_frame (gate.receive chunk) chunk
  exact ⟨hconfig, hmode.trans h, hcursor, hlast, hreceived⟩

theorem processAudio_skipped (h : gate.mode = .active) (chunk : AudioChunk) :
    (gate.processAudio chunk).1.prometheusBytesSkipped =
      (gate.processAudio chunk).1.bytesReceived - (gate.processAudio chunk).1.bytesSent -
        (gate.processAudio chunk).1.pendingBytes := by
  rw [processAudio_active h]
  rfl

theorem retained_spec (gate : VADStreamingGate) (pcm : Pcm) :
    (gate.retained pcm).1 <:+ gate.preRoll ++ [pcm] ∧ (gate.retained pcm).1 ≠ [] ∧
      ((gate.retained pcm).2 ≤ vadGatePreRollMs ∨ (gate.retained pcm).1.length ≤ 1) := by
  obtain ⟨hsuffix, hne, hbound⟩ := evict_spec gate.config (gate.preRoll ++ [pcm])
    (gate.config.rounding (gate.preRollTotalMs + gate.config.durationMs pcm))
  exact ⟨hsuffix, hne (by simp), hbound⟩

namespace Tidy

theorem retained_total (h : gate.Tidy) (hexact : gate.config.rounding = .exact) (pcm : Pcm) :
    (gate.retained pcm).2 = ((gate.retained pcm).1.map gate.config.durationMs).sum := by
  refine evict_total hexact _ _ ?_
  rw [hexact, Rounding.exact_apply, h.total hexact, List.map_append, List.sum_append]
  simp

/-- Outside silence nothing waits, so the chunk alone is retained. -/
theorem retained_eq (h : gate.Tidy) (htalking : gate.state ≠ .silence) (pcm : Pcm) :
    (gate.retained pcm).1 = [pcm] := by
  obtain ⟨hsuffix, hne, -⟩ := gate.retained_spec pcm
  rw [h.idle htalking, List.nil_append, List.suffix_cons_iff] at hsuffix
  rcases hsuffix with heq | hnil
  · exact heq
  · exact absurd (List.suffix_nil.1 hnil) hne

theorem processAudio (h : gate.Tidy) : (gate.processAudio chunk).1.Tidy := by
  obtain ⟨hconfig, hmode, -⟩ := processAudio_frame h.active chunk
  obtain ⟨-, -, hbound⟩ := gate.retained_spec chunk.pcm
  have houtcome := processAudio_outcome h.active chunk
  generalize (gate.processAudio chunk).2.audioToSend = audio at houtcome
  cases houtcome with
  | onset silent speech state preRoll total sent =>
    exact ⟨hmode, fun _ => by simp [preRoll, total], by simp [preRoll], fun _ => preRoll⟩
  | waited silent noSpeech state preRoll total sent =>
    refine ⟨hmode, fun hexact => ?_, ?_, fun hne => absurd state hne⟩
    · rw [hconfig] at hexact
      rw [total, preRoll, hconfig, h.retained_total hexact]
    · rw [total, preRoll]
      exact hbound
  | passed talking state preRoll total sent =>
    refine ⟨hmode, fun hexact => ?_, ?_, fun _ => preRoll.trans (h.idle talking)⟩
    · rw [hconfig] at hexact
      rw [total, preRoll, hconfig, h.total hexact]
    · rw [total, preRoll]
      exact h.bounded
  | expired talking noSpeech late state preRoll total sent =>
    exact ⟨hmode, fun _ => by simp [preRoll, total, hconfig], .inr (by simp [preRoll]),
      fun hne => absurd state hne⟩

/-- Either the retained audio is sent and nothing waits, or it waits and nothing is sent. -/
theorem sends_or_holds (h : gate.Tidy) {next : VADStreamingGate} {audio : Pcm}
    (houtcome : Outcome gate next chunk audio) :
    (next.preRoll = [] ∧ audio = (gate.retained chunk.pcm).1.flatten ∧
        next.bytesSent = gate.bytesSent + (gate.retained chunk.pcm).1.flatten.length) ∨
      (next.preRoll = (gate.retained chunk.pcm).1 ∧ audio = [] ∧
        next.bytesSent = gate.bytesSent) := by
  cases houtcome with
  | onset silent speech state preRoll total sent => exact .inl ⟨preRoll, rfl, sent⟩
  | waited silent noSpeech state preRoll total sent => exact .inr ⟨preRoll, rfl, sent⟩
  | passed talking state preRoll total sent =>
    have hkept := h.retained_eq talking chunk.pcm
    refine .inl ⟨preRoll.trans (h.idle talking), ?_, ?_⟩
    · simp [hkept]
    · simp [hkept, sent]
  | expired talking noSpeech late state preRoll total sent =>
    have hkept := h.retained_eq talking chunk.pcm
    exact .inr ⟨preRoll.trans hkept.symm, rfl, sent⟩

end Tidy

end VADStreamingGate

/-! ### Runs -/

/-- A gate with what it has put out and what became of each chunk it was fed. -/
structure GateRun where
  gate : VADStreamingGate
  outputs : List GateOutput := []
  account : Settlement AudioChunk := {}

namespace GateRun

/-- Feed one chunk. Evicted audio is dropped; the gate sends all that waits or none of it. -/
def feed (run : GateRun) (chunk : AudioChunk) : GateRun :=
  let (next, output) := run.gate.processAudio chunk
  let kept := (run.gate.retained chunk.pcm).1
  let waiting := (run.account.receive chunk).drop (run.gate.preRoll.length + 1 - kept.length)
  { gate := next
    outputs := run.outputs ++ [output]
    account := if next.preRoll = [] then waiting.deliver else waiting }

def feedAll (run : GateRun) (chunks : List AudioChunk) : GateRun := chunks.foldl feed run

def emitted (run : GateRun) : Pcm := run.outputs.flatMap fun output => output.audioToSend

end GateRun

/-- The clock of the audio that a gate was fed, and where it stood after the last chunk judged
speech. -/
structure SpeechClock where
  cursorMs : ℚ
  lastSpeechMs : Option ℚ := none

def SpeechClock.advance (config : GateConfig) (clock : SpeechClock) (chunk : AudioChunk) :
    SpeechClock :=
  let cursorMs := config.rounding (clock.cursorMs + config.chunkMs chunk.pcm)
  { cursorMs := cursorMs
    lastSpeechMs := if chunk.isSpeech then some cursorMs else clock.lastSpeechMs }

def speechClock (start : VADStreamingGate) (chunks : List AudioChunk) : SpeechClock :=
  chunks.foldl (SpeechClock.advance start.config) { cursorMs := start.audioCursorMs }

theorem speechClock_concat (start : VADStreamingGate) (chunks : List AudioChunk)
    (chunk : AudioChunk) :
    speechClock start (chunks ++ [chunk]) =
      (speechClock start chunks).advance start.config chunk := by
  simp [speechClock]

/-- The audio time since the last chunk judged speech, once there is one, in the arithmetic of the
gate. -/
def sinceSpeechMs (start : VADStreamingGate) (chunks : List AudioChunk) : Option ℚ :=
  (speechClock start chunks).lastSpeechMs.map fun lastSpeechMs =>
    start.config.rounding ((speechClock start chunks).cursorMs - lastSpeechMs)

/-- Over exact arithmetic it is the length of the chunks since. -/
theorem sinceSpeechMs_exact {start : VADStreamingGate} (hexact : start.config.rounding = .exact)
    (chunks : List AudioChunk) (chunk : AudioChunk) :
    sinceSpeechMs start (chunks ++ [chunk]) =
      if chunk.isSpeech then some 0
      else (sinceSpeechMs start chunks).map (· + start.config.chunkMs chunk.pcm) := by
  unfold sinceSpeechMs
  rw [speechClock_concat]
  cases hspeech : chunk.isSpeech with
  | true => simp [SpeechClock.advance, hspeech, hexact]
  | false =>
    simp only [SpeechClock.advance, hspeech, hexact, Rounding.exact_apply, Bool.false_eq_true,
      if_false, Option.map_map]
    congr 1
    funext lastSpeechMs
    exact sub_add_eq_add_sub _ _ _ |>.symm

/-- The chunk ends inside the hangover window of the speech before it. -/
def InHangover (start : VADStreamingGate) (before : List AudioChunk) (chunk : AudioChunk) : Prop :=
  ∃ since ∈ sinceSpeechMs start (before ++ [chunk]), since ≤ vadGateHangoverMs

/-- Where active mode starts: a gate built for it, or one that ran in shadow mode and was
activated. -/
def VADStreamingGate.opened (config : GateConfig) : Option (List AudioChunk) → VADStreamingGate
  | none => { config := config }
  | some shadowed =>
    let shadowing : VADStreamingGate := { config := config, mode := .shadow }
    (shadowed.foldl (fun gate chunk => (gate.processAudio chunk).1) shadowing).activate

/-- A gate in active mode that holds no audio back and has skipped none. -/
structure VADStreamingGate.Opened (gate : VADStreamingGate) : Prop where
  active : gate.mode = .active
  silent : gate.state = .silence
  preRoll : gate.preRoll = []
  total : gate.preRollTotalMs = 0
  bytesSent : gate.bytesSent = gate.bytesReceived
  skipped : gate.prometheusBytesSkipped = 0
  rounded : gate.config.rounding gate.audioCursorMs = gate.audioCursorMs
  mapper : gate.dgWallMapper.rounding = gate.config.rounding
  checkpoints : gate.dgWallMapper.checkpoints = []

/-- A gate fed the chunks has their clock, and is silent only where the last speech is long past. -/
structure VADStreamingGate.KeepsTime (gate start : VADStreamingGate) (chunks : List AudioChunk) :
    Prop where
  cursor : gate.audioCursorMs = (speechClock start chunks).cursorMs
  lastSpeech : ∀ lastSpeechMs ∈ (speechClock start chunks).lastSpeechMs,
    gate.lastSpeechMs = lastSpeechMs
  rounded : start.config.rounding gate.audioCursorMs = gate.audioCursorMs
  quiet : (speechClock start chunks).lastSpeechMs = none → gate.state = .silence
  late : gate.state = .silence → ∀ since ∈ sinceSpeechMs start chunks, vadGateHangoverMs < since

namespace GateRun

/-- What the books of a run say after `chunks` were fed to a gate opened as `start`. -/
structure Audited (start : VADStreamingGate) (chunks : List AudioChunk) (run : GateRun) :
    Prop where
  tidy : run.gate.Tidy
  config : run.gate.config = start.config
  received : run.account.received = chunks
  pending : run.gate.preRoll = run.account.pending.map AudioChunk.pcm
  emitted : run.emitted = run.account.delivered.flatMap AudioChunk.pcm
  bytesReceived : run.gate.bytesReceived =
    start.bytesReceived + (chunks.map fun chunk => chunk.pcm.length).sum
  bytesSent : run.gate.bytesSent =
    start.bytesReceived + (run.account.delivered.map fun chunk => chunk.pcm.length).sum
  skipped : run.gate.prometheusBytesSkipped =
    (run.account.dropped.map fun chunk => chunk.pcm.length).sum
  time : run.gate.KeepsTime start chunks

theorem audited_start {start : VADStreamingGate} (h : start.Opened) :
    Audited start [] { gate := start } := by
  constructor
  case tidy =>
    exact ⟨h.active, fun _ => by simp [h.total, h.preRoll], .inr (by simp [h.preRoll]),
      fun _ => h.preRoll⟩
  case config => rfl
  case received => rfl
  case pending => exact h.preRoll
  case emitted => rfl
  case bytesReceived => rfl
  case bytesSent => exact h.bytesSent
  case skipped => exact h.skipped
  case time =>
    exact ⟨rfl, by rintro _ ⟨⟩, h.rounded, fun _ => h.silent, by rintro - _ ⟨⟩⟩

/-- The account before the gate's decision: the retained chunks wait. -/
def waiting (run : GateRun) (chunk : AudioChunk) : Settlement AudioChunk :=
  (run.account.receive chunk).drop
    (run.gate.preRoll.length + 1 - (run.gate.retained chunk.pcm).1.length)

variable {start : VADStreamingGate} {chunks : List AudioChunk} {run : GateRun}
  {chunk : AudioChunk}

theorem Audited.pending_waiting (h : Audited start chunks run) (chunk : AudioChunk) :
    (run.waiting chunk).pending.map AudioChunk.pcm = (run.gate.retained chunk.pcm).1 := by
  obtain ⟨hsuffix, -⟩ := run.gate.retained_spec chunk.pcm
  have hdrop := List.suffix_iff_eq_drop.1 hsuffix
  rw [hdrop]
  simp only [waiting, Settlement.pending_drop, Settlement.pending_receive, List.map_drop,
    List.map_append, List.map_cons, List.map_nil, ← h.pending, List.length_append,
    List.length_singleton]

/-- Feeding a chunk either delivers the chunks that wait or leaves them waiting. -/
theorem Audited.feed_cases (h : Audited start chunks run) (chunk : AudioChunk) :
    let kept := (run.gate.retained chunk.pcm).1
    let next := run.feed chunk
    (next.gate.preRoll = [] ∧ next.account = (run.waiting chunk).deliver ∧
        next.emitted = run.emitted ++ kept.flatten ∧
        next.gate.bytesSent = run.gate.bytesSent + kept.flatten.length) ∨
      (next.gate.preRoll = kept ∧ next.account = run.waiting chunk ∧
        next.emitted = run.emitted ∧ next.gate.bytesSent = run.gate.bytesSent) := by
  intro kept next
  have hemitted : next.emitted =
      run.emitted ++ (run.gate.processAudio chunk).2.audioToSend := by
    simp [next, feed, GateRun.emitted]
  have houtcome := VADStreamingGate.processAudio_outcome h.tidy.active chunk
  rcases h.tidy.sends_or_holds houtcome with ⟨hnil, haudio, hsent⟩ | ⟨hkept, haudio, hsent⟩
  · refine .inl ⟨hnil, ?_, by rw [hemitted, haudio], hsent⟩
    simp [next, feed, waiting, hnil]
  · refine .inr ⟨hkept, ?_, by rw [hemitted, haudio, List.append_nil], hsent⟩
    obtain ⟨-, hne, -⟩ := run.gate.retained_spec chunk.pcm
    simp [next, feed, waiting, hkept, hne]

theorem received_waiting (h : Audited start chunks run) (chunk : AudioChunk) :
    (run.waiting chunk).received = chunks ++ [chunk] := by
  simp [waiting, h.received]

theorem pendingBytes_eq {gate : VADStreamingGate} {account : Settlement AudioChunk}
    (h : gate.preRoll = account.pending.map AudioChunk.pcm) :
    gate.pendingBytes = (account.pending.map fun chunk => chunk.pcm.length).sum := by
  simp [VADStreamingGate.pendingBytes, h, Function.comp_def]

/-- One chunk keeps the books of the audio right. -/
theorem Audited.feed_audio (h : Audited start chunks run) (chunk : AudioChunk) :
    let next := run.feed chunk
    next.account.received = chunks ++ [chunk] ∧
    next.gate.preRoll = next.account.pending.map AudioChunk.pcm ∧
    next.emitted = next.account.delivered.flatMap AudioChunk.pcm ∧
    next.gate.bytesSent =
      start.bytesReceived + (next.account.delivered.map fun chunk => chunk.pcm.length).sum := by
  intro next
  have hwaiting := h.pending_waiting chunk
  have hdelivered : (run.waiting chunk).delivered = run.account.delivered := by
    simp [waiting]
  rcases h.feed_cases chunk with ⟨hnil, haccount, hemitted, hsent⟩ |
    ⟨hkept, haccount, hemitted, hsent⟩
  · rw [haccount]
    refine ⟨?_, ?_, ?_, ?_⟩
    · rw [Settlement.received_deliver, received_waiting h chunk]
    · rw [Settlement.pending_deliver, List.map_nil]
      exact hnil
    · rw [hemitted, h.emitted, Settlement.delivered_deliver, hdelivered, List.flatMap_append,
        ← hwaiting, List.flatMap_def (l := (run.waiting chunk).pending)]
    · rw [hsent, h.bytesSent, Settlement.delivered_deliver, hdelivered, ← hwaiting]
      simp [List.length_flatten, Function.comp_def, add_assoc]
  · rw [haccount, hdelivered]
    refine ⟨received_waiting h chunk, ?_, ?_, ?_⟩
    · rw [hwaiting]
      exact hkept
    · rw [hemitted, h.emitted]
    · rw [hsent, h.bytesSent]

/-- One chunk keeps the clock of the hangover right. -/
theorem Audited.feed_time (h : Audited start chunks run) (chunk : AudioChunk) :
    (run.feed chunk).gate.KeepsTime start (chunks ++ [chunk]) := by
  obtain ⟨-, -, hcursor, hlast, -⟩ :=
    VADStreamingGate.processAudio_frame h.tidy.active chunk
  have houtcome := VADStreamingGate.processAudio_outcome h.tidy.active chunk
  change (run.feed chunk).gate.audioCursorMs = _ at hcursor
  change (run.feed chunk).gate.lastSpeechMs = _ at hlast
  change VADStreamingGate.Outcome run.gate (run.feed chunk).gate chunk _ at houtcome
  rw [h.config] at hcursor hlast
  generalize (run.gate.processAudio chunk).2.audioToSend = audio at houtcome
  have hclock : (speechClock start (chunks ++ [chunk])).cursorMs =
      start.config.rounding (run.gate.audioCursorMs + start.config.chunkMs chunk.pcm) := by
    rw [speechClock_concat, h.time.cursor]
    rfl
  have hspoken : (speechClock start (chunks ++ [chunk])).lastSpeechMs =
      if chunk.isSpeech then
        some (start.config.rounding (run.gate.audioCursorMs + start.config.chunkMs chunk.pcm))
      else (speechClock start chunks).lastSpeechMs := by
    rw [speechClock_concat, h.time.cursor]
    rfl
  constructor
  case cursor => rw [hcursor, hclock]
  case lastSpeech =>
    rw [hspoken, hlast]
    cases chunk.isSpeech with
    | true =>
      rintro _ ⟨⟩
      rfl
    | false => exact h.time.lastSpeech
  case rounded =>
    rw [hcursor]
    exact start.config.rounding.idempotent _
  case quiet =>
    intro hnone
    cases hspeech : chunk.isSpeech with
    | true =>
      rw [hspoken, hspeech] at hnone
      cases hnone
    | false =>
      rw [hspoken, hspeech] at hnone
      have hsilence := h.time.quiet hnone
      cases houtcome with
      | onset silent speech => simp [hspeech] at speech
      | waited silent noSpeech state => exact state
      | passed talking => exact absurd hsilence talking
      | expired talking => exact absurd hsilence talking
  case late =>
    intro hsilence since hsince
    obtain ⟨lastSpeechMs, hspoke, rfl⟩ := Option.mem_map.mp hsince
    rw [hspoken] at hspoke
    rw [hclock]
    cases houtcome with
    | onset silent speech state => simp [state] at hsilence
    | passed talking state => exact absurd hsilence state
    | waited silent noSpeech =>
      -- the clock of a silent gate goes on, and the last speech stays where it was
      rw [noSpeech] at hspoke
      have hlong := h.time.late silent _ (Option.mem_map_of_mem _ hspoke)
      refine hlong.trans_le (start.config.rounding.monotone (sub_le_sub_right ?_ _))
      rw [← h.time.cursor]
      exact start.config.rounding.le_add h.time.rounded (start.config.chunkMs_nonneg chunk.pcm)
    | expired talking noSpeech late =>
      rw [noSpeech] at hspoke
      rw [h.config, h.time.lastSpeech _ hspoke] at late
      exact late

/-- One chunk keeps the books. -/
theorem Audited.feed (h : Audited start chunks run) (chunk : AudioChunk) :
    Audited start (chunks ++ [chunk]) (run.feed chunk) := by
  obtain ⟨hconfig, -, -, -, hreceived⟩ :=
    VADStreamingGate.processAudio_frame h.tidy.active chunk
  obtain ⟨hall, hpending, hemitted, hsent⟩ := h.feed_audio chunk
  have hbytes : (run.feed chunk).gate.bytesReceived =
      start.bytesReceived + ((chunks ++ [chunk]).map fun chunk => chunk.pcm.length).sum := by
    change (run.gate.processAudio chunk).1.bytesReceived = _
    rw [hreceived, h.bytesReceived]
    simp [add_assoc]
  constructor
  case tidy => exact h.tidy.processAudio
  case config => exact hconfig.trans h.config
  case received => exact hall
  case pending => exact hpending
  case emitted => exact hemitted
  case bytesReceived => exact hbytes
  case bytesSent => exact hsent
  case skipped =>
    have hskipped := VADStreamingGate.processAudio_skipped h.tidy.active chunk
    have hsum := (run.feed chunk).account.sum_received fun chunk => chunk.pcm.length
    rw [hall] at hsum
    change (run.feed chunk).gate.prometheusBytesSkipped = _ at hskipped
    rw [hskipped]
    change (run.feed chunk).gate.bytesReceived - (run.feed chunk).gate.bytesSent -
      (run.feed chunk).gate.pendingBytes = _
    rw [hbytes, hsent, pendingBytes_eq hpending]
    omega
  case time => exact h.feed_time chunk

theorem feedAll_concat (run : GateRun) (chunks : List AudioChunk) (chunk : AudioChunk) :
    run.feedAll (chunks ++ [chunk]) = (run.feedAll chunks).feed chunk := by
  simp [feedAll]

/-- The books are right after any chunks. -/
theorem audited_feedAll (h : start.Opened) (chunks : List AudioChunk) :
    Audited start chunks (GateRun.feedAll { gate := start } chunks) := by
  induction chunks using List.reverseRecOn with
  | nil => exact audited_start h
  | append_singleton chunks chunk ih =>
    rw [feedAll_concat]
    exact ih.feed chunk

/-! ### Which chunks are emitted -/

theorem settled_prefix_feed (h : Audited start chunks run) (chunk : AudioChunk) :
    run.account.settled <+: (run.feed chunk).account.settled := by
  have hwaiting : run.account.settled <+: (run.waiting chunk).settled :=
    (run.account.receive chunk).settled_prefix_drop _
  rcases h.feed_cases chunk with ⟨-, haccount, -⟩ | ⟨-, haccount, -⟩
  · rw [haccount]
    exact hwaiting.trans (run.waiting chunk).settled_prefix_deliver
  · rw [haccount]
    exact hwaiting

/-- What is settled stays settled. -/
theorem settled_prefix_feedAll (h : Audited start chunks run) (more : List AudioChunk) :
    run.account.settled <+: (run.feedAll more).account.settled := by
  induction more generalizing run chunks with
  | nil => exact List.prefix_rfl
  | cons chunk more ih => exact (settled_prefix_feed h chunk).trans (ih (h.feed chunk))

/-- A chunk after which nothing waits is emitted with all that was retained before it. -/
theorem settled_of_delivered (h : Audited start chunks run)
    (hnil : (run.feed chunk).gate.preRoll = []) :
    ∃ (earlier : List (Bool × AudioChunk)) (block : List AudioChunk),
      block.map AudioChunk.pcm ++ [chunk.pcm] = (run.gate.retained chunk.pcm).1 ∧
      earlier.length + block.length = chunks.length ∧
      (run.feed chunk).account.settled =
        earlier ++ block.map (Prod.mk true) ++ [(true, chunk)] := by
  have hretained := h.pending_waiting chunk
  obtain ⟨-, hne, -⟩ := run.gate.retained_spec chunk.pcm
  have haccount : (run.feed chunk).account = (run.waiting chunk).deliver := by
    rcases h.feed_cases chunk with ⟨-, haccount, -⟩ | ⟨hkept, -⟩
    · exact haccount
    · exact absurd (hkept.symm.trans hnil) hne
  have hpending : (run.waiting chunk).pending ≠ [] := by
    intro hempty
    rw [hempty] at hretained
    exact hne hretained.symm
  obtain ⟨block, last, hblock⟩ : ∃ block last, (run.waiting chunk).pending = block ++ [last] :=
    ⟨_, _, (List.dropLast_append_getLast hpending).symm⟩
  have hreceived := received_waiting h chunk
  unfold Settlement.received at hreceived
  rw [hblock, ← List.append_assoc] at hreceived
  obtain ⟨hchunks, hlast⟩ := List.append_inj' hreceived rfl
  obtain rfl : last = chunk := List.singleton_injective hlast
  refine ⟨(run.waiting last).settled, block, ?_, ?_, ?_⟩
  · rw [← hretained, hblock, List.map_append, List.map_singleton]
  · rw [← hchunks]
    simp
  · rw [haccount]
    simp [Settlement.deliver, hblock]

/-- A chunk judged speech leaves nothing waiting. -/
theorem preRoll_of_speech (h : Audited start chunks run) (hspeech : chunk.isSpeech = true) :
    (run.feed chunk).gate.preRoll = [] := by
  have houtcome := VADStreamingGate.processAudio_outcome h.tidy.active chunk
  change (run.gate.processAudio chunk).1.preRoll = []
  generalize (run.gate.processAudio chunk).2.audioToSend = audio at houtcome
  cases houtcome with
  | onset silent speech state preRoll => exact preRoll
  | waited silent noSpeech => simp [hspeech] at noSpeech
  | passed talking state preRoll => exact preRoll.trans (h.tidy.idle talking)
  | expired talking noSpeech => simp [hspeech] at noSpeech

/-- A chunk inside the hangover window leaves nothing waiting. -/
theorem preRoll_of_hangover (h : Audited start chunks run)
    (hhangover : InHangover start chunks chunk) :
    (run.feed chunk).gate.preRoll = [] := by
  cases hspeech : chunk.isSpeech with
  | true => exact preRoll_of_speech h hspeech
  | false =>
    obtain ⟨since, hsince, hle⟩ := hhangover
    have hnotSilent : (run.feed chunk).gate.state ≠ .silence := fun hsilence =>
      absurd ((h.feed_time chunk).late hsilence since hsince) (not_lt.2 hle)
    exact (h.feed chunk).tidy.idle hnotSilent

end GateRun

/-- A gate fed the chunks. -/
def fed (start : VADStreamingGate) (chunks : List AudioChunk) : GateRun :=
  GateRun.feedAll { gate := start } chunks

theorem fed_append (start : VADStreamingGate) (chunks more : List AudioChunk) :
    fed start (chunks ++ more) = (fed start chunks).feedAll more := by
  simp [fed, GateRun.feedAll]

/-- The conservation laws of a gate after it was fed the chunks. -/
structure AudioConserved (start : VADStreamingGate) (chunks : List AudioChunk) : Prop where
  /-- What the gate has put out are chunks it received, in order and none of them twice. -/
  inOrder : (fed start chunks).account.received = chunks ∧
    List.Sublist (fed start chunks).account.delivered chunks ∧
    (fed start chunks).emitted = (fed start chunks).account.delivered.flatMap AudioChunk.pcm
  emits : ∀ before chunk after, chunks = before ++ chunk :: after →
    chunk.isSpeech = true ∨ InHangover start before chunk →
    (fed start chunks).account.settled[before.length]? = some (true, chunk)
  /-- The chunks of the retained pre-roll end with the onset's own, and all are emitted. -/
  emitsPreRoll : ∀ before chunk after, chunks = before ++ chunk :: after →
    (fed start before).gate.state = .silence → chunk.isSpeech = true →
    ∃ (earlier : List (Bool × AudioChunk)) (block : List AudioChunk)
      (later : List (Bool × AudioChunk)),
      block.map AudioChunk.pcm = ((fed start before).gate.retained chunk.pcm).1 ∧
      earlier.length + block.length = before.length + 1 ∧
      (fed start chunks).account.settled = earlier ++ block.map (Prod.mk true) ++ later
  balanced : (fed start chunks).gate.bytesReceived = (fed start chunks).gate.bytesSent +
    (fed start chunks).gate.pendingBytes + (fed start chunks).gate.prometheusBytesSkipped
  sent : (fed start chunks).gate.bytesSent = start.bytesSent + (fed start chunks).emitted.length
  skippedOnlyGrows : ∀ chunk, (fed start chunks).gate.prometheusBytesSkipped ≤
    (fed start (chunks ++ [chunk])).gate.prometheusBytesSkipped
  preRollBounded : (fed start chunks).gate.preRollTotalMs ≤ vadGatePreRollMs ∨
    (fed start chunks).gate.preRoll.length ≤ 1
  /-- Over exact arithmetic the total is the length of what waits. -/
  preRollTotal : start.config.rounding = .exact → (fed start chunks).gate.preRollTotalMs =
    ((fed start chunks).gate.preRoll.map start.config.durationMs).sum

namespace VADStreamingGate

/-- Shadow mode sends everything and holds nothing back. -/
structure Shadowing (gate : VADStreamingGate) : Prop where
  shadow : gate.mode = .shadow
  preRoll : gate.preRoll = []
  bytesSent : gate.bytesSent = gate.bytesReceived
  skipped : gate.prometheusBytesSkipped = 0
  rounded : gate.config.rounding gate.audioCursorMs = gate.audioCursorMs
  mapper : gate.dgWallMapper.rounding = gate.config.rounding
  checkpoints : gate.dgWallMapper.checkpoints = []

theorem Shadowing.processAudio {gate : VADStreamingGate} (h : gate.Shadowing)
    (chunk : AudioChunk) : (gate.processAudio chunk).1.Shadowing := by
  have hnext : (gate.processAudio chunk).1 =
      ((gate.receive chunk).passThrough chunk).1.recordPrometheusAudio := by
    simp only [VADStreamingGate.processAudio, h.shadow]
  rw [hnext]
  refine ⟨h.shadow, h.preRoll, ?_, ?_, ?_, h.mapper, h.checkpoints⟩
  · simp [recordPrometheusAudio, passThrough, receive, h.bytesSent]
  · simp [recordPrometheusAudio, passThrough, receive, h.bytesSent]
  · exact gate.config.rounding.idempotent _

theorem opened_opened (config : GateConfig) (shadowed : Option (List AudioChunk)) :
    (opened config shadowed).Opened := by
  cases shadowed with
  | none => exact ⟨rfl, rfl, rfl, rfl, rfl, rfl, config.rounding.zero, rfl, rfl⟩
  | some shadowed =>
    have hshadow : ∀ gate : VADStreamingGate, gate.Shadowing →
        (shadowed.foldl (fun gate chunk => (gate.processAudio chunk).1) gate).Shadowing := by
      induction shadowed with
      | nil => exact fun gate h => h
      | cons chunk rest ih => exact fun gate h => ih _ (h.processAudio chunk)
    have hrun := hshadow { config := config, mode := .shadow }
      ⟨rfl, rfl, rfl, rfl, config.rounding.zero, rfl, rfl⟩
    simp only [opened, activate, hrun.shadow, if_true]
    exact ⟨rfl, rfl, rfl, rfl, hrun.bytesSent, hrun.skipped, hrun.rounded, hrun.mapper,
      hrun.checkpoints⟩

end VADStreamingGate

section Laws
variable {start : VADStreamingGate}

/-- What was settled when a chunk had been fed is settled at the end. -/
theorem settled_at_end (h : start.Opened) (before after : List AudioChunk) (chunk : AudioChunk) :
    ((fed start before).feed chunk).account.settled <+:
      (fed start (before ++ chunk :: after)).account.settled := by
  have hfed : fed start (before ++ chunk :: after) =
      ((fed start before).feed chunk).feedAll after := by
    rw [fed_append]
    rfl
  rw [hfed]
  exact GateRun.settled_prefix_feedAll ((GateRun.audited_feedAll h before).feed chunk) after

theorem fed_emits (h : start.Opened) {before after : List AudioChunk} {chunk : AudioChunk}
    (hchunk : chunk.isSpeech = true ∨ InHangover start before chunk) :
    (fed start (before ++ chunk :: after)).account.settled[before.length]? =
      some (true, chunk) := by
  have haudited := GateRun.audited_feedAll h before
  have hnil : ((fed start before).feed chunk).gate.preRoll = [] := by
    rcases hchunk with hspeech | hhangover
    · exact GateRun.preRoll_of_speech haudited hspeech
    · exact GateRun.preRoll_of_hangover haudited hhangover
  obtain ⟨earlier, block, -, hlength, hsettled⟩ := GateRun.settled_of_delivered haudited hnil
  obtain ⟨later, hlater⟩ := settled_at_end h before after chunk
  rw [← hlater]
  have hplace : ((fed start before).feed chunk).account.settled =
      earlier ++ block.map (Prod.mk true) ++ [(true, chunk)] := hsettled
  rw [hplace, List.append_assoc, List.getElem?_append_right (by simp [← hlength])]
  simp [← hlength]

theorem fed_emitsPreRoll (h : start.Opened) {before after : List AudioChunk}
    {chunk : AudioChunk} (hspeech : chunk.isSpeech = true) :
    ∃ (earlier : List (Bool × AudioChunk)) (block : List AudioChunk)
      (later : List (Bool × AudioChunk)),
      block.map AudioChunk.pcm = ((fed start before).gate.retained chunk.pcm).1 ∧
      earlier.length + block.length = before.length + 1 ∧
      (fed start (before ++ chunk :: after)).account.settled =
        earlier ++ block.map (Prod.mk true) ++ later := by
  have haudited := GateRun.audited_feedAll h before
  obtain ⟨earlier, block, hretained, hlength, hsettled⟩ :=
    GateRun.settled_of_delivered haudited (GateRun.preRoll_of_speech haudited hspeech)
  obtain ⟨later, hlater⟩ := settled_at_end h before after chunk
  refine ⟨earlier, block ++ [chunk], later, ?_, ?_, ?_⟩
  · rw [List.map_append, List.map_singleton]
    exact hretained
  · rw [List.length_append, List.length_singleton]
    omega
  · rw [← hlater]
    change ((fed start before).feed chunk).account.settled = _ at hsettled
    rw [hsettled]
    simp

theorem fed_balanced (h : start.Opened) (chunks : List AudioChunk) :
    (fed start chunks).gate.bytesReceived = (fed start chunks).gate.bytesSent +
      (fed start chunks).gate.pendingBytes + (fed start chunks).gate.prometheusBytesSkipped := by
  have haudited : GateRun.Audited start chunks (fed start chunks) :=
    GateRun.audited_feedAll h chunks
  have hsum := (fed start chunks).account.sum_received fun chunk => chunk.pcm.length
  rw [haudited.received] at hsum
  rw [haudited.bytesReceived, haudited.bytesSent, haudited.skipped,
    GateRun.pendingBytes_eq haudited.pending]
  omega

/-- The dropped audio is a part of what is settled, which only grows. -/
theorem fed_skipped_le (h : start.Opened) (chunks : List AudioChunk) (chunk : AudioChunk) :
    (fed start chunks).gate.prometheusBytesSkipped ≤
      (fed start (chunks ++ [chunk])).gate.prometheusBytesSkipped := by
  have haudited : GateRun.Audited start chunks (fed start chunks) :=
    GateRun.audited_feedAll h chunks
  have hnext : GateRun.Audited start (chunks ++ [chunk]) (fed start (chunks ++ [chunk])) :=
    GateRun.audited_feedAll h (chunks ++ [chunk])
  rw [haudited.skipped, hnext.skipped]
  have hfed : fed start (chunks ++ [chunk]) = (fed start chunks).feed chunk :=
    GateRun.feedAll_concat _ chunks chunk
  have hfront := GateRun.settled_prefix_feed haudited chunk
  rw [← hfed] at hfront
  have hdropped : List.Sublist (fed start chunks).account.dropped
      (fed start (chunks ++ [chunk])).account.dropped :=
    (hfront.sublist.filter _).map Prod.snd
  exact (hdropped.map _).sum_le_sum fun _ _ => Nat.zero_le _

end Laws

/-- A gate in active mode conserves the audio it is fed, whatever the chunks and the decisions
on them. -/
theorem audioConserved (config : GateConfig) (shadowed : Option (List AudioChunk))
    (chunks : List AudioChunk) :
    AudioConserved (VADStreamingGate.opened config shadowed) chunks := by
  have h := VADStreamingGate.opened_opened config shadowed
  have haudited : GateRun.Audited _ chunks (fed _ chunks) := GateRun.audited_feedAll h chunks
  have hdelivered := (fed (VADStreamingGate.opened config shadowed) chunks).account
    |>.delivered_sublist_received
  constructor
  case inOrder =>
    rw [haudited.received] at hdelivered
    exact ⟨haudited.received, hdelivered, haudited.emitted⟩
  case emits =>
    rintro before chunk after rfl hchunk
    exact fed_emits h hchunk
  case emitsPreRoll =>
    rintro before chunk after rfl - hspeech
    exact fed_emitsPreRoll h hspeech
  case balanced => exact fed_balanced h chunks
  case sent =>
    rw [haudited.bytesSent, haudited.emitted, h.bytesSent, List.length_flatMap]
  case skippedOnlyGrows => exact fed_skipped_le h chunks
  case preRollBounded => exact haudited.tidy.bounded
  case preRollTotal =>
    intro hexact
    rw [← haudited.config] at hexact ⊢
    exact haudited.tidy.total hexact

/-! ### The mapper of a gate -/

/-- One chunk makes at most one call on the mapper, of a non-negative length. -/
theorem VADStreamingGate.processAudio_mapper {gate : VADStreamingGate} (chunk : AudioChunk)
    (h : gate.mode = .active) :
    ∃ call : MapperCall, 0 ≤ call.durationSec ∧
      (gate.processAudio chunk).1.dgWallMapper = gate.dgWallMapper.call call := by
  have hduration : ∀ audio, 0 ≤ gate.config.durationSec audio := fun audio =>
    gate.config.rounding.nonneg (by positivity)
  rw [processAudio_active h]
  unfold updateState
  have hstate : (gate.receive chunk).state = gate.state := rfl
  rw [hstate]
  cases gate.state with
  | silence =>
    unfold updateSilence
    cases chunk.isSpeech with
    | true => exact ⟨.audioSent _ _, hduration _, rfl⟩
    | false => exact ⟨.silenceSkipped, le_rfl, rfl⟩
  | speech =>
    unfold updateSpeech
    cases chunk.isSpeech with
    | true => exact ⟨.audioSent _ _, hduration _, rfl⟩
    | false => exact ⟨.audioSent _ _, hduration _, rfl⟩
  | hangover =>
    unfold updateHangover
    cases chunk.isSpeech with
    | true => exact ⟨.audioSent _ _, hduration _, rfl⟩
    | false =>
      by_cases hlate : vadGateHangoverMs < (gate.receive chunk).config.rounding
          ((gate.receive chunk).audioCursorMs - (gate.receive chunk).lastSpeechMs)
      · simp only [Bool.false_eq_true, if_false, hlate, if_true]
        exact ⟨.silenceSkipped, le_rfl, rfl⟩
      · simp only [Bool.false_eq_true, if_false, hlate]
        exact ⟨.audioSent _ _, hduration _, rfl⟩

/-- Over exact arithmetic the mapper of every gate run is coherent. -/
theorem fed_coherent {start : VADStreamingGate} (h : start.Opened)
    (hexact : start.config.rounding = .exact) (chunks : List AudioChunk) :
    (fed start chunks).gate.dgWallMapper.Coherent := by
  induction chunks using List.reverseRecOn with
  | nil => exact .of_checkpoints_nil (h.mapper.trans hexact) h.checkpoints
  | append_singleton chunks chunk ih =>
    have haudited := GateRun.audited_feedAll h chunks
    obtain ⟨call, hduration, hmapper⟩ :=
      VADStreamingGate.processAudio_mapper chunk haudited.tidy.active
    have hfed : (fed start (chunks ++ [chunk])).gate =
        ((fed start chunks).gate.processAudio chunk).1 := by
      rw [fed, GateRun.feedAll_concat]
      rfl
    rw [hfed]
    have hnext := ih.call hduration
    unfold fed at hnext ⊢
    rw [hmapper]
    exact hnext

/-- Transcript times that never run backwards still do not once the gate has remapped them. -/
theorem remapSegments_inOrder {start : VADStreamingGate} (h : start.Opened)
    (hexact : start.config.rounding = .exact) (chunks : List AudioChunk)
    {segments : List SegmentTimes} (hsegments : InOrder segments) :
    InOrder ((fed start chunks).gate.remapSegments segments) := by
  unfold VADStreamingGate.remapSegments
  split_ifs
  · exact (fed_coherent h hexact chunks).remap_inOrder hsegments
  · exact hsegments

end Omi.Vad
