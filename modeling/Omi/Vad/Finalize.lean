import Omi.Vad.Conservation

/-! When the gate asks the provider to finalize, and the socket that passes it on
(`GatedSTTSocket`). -/
namespace Omi.Vad

/-! ### The socket -/

inductive ProviderCall where
  | send (audio : Pcm)
  | finalize
  deriving DecidableEq, Repr

/-- What happens to one send: the connection is dead, the gate raises, the connection accepts the
audio, its finalize raises. -/
structure SendEvents where
  connectionDead : Bool := false
  gateRaises : Bool := false
  accepts : Bool := true
  finalizeRaises : Bool := false
  deriving DecidableEq, Repr

structure GatedSTTSocket where
  gate : Option VADStreamingGate := none
  passthroughAudio : Bool := false
  /-- The gate's counter of finalizes that raised. -/
  finalizeErrors : ℕ := 0

/-- The audio of a chunk that goes to the provider, where any does. -/
def GatedSTTSocket.providerAudio (socket : GatedSTTSocket) (data : Pcm) (output : GateOutput) :
    List ProviderCall :=
  if socket.passthroughAudio then [.send data]
  else if output.audioToSend ≠ [] then [.send output.audioToSend]
  else []

/-- Send audio through the gate: the calls made on the provider, and whether it was accepted. A
gate that raises is given up for the rest of the session. -/
def GatedSTTSocket.send (socket : GatedSTTSocket) (chunk : AudioChunk) (events : SendEvents) :
    GatedSTTSocket × List ProviderCall × Bool :=
  if events.connectionDead then (socket, [], false)
  else
    match socket.gate with
    | none => (socket, [.send chunk.pcm], events.accepts)
    | some gate =>
      if events.gateRaises then ({ socket with gate := none }, [.send chunk.pcm], events.accepts)
      else
        let (next, output) := gate.processAudio chunk
        let calls := socket.providerAudio chunk.pcm output
        -- silence that is filtered counts as accepted
        let accepted := if calls = [] then true else events.accepts
        if output.shouldFinalize then
          if events.finalizeRaises then
            ({ socket with gate := some next, finalizeErrors := socket.finalizeErrors + 1 },
              calls ++ [.finalize], false)
          else ({ socket with gate := some next }, calls ++ [.finalize], accepted)
        else ({ socket with gate := some next }, calls, accepted)

/-! ### One chunk -/

/-- A gate fed `before` asks for a finalize on the chunk. -/
def AsksFinalize (start : VADStreamingGate) (before : List AudioChunk) (chunk : AudioChunk) :
    Prop :=
  ((fed start before).gate.processAudio chunk).2.shouldFinalize = true

instance (start : VADStreamingGate) (before : List AudioChunk) (chunk : AudioChunk) :
    Decidable (AsksFinalize start before chunk) :=
  inferInstanceAs (Decidable (_ = true))

/-- The socket finalizes on a chunk if and only if its gate asks for it. -/
theorem GatedSTTSocket.send_finalizes {socket : GatedSTTSocket} {gate : VADStreamingGate}
    (hgate : socket.gate = some gate) (chunk : AudioChunk) {events : SendEvents}
    (halive : events.connectionDead = false) (hraises : events.gateRaises = false) :
    .finalize ∈ (socket.send chunk events).2.1 ↔
      (gate.processAudio chunk).2.shouldFinalize = true := by
  have haudio : .finalize ∉ socket.providerAudio chunk.pcm (gate.processAudio chunk).2 := by
    unfold providerAudio
    split_ifs <;> simp
  simp only [send, halive, hraises, hgate, Bool.false_eq_true, if_false]
  cases hask : (gate.processAudio chunk).2.shouldFinalize with
  | true =>
    simp only [if_true]
    split_ifs <;> simp
  | false => simpa using haudio

namespace VADStreamingGate
variable {gate : VADStreamingGate}

/-- The silence since the last speech, when the chunk has been received. -/
def silenceMs (gate : VADStreamingGate) (chunk : AudioChunk) : ℚ :=
  gate.config.rounding
    (gate.config.rounding (gate.audioCursorMs + gate.config.chunkMs chunk.pcm) - gate.lastSpeechMs)

/-- A gate asks on a chunk of the hangover, once the silence is long enough, unless it did so
before in this hangover. -/
theorem shouldFinalize_iff (h : gate.mode = .active) (chunk : AudioChunk) :
    (gate.processAudio chunk).2.shouldFinalize = true ↔
      gate.state = .hangover ∧ chunk.isSpeech = false ∧ gate.hangoverFinalized = false ∧
        vadGateFinalizeSilenceMs ≤ gate.silenceMs chunk := by
  rw [processAudio_active h]
  unfold updateState
  have hstate : (gate.receive chunk).state = gate.state := rfl
  rw [hstate]
  cases hgate : gate.state with
  | silence =>
    unfold updateSilence
    cases chunk.isSpeech <;> simp
  | speech =>
    unfold updateSpeech
    simp
  | hangover =>
    unfold updateHangover
    cases hspeech : chunk.isSpeech with
    | true => simp
    | false =>
      have hlast : (gate.receive chunk).lastSpeechMs = gate.lastSpeechMs := by
        simp [receive, hspeech]
      have hsilence : (gate.receive chunk).config.rounding
          ((gate.receive chunk).audioCursorMs - (gate.receive chunk).lastSpeechMs) =
            gate.silenceMs chunk := by
        rw [hlast]
        rfl
      have hfinalized : (gate.receive chunk).hangoverFinalized = gate.hangoverFinalized := rfl
      simp only [hsilence, Bool.false_eq_true, if_false]
      by_cases hlate : vadGateHangoverMs < gate.silenceMs chunk
      · -- the hangover is longer than the silence that is asked for
        have hlong : vadGateFinalizeSilenceMs ≤ gate.silenceMs chunk :=
          le_trans (by decide +kernel) hlate.le
        simp [hlate, hlong, endHangover, hfinalized]
      · simp [hlate, hfinalized]

/-- What becomes of the state, and of the mark that a finalize was asked for in the hangover. -/
theorem processAudio_state (h : gate.mode = .active) (chunk : AudioChunk) :
    ((gate.processAudio chunk).1.state, (gate.processAudio chunk).1.hangoverFinalized) =
      if chunk.isSpeech then
        (.speech, gate.hangoverFinalized && !decide (gate.state = .hangover))
      else match gate.state with
        | .silence => (.silence, gate.hangoverFinalized)
        | .speech => (.hangover, false)
        | .hangover =>
          if vadGateHangoverMs < gate.silenceMs chunk then (.silence, false)
          else (.hangover,
            gate.hangoverFinalized || (gate.processAudio chunk).2.shouldFinalize) := by
  rw [processAudio_active h]
  unfold updateState
  have hstate : (gate.receive chunk).state = gate.state := rfl
  rw [hstate]
  cases hgate : gate.state with
  | silence =>
    unfold updateSilence
    cases hspeech : chunk.isSpeech with
    | true => simp [recordPrometheusAudio, send, receive]
    | false => simp [recordPrometheusAudio, skip, receive, hgate]
  | speech =>
    unfold updateSpeech
    cases hspeech : chunk.isSpeech with
    | true => simp [recordPrometheusAudio, send, receive, hgate]
    | false => simp [recordPrometheusAudio]
  | hangover =>
    unfold updateHangover
    cases hspeech : chunk.isSpeech with
    | true => simp [recordPrometheusAudio]
    | false =>
      have hsilence : (gate.receive chunk).config.rounding
          ((gate.receive chunk).audioCursorMs - (gate.receive chunk).lastSpeechMs) =
            gate.silenceMs chunk := by
        simp [receive, hspeech, silenceMs]
      simp only [hsilence, Bool.false_eq_true, if_false]
      by_cases hlate : vadGateHangoverMs < gate.silenceMs chunk
      · simp [hlate, endHangover, recordPrometheusAudio]
      · simp [hlate, recordPrometheusAudio, send, receive, hgate]

end VADStreamingGate

/-! ### Runs -/

/-- The finalizes asked for since the last chunk judged speech. -/
def requestsSinceSpeech (start : VADStreamingGate) (chunks : List AudioChunk) : ℕ :=
  ((chunks.zip (fed start chunks).outputs).reverse.takeWhile fun fedChunk =>
    !fedChunk.1.isSpeech).countP fun fedChunk => fedChunk.2.shouldFinalize

theorem fed_concat (start : VADStreamingGate) (chunks : List AudioChunk) (chunk : AudioChunk) :
    fed start (chunks ++ [chunk]) = (fed start chunks).feed chunk :=
  GateRun.feedAll_concat _ chunks chunk

theorem length_outputs (start : VADStreamingGate) (chunks : List AudioChunk) :
    (fed start chunks).outputs.length = chunks.length := by
  induction chunks using List.reverseRecOn with
  | nil => rfl
  | append_singleton chunks chunk ih =>
    rw [fed_concat]
    simpa [GateRun.feed] using ih

theorem requestsSinceSpeech_concat (start : VADStreamingGate) (chunks : List AudioChunk)
    (chunk : AudioChunk) :
    requestsSinceSpeech start (chunks ++ [chunk]) =
      if chunk.isSpeech then 0
      else requestsSinceSpeech start chunks +
        if AsksFinalize start chunks chunk then 1 else 0 := by
  have houtputs : (fed start (chunks ++ [chunk])).outputs = (fed start chunks).outputs ++
      [((fed start chunks).gate.processAudio chunk).2] := by
    rw [fed_concat]
    rfl
  unfold requestsSinceSpeech
  rw [houtputs, List.zip_append (length_outputs start chunks).symm]
  simp only [List.zip_cons_cons, List.zip_nil_right, List.reverse_append, List.reverse_singleton,
    List.singleton_append, List.takeWhile_cons]
  cases chunk.isSpeech with
  | true => rfl
  | false =>
    simp only [Bool.not_false, Bool.false_eq_true, if_true, if_false, List.countP_cons]
    rfl

/-- What a gate knows about the finalizes it asked for since the last speech. -/
structure FinalizeMarks (start : VADStreamingGate) (chunks : List AudioChunk) : Prop where
  speech : (fed start chunks).gate.state = .speech → requestsSinceSpeech start chunks = 0
  hangover : (fed start chunks).gate.state = .hangover → requestsSinceSpeech start chunks =
    if (fed start chunks).gate.hangoverFinalized then 1 else 0
  silence : (fed start chunks).gate.state = .silence → requestsSinceSpeech start chunks =
    if (sinceSpeechMs start chunks).isSome then 1 else 0

section
variable {start : VADStreamingGate} {chunks : List AudioChunk}

theorem FinalizeMarks.of_speech (hstate : (fed start chunks).gate.state = .speech)
    (hcount : requestsSinceSpeech start chunks = 0) : FinalizeMarks start chunks := by
  refine ⟨fun _ => hcount, fun hhangover => ?_, fun hsilence => ?_⟩
  · exact absurd (hstate.symm.trans hhangover) nofun
  · exact absurd (hstate.symm.trans hsilence) nofun

theorem FinalizeMarks.of_hangover (hstate : (fed start chunks).gate.state = .hangover)
    (hcount : requestsSinceSpeech start chunks =
      if (fed start chunks).gate.hangoverFinalized then 1 else 0) :
    FinalizeMarks start chunks := by
  refine ⟨fun hspeech => ?_, fun _ => hcount, fun hsilence => ?_⟩
  · exact absurd (hstate.symm.trans hspeech) nofun
  · exact absurd (hstate.symm.trans hsilence) nofun

theorem FinalizeMarks.of_silence (hstate : (fed start chunks).gate.state = .silence)
    (hcount : requestsSinceSpeech start chunks =
      if (sinceSpeechMs start chunks).isSome then 1 else 0) :
    FinalizeMarks start chunks := by
  refine ⟨fun hspeech => ?_, fun hhangover => ?_, fun _ => hcount⟩
  · exact absurd (hstate.symm.trans hspeech) nofun
  · exact absurd (hstate.symm.trans hhangover) nofun

end

variable {start : VADStreamingGate}

/-- In the hangover the silence is the audio time since the last speech. -/
theorem silenceMs_eq (h : start.Opened) {chunks : List AudioChunk} {chunk : AudioChunk}
    (hspeech : chunk.isSpeech = false) (htalking : (fed start chunks).gate.state ≠ .silence) :
    sinceSpeechMs start (chunks ++ [chunk]) =
      some ((fed start chunks).gate.silenceMs chunk) := by
  have haudited : GateRun.Audited start chunks (fed start chunks) :=
    GateRun.audited_feedAll h chunks
  obtain ⟨lastSpeechMs, hspoke⟩ : ∃ lastSpeechMs,
      (speechClock start chunks).lastSpeechMs = some lastSpeechMs := by
    cases hcases : (speechClock start chunks).lastSpeechMs with
    | none => exact absurd (haudited.time.quiet hcases) htalking
    | some lastSpeechMs => exact ⟨lastSpeechMs, rfl⟩
  have hlast := haudited.time.lastSpeech lastSpeechMs hspoke
  simp only [sinceSpeechMs, speechClock_concat, SpeechClock.advance, hspeech, hspoke,
    Bool.false_eq_true, if_false, Option.map_some, VADStreamingGate.silenceMs, haudited.config,
    hlast, haudited.time.cursor]

/-- A chunk without speech leaves it as it was whether there was speech. -/
theorem isSome_sinceSpeechMs {chunks : List AudioChunk} {chunk : AudioChunk}
    (hspeech : chunk.isSpeech = false) :
    (sinceSpeechMs start (chunks ++ [chunk])).isSome = (sinceSpeechMs start chunks).isSome := by
  simp only [sinceSpeechMs, speechClock_concat, SpeechClock.advance, hspeech, Bool.false_eq_true,
    if_false, Option.isSome_map]

section
variable {chunks : List AudioChunk} {chunk : AudioChunk}

theorem fed_active (h : start.Opened) (chunks : List AudioChunk) :
    (fed start chunks).gate.mode = .active :=
  (GateRun.audited_feedAll h chunks).tidy.active

theorem asksFinalize_iff (h : start.Opened) : AsksFinalize start chunks chunk ↔
    (fed start chunks).gate.state = .hangover ∧ chunk.isSpeech = false ∧
      (fed start chunks).gate.hangoverFinalized = false ∧
        vadGateFinalizeSilenceMs ≤ (fed start chunks).gate.silenceMs chunk :=
  VADStreamingGate.shouldFinalize_iff (fed_active h chunks) chunk

theorem gate_fed_concat : (fed start (chunks ++ [chunk])).gate =
    ((fed start chunks).gate.processAudio chunk).1 := by
  rw [fed_concat]
  rfl

/-- Outside a hangover no finalize is asked for. -/
theorem requestsSinceSpeech_outside (h : start.Opened) (hspeech : chunk.isSpeech = false)
    (hbefore : (fed start chunks).gate.state ≠ .hangover) :
    requestsSinceSpeech start (chunks ++ [chunk]) = requestsSinceSpeech start chunks := by
  have hnone : ¬ AsksFinalize start chunks chunk := by
    rw [asksFinalize_iff h]
    rintro ⟨hhangover, -⟩
    exact hbefore hhangover
  rw [requestsSinceSpeech_concat, hspeech, if_neg Bool.false_ne_true, if_neg hnone, add_zero]

theorem FinalizeMarks.feed_speech (h : start.Opened) (hspeech : chunk.isSpeech = true) :
    FinalizeMarks start (chunks ++ [chunk]) := by
  have hstep := VADStreamingGate.processAudio_state (fed_active h chunks) chunk
  rw [hspeech, if_pos rfl, ← gate_fed_concat] at hstep
  have hrequests := requestsSinceSpeech_concat start chunks chunk
  rw [hspeech, if_pos rfl] at hrequests
  exact .of_speech (congrArg Prod.fst hstep) hrequests

theorem FinalizeMarks.feed_silence (h : start.Opened) (hmarks : FinalizeMarks start chunks)
    (hspeech : chunk.isSpeech = false) (hbefore : (fed start chunks).gate.state = .silence) :
    FinalizeMarks start (chunks ++ [chunk]) := by
  have hstep := VADStreamingGate.processAudio_state (fed_active h chunks) chunk
  rw [hspeech, if_neg Bool.false_ne_true, ← gate_fed_concat, hbefore] at hstep
  refine .of_silence (congrArg Prod.fst hstep) ?_
  have houtside : (fed start chunks).gate.state ≠ .hangover := by
    rw [hbefore]
    nofun
  rw [requestsSinceSpeech_outside h hspeech houtside, hmarks.silence hbefore,
    isSome_sinceSpeechMs hspeech]

/-- The chunk that begins a hangover. -/
theorem FinalizeMarks.feed_begins (h : start.Opened) (hmarks : FinalizeMarks start chunks)
    (hspeech : chunk.isSpeech = false) (hbefore : (fed start chunks).gate.state = .speech) :
    FinalizeMarks start (chunks ++ [chunk]) := by
  have hstep := VADStreamingGate.processAudio_state (fed_active h chunks) chunk
  rw [hspeech, if_neg Bool.false_ne_true, ← gate_fed_concat, hbefore] at hstep
  have hfinalized : (fed start (chunks ++ [chunk])).gate.hangoverFinalized = false :=
    congrArg Prod.snd hstep
  refine .of_hangover (congrArg Prod.fst hstep) ?_
  have houtside : (fed start chunks).gate.state ≠ .hangover := by
    rw [hbefore]
    nofun
  rw [requestsSinceSpeech_outside h hspeech houtside, hmarks.speech hbefore, hfinalized,
    if_neg Bool.false_ne_true]

/-- When the hangover ends, the finalize was asked for before or is asked for now. -/
theorem FinalizeMarks.feed_expires (h : start.Opened) (hmarks : FinalizeMarks start chunks)
    (hspeech : chunk.isSpeech = false) (hbefore : (fed start chunks).gate.state = .hangover)
    (hlate : vadGateHangoverMs < (fed start chunks).gate.silenceMs chunk) :
    FinalizeMarks start (chunks ++ [chunk]) := by
  have hstep := VADStreamingGate.processAudio_state (fed_active h chunks) chunk
  rw [hspeech, if_neg Bool.false_ne_true, ← gate_fed_concat, hbefore] at hstep
  simp only [if_pos hlate] at hstep
  have htalking : (fed start chunks).gate.state ≠ .silence := by
    rw [hbefore]
    nofun
  have hlong : vadGateFinalizeSilenceMs ≤ (fed start chunks).gate.silenceMs chunk :=
    le_trans (by decide +kernel) hlate.le
  have hnow : AsksFinalize start chunks chunk ↔
      (fed start chunks).gate.hangoverFinalized = false := by
    rw [asksFinalize_iff h]
    exact ⟨fun hask => hask.2.2.1, fun hnot => ⟨hbefore, hspeech, hnot, hlong⟩⟩
  refine .of_silence (congrArg Prod.fst hstep) ?_
  rw [requestsSinceSpeech_concat, hspeech, if_neg Bool.false_ne_true, hmarks.hangover hbefore,
    silenceMs_eq h hspeech htalking, Option.isSome_some, if_pos rfl]
  cases hfinalized : (fed start chunks).gate.hangoverFinalized with
  | true => simp [hnow, hfinalized]
  | false => simp [hnow, hfinalized]

theorem FinalizeMarks.feed_goesOn (h : start.Opened) (hmarks : FinalizeMarks start chunks)
    (hspeech : chunk.isSpeech = false) (hbefore : (fed start chunks).gate.state = .hangover)
    (hlate : ¬ vadGateHangoverMs < (fed start chunks).gate.silenceMs chunk) :
    FinalizeMarks start (chunks ++ [chunk]) := by
  have hstep := VADStreamingGate.processAudio_state (fed_active h chunks) chunk
  rw [hspeech, if_neg Bool.false_ne_true, ← gate_fed_concat, hbefore] at hstep
  simp only [if_neg hlate] at hstep
  have hfinalized : (fed start (chunks ++ [chunk])).gate.hangoverFinalized =
      ((fed start chunks).gate.hangoverFinalized ||
        ((fed start chunks).gate.processAudio chunk).2.shouldFinalize) :=
    congrArg Prod.snd hstep
  refine .of_hangover (congrArg Prod.fst hstep) ?_
  rw [requestsSinceSpeech_concat, hspeech, if_neg Bool.false_ne_true, hmarks.hangover hbefore,
    hfinalized]
  cases hasked : (fed start chunks).gate.hangoverFinalized with
  | true =>
    have hnone : ¬ AsksFinalize start chunks chunk := by
      rw [asksFinalize_iff h, hasked]
      rintro ⟨-, -, hnot, -⟩
      cases hnot
    simp [hnone]
  | false =>
    rw [if_neg Bool.false_ne_true, zero_add, Bool.false_or]
    rfl

/-- One chunk keeps the marks. -/
theorem FinalizeMarks.feed (h : start.Opened) (hmarks : FinalizeMarks start chunks)
    (chunk : AudioChunk) : FinalizeMarks start (chunks ++ [chunk]) := by
  cases hspeech : chunk.isSpeech with
  | true => exact .feed_speech h hspeech
  | false =>
    cases hbefore : (fed start chunks).gate.state with
    | silence => exact hmarks.feed_silence h hspeech hbefore
    | speech => exact hmarks.feed_begins h hspeech hbefore
    | hangover =>
      by_cases hlate : vadGateHangoverMs < (fed start chunks).gate.silenceMs chunk
      · exact hmarks.feed_expires h hspeech hbefore hlate
      · exact hmarks.feed_goesOn h hspeech hbefore hlate

end

theorem finalizeMarks (h : start.Opened) (chunks : List AudioChunk) :
    FinalizeMarks start chunks := by
  induction chunks using List.reverseRecOn with
  | nil =>
    refine ⟨fun hspeech => ?_, fun hhangover => ?_, fun _ => rfl⟩
    · exact absurd (h.silent.symm.trans hspeech) nofun
    · exact absurd (h.silent.symm.trans hhangover) nofun
  | append_singleton chunks chunk ih => exact ih.feed h chunk

/-- The finalizes of a gate that was fed the chunks. -/
structure FinalizesOnce (start : VADStreamingGate) (chunks : List AudioChunk) : Prop where
  /-- A finalize is asked for on the first chunk of a hangover, after the one that began it, on
  which the silence is long enough: never in silence and never in speech. -/
  asked : ∀ chunk, AsksFinalize start chunks chunk ↔
    (fed start chunks).gate.state = .hangover ∧ chunk.isSpeech = false ∧
      requestsSinceSpeech start chunks = 0 ∧
      ∃ since ∈ sinceSpeechMs start (chunks ++ [chunk]), vadGateFinalizeSilenceMs ≤ since
  /-- Without new speech it is not asked for again, -/
  atMostOnce : requestsSinceSpeech start chunks ≤ 1
  /-- and when the gate has become silent after speech it was asked for. -/
  onExpiry : (fed start chunks).gate.state = .silence →
    sinceSpeechMs start chunks ≠ none → requestsSinceSpeech start chunks = 1
  /-- The socket finalizes where its gate asks. -/
  socket : ∀ (socket : GatedSTTSocket) chunk (events : SendEvents),
    socket.gate = some (fed start chunks).gate → events.connectionDead = false →
    events.gateRaises = false →
      (.finalize ∈ (socket.send chunk events).2.1 ↔ AsksFinalize start chunks chunk)

/-- Whatever the chunks and the decisions on them, a gate in active mode finalizes once after each
stretch of speech whose hangover expires. -/
theorem finalizesOnce (config : GateConfig) (shadowed : Option (List AudioChunk))
    (chunks : List AudioChunk) :
    FinalizesOnce (VADStreamingGate.opened config shadowed) chunks := by
  have h := VADStreamingGate.opened_opened config shadowed
  generalize VADStreamingGate.opened config shadowed = start at h ⊢
  have hmarks := finalizeMarks h chunks
  constructor
  case asked =>
    intro chunk
    rw [asksFinalize_iff h]
    refine and_congr_right fun hhangover => and_congr_right fun hspeech => ?_
    have htalking : (fed start chunks).gate.state ≠ .silence := by
      rw [hhangover]
      nofun
    rw [silenceMs_eq h hspeech htalking, hmarks.hangover hhangover]
    simp
  case atMostOnce =>
    cases hstate : (fed start chunks).gate.state with
    | silence =>
      rw [hmarks.silence hstate]
      split_ifs <;> omega
    | speech =>
      rw [hmarks.speech hstate]
      exact Nat.zero_le 1
    | hangover =>
      rw [hmarks.hangover hstate]
      split_ifs <;> omega
  case onExpiry =>
    intro hsilence hsome
    rw [hmarks.silence hsilence, if_pos (Option.isSome_iff_ne_none.mpr hsome)]
  case socket =>
    intro socket chunk events hgate halive hraises
    exact GatedSTTSocket.send_finalizes hgate chunk halive hraises

/-- A quarter of a second of silence after speech is followed by another tenth: the finalize is
asked for in the hangover, which goes on. -/
theorem finalize_before_silence :
    let chunks : List AudioChunk := [⟨List.replicate 320 0, true, 1⟩,
      ⟨List.replicate 4000 0, false, 2⟩]
    let start := VADStreamingGate.opened { sampleRate := 8000 } none
    let chunk : AudioChunk := ⟨List.replicate 1600 0, false, 3⟩
    AsksFinalize start chunks chunk ∧
      ((fed start chunks).gate.processAudio chunk).1.state = .hangover := by
  decide +kernel

end Omi.Vad
