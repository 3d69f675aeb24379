import Omi.Vad.Conservation

/-! The provider's cursor against the audio that was forwarded, over a shadow phase and after it, in
exact arithmetic. -/
namespace Omi.Vad
open Omi.Foundation

namespace GateConfig
variable {config : GateConfig}

/-- The bytes of one sample of every channel. -/
def frameBytes (config : GateConfig) : ℕ := sampleWidth * config.channels

theorem frameBytes_pos : 0 < config.frameBytes :=
  Nat.mul_pos (by decide) config.channels_pos

theorem bytesPerSecond_pos : 0 < config.bytesPerSecond :=
  Nat.mul_pos config.frameBytes_pos config.sampleRate_pos

@[simp] theorem durationSec_nil : config.durationSec [] = 0 := by
  simp [durationSec, config.rounding.zero]

theorem durationSec_append (hexact : config.rounding = .exact) (audio more : Pcm) :
    config.durationSec (audio ++ more) = config.durationSec audio + config.durationSec more := by
  simp only [durationSec, hexact, Rounding.exact_apply]
  rw [List.length_append, Nat.cast_add, add_div]

/-- The cursor falls short of the audio by the split sample at the end of the chunk. -/
theorem chunkMs_add_partial (hexact : config.rounding = .exact) (pcm : Pcm) :
    config.chunkMs pcm / 1000 +
        ((pcm.length % config.frameBytes : ℕ) : ℚ) / config.bytesPerSecond =
      config.durationSec pcm := by
  have hframe : (config.frameBytes : ℚ) ≠ 0 := by
    exact_mod_cast config.frameBytes_pos.ne'
  have hrate : (config.sampleRate : ℚ) ≠ 0 := by
    exact_mod_cast config.sampleRate_pos.ne'
  have hbytes : (config.bytesPerSecond : ℚ) = config.frameBytes * config.sampleRate := by
    exact_mod_cast (rfl : config.bytesPerSecond = config.frameBytes * config.sampleRate)
  have hsplit : (pcm.length : ℚ) = config.frameBytes *
      ((pcm.length / config.frameBytes : ℕ) : ℚ) + ((pcm.length % config.frameBytes : ℕ) : ℚ) := by
    exact_mod_cast (Nat.div_add_mod pcm.length config.frameBytes).symm
  simp only [chunkMs, durationSec, hexact, Rounding.exact_apply]
  show ((pcm.length / config.frameBytes : ℕ) : ℚ) * 1000 / config.sampleRate / 1000 + _ =
    (pcm.length : ℚ) / config.bytesPerSecond
  rw [hbytes, hsplit]
  field_simp

end GateConfig

/-! ### The shadow phase -/

namespace VADStreamingGate

/-- The audio that a gate puts out for the chunks. -/
def output (gate : VADStreamingGate) : List AudioChunk → Pcm
  | [] => []
  | chunk :: rest =>
    (gate.processAudio chunk).2.audioToSend ++ output (gate.processAudio chunk).1 rest

/-- A gate in its shadow phase. -/
def shadowing (config : GateConfig) : VADStreamingGate := { config := config, mode := .shadow }

/-- The audio that has been forwarded since the connection began. -/
def forwarded (config : GateConfig) (shadowed : Option (List AudioChunk))
    (chunks : List AudioChunk) : Pcm :=
  (shadowing config).output (shadowed.getD []) ++ (opened config shadowed).output chunks

variable {gate : VADStreamingGate}

theorem processAudio_shadow (h : gate.mode = .shadow) (chunk : AudioChunk) :
    (gate.processAudio chunk).1.mode = .shadow ∧
      (gate.processAudio chunk).1.config = gate.config ∧
      (gate.processAudio chunk).1.audioCursorMs =
        gate.config.rounding (gate.audioCursorMs + gate.config.chunkMs chunk.pcm) ∧
      (gate.processAudio chunk).2.audioToSend = chunk.pcm := by
  simp only [processAudio, h]
  exact ⟨h, rfl, rfl, rfl⟩

/-- Shadow mode forwards every byte, and its cursor leaves out the split samples. -/
theorem shadow_cursor (gate : VADStreamingGate) (shadowed : List AudioChunk)
    (h : gate.mode = .shadow) (hexact : gate.config.rounding = .exact) :
    (shadowed.foldl (fun gate chunk => (gate.processAudio chunk).1) gate).audioCursorMs / 1000 +
        ((shadowed.map fun chunk => chunk.pcm.length % gate.config.frameBytes).sum : ℕ) /
          gate.config.bytesPerSecond =
      gate.audioCursorMs / 1000 + gate.config.durationSec (gate.output shadowed) := by
  induction shadowed generalizing gate with
  | nil => simp [output]
  | cons chunk rest ih =>
    obtain ⟨hmode, hconfig, hcursor, haudio⟩ := processAudio_shadow h chunk
    have hrest := ih _ hmode (by rw [hconfig, hexact])
    have hpartial := GateConfig.chunkMs_add_partial hexact chunk.pcm
    rw [hconfig, hcursor, hexact, Rounding.exact_apply] at hrest
    rw [output, haudio, GateConfig.durationSec_append hexact, List.foldl_cons, List.map_cons,
      List.sum_cons, Nat.cast_add, add_div]
    rw [add_div] at hrest
    linarith

theorem shadow_mode (gate : VADStreamingGate) (shadowed : List AudioChunk)
    (h : gate.mode = .shadow) :
    (shadowed.foldl (fun gate chunk => (gate.processAudio chunk).1) gate).mode = .shadow ∧
      (shadowed.foldl (fun gate chunk => (gate.processAudio chunk).1) gate).config =
        gate.config := by
  induction shadowed generalizing gate with
  | nil => exact ⟨h, rfl⟩
  | cons chunk rest ih =>
    obtain ⟨hmode, hconfig, -⟩ := processAudio_shadow h chunk
    obtain ⟨hlast, hsame⟩ := ih _ hmode
    exact ⟨hlast, hsame.trans hconfig⟩

theorem activate_cursor (h : gate.mode = .shadow) :
    gate.activate.dgWallMapper.providerCursorSec =
      gate.config.rounding (gate.audioCursorMs / 1000) := by
  simp only [activate, h, if_true]

/-- The cursor that `activate` leaves, and what it leaves out. -/
theorem opened_cursor {config : GateConfig} (hexact : config.rounding = .exact)
    (shadowed : Option (List AudioChunk)) :
    (opened config shadowed).dgWallMapper.providerCursorSec +
        (((shadowed.getD []).map fun chunk => chunk.pcm.length % config.frameBytes).sum : ℕ) /
          config.bytesPerSecond =
      config.durationSec ((shadowing config).output (shadowed.getD [])) := by
  cases shadowed with
  | none => simp [opened, output]
  | some shadowed =>
    obtain ⟨hmode, hconfig⟩ := shadow_mode (shadowing config) shadowed rfl
    have hcursor := shadow_cursor (shadowing config) shadowed rfl hexact
    have hactivated := activate_cursor hmode
    have hrounding : (shadowing config).config.rounding = .exact := hexact
    rw [hconfig, hrounding, Rounding.exact_apply] at hactivated
    change (shadowed.foldl (fun gate chunk => (gate.processAudio chunk).1)
      (shadowing config)).activate.dgWallMapper.providerCursorSec + _ = _
    rw [hactivated, Option.getD_some]
    have hstart : (shadowing config).audioCursorMs / 1000 = 0 := zero_div 1000
    rw [hstart, zero_add] at hcursor
    exact hcursor

theorem opened_config (config : GateConfig) (shadowed : Option (List AudioChunk)) :
    (opened config shadowed).config = config := by
  cases shadowed with
  | none => rfl
  | some shadowed =>
    obtain ⟨hmode, hconfig⟩ := shadow_mode (shadowing config) shadowed rfl
    simp only [shadowing] at hmode hconfig
    simp only [opened, activate, hmode, if_true]
    exact hconfig

/-! ### Active mode -/

/-- In active mode the cursor advances by the audio put out. -/
theorem processAudio_cursor (h : gate.mode = .active) (hexact : gate.dgWallMapper.rounding = .exact)
    (chunk : AudioChunk) :
    (gate.processAudio chunk).1.dgWallMapper.rounding = .exact ∧
      (gate.processAudio chunk).1.dgWallMapper.providerCursorSec =
        gate.dgWallMapper.providerCursorSec +
          gate.config.durationSec (gate.processAudio chunk).2.audioToSend := by
  have hnothing : gate.dgWallMapper.providerCursorSec =
      gate.dgWallMapper.providerCursorSec + gate.config.durationSec [] := by simp
  have hsent : ∀ audio, gate.dgWallMapper.rounding
      (gate.dgWallMapper.providerCursorSec + gate.config.durationSec audio) =
        gate.dgWallMapper.providerCursorSec + gate.config.durationSec audio := by
    intro audio
    rw [hexact, Rounding.exact_apply]
  rw [processAudio_active h]
  unfold updateState
  have hstate : (gate.receive chunk).state = gate.state := rfl
  rw [hstate]
  cases gate.state with
  | silence =>
    unfold updateSilence
    cases chunk.isSpeech with
    | true => exact ⟨hexact, hsent _⟩
    | false => exact ⟨hexact, hnothing⟩
  | speech =>
    unfold updateSpeech
    cases chunk.isSpeech with
    | true => exact ⟨hexact, hsent _⟩
    | false => exact ⟨hexact, hsent _⟩
  | hangover =>
    unfold updateHangover
    cases chunk.isSpeech with
    | true => exact ⟨hexact, hsent _⟩
    | false =>
      by_cases hlate : vadGateHangoverMs < (gate.receive chunk).config.rounding
          ((gate.receive chunk).audioCursorMs - (gate.receive chunk).lastSpeechMs)
      · simp only [Bool.false_eq_true, if_false, hlate, if_true]
        exact ⟨hexact, hnothing⟩
      · simp only [Bool.false_eq_true, if_false, hlate]
        exact ⟨hexact, hsent _⟩

theorem active_cursor (chunks : List AudioChunk) (h : gate.mode = .active)
    (hexact : gate.config.rounding = .exact) (hmapper : gate.dgWallMapper.rounding = .exact) :
    (chunks.foldl (fun gate chunk => (gate.processAudio chunk).1)
        gate).dgWallMapper.providerCursorSec =
      gate.dgWallMapper.providerCursorSec + gate.config.durationSec (gate.output chunks) := by
  induction chunks generalizing gate with
  | nil => simp [output]
  | cons chunk rest ih =>
    obtain ⟨hconfig, hmode, -⟩ := processAudio_frame h chunk
    obtain ⟨hnext, hcursor⟩ := processAudio_cursor h hmapper chunk
    rw [List.foldl_cons, ih hmode (by rw [hconfig, hexact]) hnext, hcursor, output, hconfig,
      GateConfig.durationSec_append hexact, add_assoc]

end VADStreamingGate

theorem fed_gate (start : VADStreamingGate) (chunks : List AudioChunk) :
    (fed start chunks).gate =
      chunks.foldl (fun gate chunk => (gate.processAudio chunk).1) start := by
  induction chunks using List.reverseRecOn with
  | nil => rfl
  | append_singleton chunks chunk ih =>
    rw [List.foldl_concat, ← ih, fed, GateRun.feedAll_concat]
    rfl

/-- At every point after the activation the cursor is the length of the audio forwarded if and
only if every chunk of the shadow phase was a whole number of sample frames. -/
theorem providerCursor_eq_iff (config : GateConfig) (shadowed : Option (List AudioChunk))
    (chunks : List AudioChunk) :
    (fed (VADStreamingGate.opened config.exact shadowed)
        chunks).gate.dgWallMapper.providerCursorSec =
        config.exact.durationSec (VADStreamingGate.forwarded config.exact shadowed chunks) ↔
      ∀ chunk ∈ shadowed.getD [], config.frameBytes ∣ chunk.pcm.length := by
  have hrate : (config.exact.bytesPerSecond : ℚ) ≠ 0 := by
    exact_mod_cast config.exact.bytesPerSecond_pos.ne'
  have hframe : config.frameBytes = config.exact.frameBytes := rfl
  have hstart := VADStreamingGate.opened_opened config.exact shadowed
  have hconfig := VADStreamingGate.opened_config config.exact shadowed
  have hexact : (VADStreamingGate.opened config.exact shadowed).config.rounding = .exact := by
    rw [hconfig]
    rfl
  have hrounding : config.exact.rounding = .exact := rfl
  have hopened := VADStreamingGate.opened_cursor hrounding shadowed
  rw [fed_gate, VADStreamingGate.active_cursor chunks hstart.active hexact
      (hstart.mapper.trans hexact), hconfig, VADStreamingGate.forwarded,
    GateConfig.durationSec_append hrounding, add_left_inj, ← hopened, eq_comm, add_eq_left,
    div_eq_zero_iff, or_iff_left hrate, Nat.cast_eq_zero, List.sum_eq_zero_iff, hframe]
  simp only [List.mem_map, forall_exists_index, and_imp, forall_apply_eq_imp_iff₂,
    Nat.dvd_iff_mod_eq_zero]

/-- Three bytes in shadow mode are forwarded whole and move the cursor by one sample. -/
theorem providerCursor_ne :
    let config : GateConfig := ({} : GateConfig).exact
    let shadowed : List AudioChunk := [⟨[0, 0, 0], false, 1⟩]
    (fed (VADStreamingGate.opened config (some shadowed)) []).gate.dgWallMapper.providerCursorSec ≠
      config.durationSec (VADStreamingGate.forwarded config (some shadowed) []) := by
  decide +kernel

end Omi.Vad
