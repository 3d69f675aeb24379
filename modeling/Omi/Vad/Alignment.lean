import Omi.Foundation.Runs
import Omi.Vad.Cursor

/-! Where the runs of forwarded bytes begin, in the audio received and in the audio put out. -/
namespace Omi.Vad
open Omi.Foundation

/-! ### Runs of marked bytes -/

/-- A maximal run of marked bytes begins at `i`. -/
def StartsRun (marks : List Bool) (i : ℕ) : Prop :=
  marks[i]? = some true ∧ ∀ j, i = j + 1 → marks[j]? = some false

instance (marks : List Bool) (i : ℕ) : Decidable (StartsRun marks i) :=
  match i with
  | 0 => decidable_of_iff (marks[0]? = some true) (by simp [StartsRun])
  | i + 1 => decidable_of_iff (marks[i + 1]? = some true ∧ marks[i]? = some false) (by
      simp [StartsRun])

/-- Every run begins at a multiple of the frame, counted in all bytes and in the marked ones. -/
def RunsAligned (frame : ℕ) (marks : List Bool) : Prop :=
  ∀ i, StartsRun marks i → frame ∣ i ∧ frame ∣ (marks.take i).count true

/-- The runs are aligned, and so is what lies between them. -/
structure CutWhole (frame : ℕ) (marks : List Bool) : Prop where
  aligned : RunsAligned frame marks
  ends : marks.getLast? = some false → frame ∣ marks.length
  cut : frame ∣ marks.count false

variable {frame : ℕ} {marks : List Bool}

theorem cutWhole_nil : CutWhole frame [] :=
  ⟨fun i hi => by simp [StartsRun] at hi, by simp, by simp⟩

/-- A run of the longer list began in the shorter one, or begins behind it. -/
theorem startsRun_append {more : List Bool} {i : ℕ} (h : StartsRun (marks ++ more) i)
    (hi : i < marks.length) : StartsRun marks i := by
  obtain ⟨hmark, hbefore⟩ := h
  refine ⟨by rwa [List.getElem?_append_left hi] at hmark, fun j hj => ?_⟩
  have hprevious := hbefore j hj
  rwa [List.getElem?_append_left (by omega)] at hprevious

theorem RunsAligned.append_false (h : RunsAligned frame marks) (count : ℕ) :
    RunsAligned frame (marks ++ List.replicate count false) := by
  intro i hi
  rcases Nat.lt_or_ge i marks.length with hinside | hbehind
  · rw [List.take_append_of_le_length hinside.le]
    exact h i (startsRun_append hi hinside)
  · have hmark := hi.1
    rw [List.getElem?_append_right hbehind, List.getElem?_replicate] at hmark
    split_ifs at hmark
    cases hmark

theorem CutWhole.append_false (h : CutWhole frame marks) {count : ℕ} (hcount : frame ∣ count)
    (hend : frame ∣ marks.length) : CutWhole frame (marks ++ List.replicate count false) := by
  refine ⟨h.aligned.append_false count, fun _ => ?_, ?_⟩
  · rw [List.length_append, List.length_replicate]
    exact Nat.dvd_add hend hcount
  · rw [List.count_append, List.count_replicate_self]
    exact Nat.dvd_add h.cut hcount

theorem CutWhole.append_true (h : CutWhole frame marks) (count : ℕ) :
    CutWhole frame (marks ++ List.replicate count true) := by
  refine ⟨fun i hi => ?_, fun hlast => ?_, ?_⟩
  · rcases Nat.lt_trichotomy i marks.length with hinside | rfl | hbehind
    · rw [List.take_append_of_le_length hinside.le]
      exact h.aligned i (startsRun_append hi hinside)
    · -- the run begins with the new bytes, so the byte before them is not marked
      have hwhole : frame ∣ marks.length := by
        rcases Nat.eq_zero_or_pos marks.length with hzero | hpos
        · rw [hzero]
          exact dvd_zero frame
        · refine h.ends ?_
          have hbefore := hi.2 (marks.length - 1) (by omega)
          rwa [List.getElem?_append_left (by omega), ← List.getLast?_eq_getElem?] at hbefore
      have hsum := List.count_true_add_count_false (l := marks)
      rw [List.take_left]
      refine ⟨hwhole, (Nat.dvd_add_left h.cut).mp ?_⟩
      rwa [hsum]
    · have hmark := hi.2 (i - 1) (by omega)
      rw [List.getElem?_append_right (by omega), List.getElem?_replicate] at hmark
      split_ifs at hmark
      cases hmark
  · rcases Nat.eq_zero_or_pos count with rfl | hpos
    · simp only [List.replicate_zero, List.append_nil] at hlast ⊢
      exact h.ends hlast
    · rw [List.getLast?_append_of_ne_nil _ (by simp; omega), List.getLast?_replicate,
        if_neg (by omega)] at hlast
      cases hlast
  · rw [List.count_append, List.count_replicate]
    simpa using h.cut

/-! ### The bytes of a gate -/

/-- The bytes of settled chunks, by whether they were sent. -/
def byteMarks (settled : List (Bool × AudioChunk)) : List Bool :=
  settled.flatMap fun item => List.replicate item.2.pcm.length item.1

/-- Every byte received since the connection began, by whether it was forwarded: all before active
mode, and none that still waits. -/
def GateRun.forwardMarks (start : VADStreamingGate) (run : GateRun) : List Bool :=
  List.replicate start.bytesReceived true ++ byteMarks run.account.settled ++
    List.replicate run.gate.pendingBytes false

/-- The chunks that the pre-roll gives up when it takes one more. -/
def VADStreamingGate.evicted (gate : VADStreamingGate) (pcm : Pcm) : List Pcm :=
  (gate.preRoll ++ [pcm]).take (gate.preRoll.length + 1 - (gate.retained pcm).1.length)

/-- What the gate gives up of its pre-roll begins and ends between two sample frames. -/
def EvictsWhole (run : GateRun) (chunk : AudioChunk) : Prop :=
  run.gate.evicted chunk.pcm ≠ [] →
    run.gate.config.frameBytes ∣ run.gate.bytesReceived - run.gate.pendingBytes ∧
      ∀ pcm ∈ run.gate.evicted chunk.pcm, run.gate.config.frameBytes ∣ pcm.length

instance (run : GateRun) (chunk : AudioChunk) : Decidable (EvictsWhole run chunk) :=
  inferInstanceAs (Decidable (_ → _))

@[simp] theorem byteMarks_append (settled more : List (Bool × AudioChunk)) :
    byteMarks (settled ++ more) = byteMarks settled ++ byteMarks more :=
  List.flatMap_append

@[simp] theorem length_byteMarks (settled : List (Bool × AudioChunk)) :
    (byteMarks settled).length = (settled.map fun item => item.2.pcm.length).sum := by
  simp [byteMarks, List.length_flatMap]

/-- The bytes at the marks are the bytes put out. -/
theorem marked_bytes (settled : List (Bool × AudioChunk)) :
    (((settled.map Prod.snd).flatMap AudioChunk.pcm).zip (byteMarks settled)).filterMap
        (fun byte => if byte.2 then some byte.1 else none) =
      ((settled.filter fun item => item.1).map Prod.snd).flatMap AudioChunk.pcm := by
  have hblock : ∀ (pcm : Pcm) (sent : Bool),
      (pcm.zip (List.replicate pcm.length sent)).filterMap
        (fun byte => if byte.2 then some byte.1 else none) = if sent then pcm else [] := by
    intro pcm sent
    induction pcm with
    | nil => cases sent <;> rfl
    | cons byte rest ih =>
      rw [List.length_cons, List.replicate_succ, List.zip_cons_cons, List.filterMap_cons, ih]
      cases sent <;> rfl
  induction settled with
  | nil => rfl
  | cons item rest ih =>
    obtain ⟨sent, chunk⟩ := item
    rw [List.map_cons, List.flatMap_cons]
    show ((chunk.pcm ++ _).zip (List.replicate chunk.pcm.length sent ++ byteMarks rest)).filterMap
      _ = _
    rw [List.zip_append (by simp), List.filterMap_append, hblock, ih]
    cases sent <;> simp

/-- Whole chunks cut out behind a frame boundary keep what follows aligned. -/
theorem CutWhole.drop (h : CutWhole frame marks) {dropped : List AudioChunk}
    (hend : dropped ≠ [] → frame ∣ marks.length)
    (hwhole : ∀ chunk ∈ dropped, frame ∣ chunk.pcm.length) :
    CutWhole frame (marks ++ byteMarks (dropped.map (Prod.mk false))) := by
  induction dropped generalizing marks with
  | nil => simpa [byteMarks] using h
  | cons chunk rest ih =>
    have hchunk := hwhole chunk List.mem_cons_self
    have hstart := hend (List.cons_ne_nil _ _)
    have hnext := ih (h.append_false hchunk hstart)
      (fun _ => by simpa using Nat.dvd_add hstart hchunk)
      fun other hother => hwhole other (List.mem_cons_of_mem chunk hother)
    simpa [byteMarks] using hnext

theorem CutWhole.deliver (h : CutWhole frame marks) (delivered : List AudioChunk) :
    CutWhole frame (marks ++ byteMarks (delivered.map (Prod.mk true))) := by
  induction delivered generalizing marks with
  | nil => simpa [byteMarks] using h
  | cons chunk rest ih =>
    have hnext := ih (h.append_true chunk.pcm.length)
    simpa [byteMarks] using hnext

namespace GateRun
variable {start : VADStreamingGate} {chunks : List AudioChunk} {run : GateRun}

/-- What is settled are the bytes received before those that wait. -/
theorem Audited.length_settled (h : Audited start chunks run) :
    start.bytesReceived + (byteMarks run.account.settled).length + run.gate.pendingBytes =
      run.gate.bytesReceived := by
  have hsum := congrArg (fun items => (items.map fun chunk => chunk.pcm.length).sum) h.received
  simp only [Settlement.received, List.map_append, List.sum_append, List.map_map] at hsum
  rw [h.bytesReceived, pendingBytes_eq h.pending, length_byteMarks, ← hsum]
  simp only [Function.comp_def]
  omega

/-- One chunk whose eviction cuts no frame keeps the runs aligned. -/
theorem Audited.cutWhole_feed (h : Audited start chunks run) {chunk : AudioChunk}
    (hevicts : EvictsWhole run chunk)
    (hcut : CutWhole run.gate.config.frameBytes
      (List.replicate start.bytesReceived true ++ byteMarks run.account.settled)) :
    CutWhole run.gate.config.frameBytes
      (List.replicate start.bytesReceived true ++ byteMarks (run.feed chunk).account.settled) := by
  have hreceived : (run.account.receive chunk).pending.map AudioChunk.pcm =
      run.gate.preRoll ++ [chunk.pcm] := by
    rw [Settlement.pending_receive, List.map_append, ← h.pending]
    rfl
  let count := run.gate.preRoll.length + 1 - (run.gate.retained chunk.pcm).1.length
  let dropped := (run.account.receive chunk).pending.take count
  have hdropped : dropped.map AudioChunk.pcm = run.gate.evicted chunk.pcm := by
    rw [List.map_take, hreceived]
    rfl
  have hlength : (List.replicate start.bytesReceived true ++
      byteMarks run.account.settled).length = run.gate.bytesReceived - run.gate.pendingBytes := by
    have hsettled := h.length_settled
    rw [List.length_append, List.length_replicate]
    omega
  have hwaiting : CutWhole run.gate.config.frameBytes (List.replicate start.bytesReceived true ++
      byteMarks (run.waiting chunk).settled) := by
    have hsettled : (run.waiting chunk).settled =
        run.account.settled ++ dropped.map (Prod.mk false) := rfl
    rw [hsettled, byteMarks_append, ← List.append_assoc]
    by_cases hnone : dropped = []
    · simpa [hnone, byteMarks] using hcut
    · have hsome : run.gate.evicted chunk.pcm ≠ [] := by
        rw [← hdropped]
        simpa using hnone
      obtain ⟨hstart, hwhole⟩ := hevicts hsome
      refine hcut.drop (fun _ => by rwa [hlength]) fun other hother => ?_
      exact hwhole _ (hdropped ▸ List.mem_map_of_mem hother)
  rcases h.feed_cases chunk with ⟨-, haccount, -⟩ | ⟨-, haccount, -⟩
  · have hsettled : (run.waiting chunk).deliver.settled = (run.waiting chunk).settled ++
        (run.waiting chunk).pending.map (Prod.mk true) := rfl
    rw [haccount, hsettled, byteMarks_append, ← List.append_assoc]
    exact hwaiting.deliver _
  · rw [haccount]
    exact hwaiting

end GateRun

/-- The marks of a gate fed the chunks. -/
structure SampleAligned (start : VADStreamingGate) (chunks : List AudioChunk) : Prop where
  /-- Every byte received has a mark, -/
  length : ((fed start chunks).forwardMarks start).length = (fed start chunks).gate.bytesReceived
  /-- and the marked ones are put out, in their order. -/
  bytes : ((chunks.flatMap AudioChunk.pcm).zip
      (((fed start chunks).forwardMarks start).drop start.bytesReceived)).filterMap
        (fun byte => if byte.2 then some byte.1 else none) = (fed start chunks).emitted
  /-- Their runs begin between two sample frames, in what was received and in what was put
  out. -/
  runs : RunsAligned start.config.frameBytes ((fed start chunks).forwardMarks start)

theorem fed_length (start : VADStreamingGate) (chunks : List AudioChunk)
    (h : GateRun.Audited start chunks (fed start chunks)) :
    ((fed start chunks).forwardMarks start).length = (fed start chunks).gate.bytesReceived := by
  rw [GateRun.forwardMarks, List.length_append, List.length_append, List.length_replicate,
    List.length_replicate]
  exact h.length_settled

theorem fed_bytes (start : VADStreamingGate) (chunks : List AudioChunk)
    (h : GateRun.Audited start chunks (fed start chunks)) :
    ((chunks.flatMap AudioChunk.pcm).zip
      (((fed start chunks).forwardMarks start).drop start.bytesReceived)).filterMap
        (fun byte => if byte.2 then some byte.1 else none) = (fed start chunks).emitted := by
  have hlength : (((fed start chunks).account.settled.map Prod.snd).flatMap
      AudioChunk.pcm).length = (byteMarks (fed start chunks).account.settled).length := by
    simp [List.length_flatMap, Function.comp_def]
  have hwaiting : ∀ (waiting : Pcm) (count : ℕ),
      (waiting.zip (List.replicate count false)).filterMap
        (fun byte => if byte.2 then some byte.1 else none) = [] := by
    intro waiting count
    rw [List.filterMap_eq_nil_iff]
    rintro ⟨byte, mark⟩ hmem
    rw [List.eq_of_mem_replicate (List.of_mem_zip hmem).2]
    rfl
  have hreceived := congrArg (List.flatMap AudioChunk.pcm) h.received
  rw [Settlement.received, List.flatMap_append] at hreceived
  rw [← hreceived, GateRun.forwardMarks, List.append_assoc, List.drop_left' (by simp),
    List.zip_append hlength, List.filterMap_append, marked_bytes, hwaiting, List.append_nil,
    h.emitted]
  rfl

/-- In every run in which no eviction cuts a sample frame, what is forwarded stays aligned. -/
theorem sampleAligned (config : GateConfig) (shadowed : Option (List AudioChunk))
    {chunks : List AudioChunk}
    (hevicts : EveryStep GateRun.feed EvictsWhole
      { gate := VADStreamingGate.opened config shadowed } chunks) :
    SampleAligned (VADStreamingGate.opened config shadowed) chunks := by
  let start := VADStreamingGate.opened config shadowed
  let Whole (run : GateRun) : Prop := ∃ chunks, GateRun.Audited start chunks run ∧
    CutWhole start.config.frameBytes
      (List.replicate start.bytesReceived true ++ byteMarks run.account.settled)
  have hopened : start.Opened := VADStreamingGate.opened_opened config shadowed
  have hstart : Whole { gate := start } :=
    ⟨[], GateRun.audited_start hopened, by simpa [byteMarks] using cutWhole_nil.append_true _⟩
  have hwhole : Whole (fed start chunks) := hevicts.invariant hstart fun run chunk hrun hcuts => by
    obtain ⟨before, haudited, hcut⟩ := hrun
    rw [← haudited.config] at hcut
    refine ⟨before ++ [chunk], haudited.feed chunk, ?_⟩
    rw [← haudited.config]
    exact haudited.cutWhole_feed hcuts hcut
  obtain ⟨-, -, hcut⟩ := hwhole
  have haudited : GateRun.Audited start chunks (fed start chunks) :=
    GateRun.audited_feedAll hopened chunks
  exact ⟨fed_length start chunks haudited, fed_bytes start chunks haudited,
    hcut.aligned.append_false _⟩

/-! ### Gates at 8 and 24 kHz -/

def silentBytes (count : ℕ) : AudioChunk := ⟨List.replicate count 0, false, 1⟩

def spokenBytes (count : ℕ) : AudioChunk := ⟨List.replicate count 0, true, 2⟩

/-- Three bytes and twenty-two chunks of 640 wait at 24 kHz when 317 more come. The rounded total of
them is above the pre-roll and gives up the three bytes; the exact one is the pre-roll. -/
example :
    let waiting := silentBytes 3 :: List.replicate 22 (silentBytes 640)
    let config : GateConfig := { sampleRate := 24000 }
    ((fed (.opened config none) waiting).gate.evicted (spokenBytes 317).pcm).length = 1 ∧
      ((fed (.opened config.exact none) waiting).gate.evicted (spokenBytes 317).pcm).length = 0 := by
  decide +kernel

/-- The first of two silent chunks is evicted whole before the speech. -/
theorem sampleAligned_whole :
    EveryStep GateRun.feed EvictsWhole
        { gate := VADStreamingGate.opened { sampleRate := 8000 } none }
        [silentBytes 4, silentBytes 4800, spokenBytes 320] ∧
      SampleAligned (VADStreamingGate.opened { sampleRate := 8000 } none)
        [silentBytes 4, silentBytes 4800, spokenBytes 320] := by
  have hevicts : EveryStep GateRun.feed EvictsWhole
      { gate := VADStreamingGate.opened { sampleRate := 8000 } none }
      [silentBytes 4, silentBytes 4800, spokenBytes 320] := by
    refine ⟨?_, ?_, ?_, trivial⟩
    · decide +kernel
    · decide +kernel
    · decide +kernel
  exact ⟨hevicts, sampleAligned { sampleRate := 8000 } none hevicts⟩

/-- With one byte less in the first chunk the speech begins in the middle of a sample. -/
theorem not_sampleAligned :
    ¬ SampleAligned (VADStreamingGate.opened { sampleRate := 8000 } none)
      [silentBytes 3, silentBytes 4800, spokenBytes 320] := by
  intro h
  have hrun : StartsRun ((fed (VADStreamingGate.opened { sampleRate := 8000 } none)
      [silentBytes 3, silentBytes 4800, spokenBytes 320]).forwardMarks
        (VADStreamingGate.opened { sampleRate := 8000 } none)) 4803 := by
    decide +kernel
  exact absurd (h.runs 4803 hrun).1 (by decide)

end Omi.Vad
