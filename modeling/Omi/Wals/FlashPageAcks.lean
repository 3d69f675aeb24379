import Omi.Wals.FlashPageSync

/-! What a flash-page acknowledgement promises: everything it covers is on the phone. -/
namespace Omi.Wals
open Omi.Foundation

/-! ### The promise -/

/-- The page's audio is in one file that was written for a recording to upload. -/
def Stored (log : List FlashEvent) (page : FlashPage) : Prop :=
  ∃ wal file frames, .registered wal file ∈ log ∧ wal.status = .miss ∧ file = flushData frames ∧
    page.opusFrames <:+: frames

/-- An acknowledgement comes after every page it covers is stored. -/
def AckAllowed (log : List FlashEvent) : FlashEvent → Prop
  | .acknowledged upTo => ∀ page, .received page ∈ log → ∀ index ∈ page.index, index ≤ upTo →
    page.opusFrames ≠ [] → Stored log page
  | _ => True

/-! ### What keeps it -/

namespace FlashDrain

/-- A save of the accumulated frames writes their file and adds their recording: the list has
no recording of that device and second. -/
def Registers (drain : FlashDrain) (now : ℕ) (answer : SaveAnswer) : Prop :=
  (∀ random begun, answer ≠ .writeFailed random begun) ∧ drain.hasLocalSync ∧
    ¬drain.sync.Knows (drain.wal.device, drain.batchTimestamp now / 1000)

/-- No new session starts while frames of another wait, and what is saved is registered. -/
def Careful (drain : FlashDrain) : FlashAction → Prop
  | .turn turn => drain.phase = .draining →
    (∀ data ∈ turn.extraction, data.opusFrames ≠ [] → ¬drain.SessionGap data) ∧
    ((drain.takeIn turn).1.accumulatedFrames ≠ [] →
      if (drain.takeIn turn).1.due turn.now then
        (drain.takeIn turn).1.Registers turn.now turn.save
      else turn.cancelRequested → (drain.takeIn turn).1.Registers turn.savedAt turn.cancelSave)
  | .finish now save => drain.phase = .drained → drain.accumulatedFrames ≠ [] →
    drain.Registers now save
  | .fail => True
  | .others _ => True

end FlashDrain

/-! ### The log -/

section logs
variable {log : List FlashEvent}

theorem Stored.mono {page : FlashPage} (h : Stored log page) (more : List FlashEvent) :
    Stored (log ++ more) page := by
  obtain ⟨wal, file, frames, hmem, hrest⟩ := h
  exact ⟨wal, file, frames, List.mem_append_left more hmem, hrest⟩

theorem lawful_received (h : Lawful AckAllowed log) (pages : List FlashPage) :
    Lawful AckAllowed (log ++ pages.map FlashEvent.received) := by
  induction pages generalizing log with
  | nil => simpa using h
  | cons page rest ih =>
    have hhead : Lawful AckAllowed (log ++ [FlashEvent.received page]) := h.concat trivial
    simpa using ih hhead

/-- Every page with audio is stored, and every acknowledgement so far kept its promise. -/
structure Settled (log : List FlashEvent) : Prop where
  stored : ∀ page, .received page ∈ log → page.opusFrames ≠ [] → Stored log page
  lawful : Lawful AckAllowed log

theorem Settled.acknowledged (h : Settled log) (index : ℕ) :
    Settled (log ++ [FlashEvent.acknowledged index]) where
  stored page hmem hframes := by
    have hold : .received page ∈ log := by simpa using hmem
    exact (h.stored page hold hframes).mono _
  lawful := by
    refine h.lawful.concat ?_
    intro page hmem _ _ _ hframes
    exact h.stored page hmem hframes

end logs

/-! ### One turn -/

namespace FlashDrain
variable {drain : FlashDrain}

/-- Every page is stored or waits in the batch. -/
structure Kept (drain : FlashDrain) : Prop where
  waiting : ∀ page, .received page ∈ drain.log →
    Stored drain.log page ∨ page.opusFrames <:+: drain.accumulatedFrames
  lawful : Lawful AckAllowed drain.log

theorem Kept.of_settled (h : Settled drain.log) : Kept drain where
  waiting page hmem := by
    by_cases hframes : page.opusFrames = []
    · rw [hframes]
      exact .inr (List.nil_infix)
    · exact .inl (h.stored page hmem hframes)
  lawful := h.lawful

theorem Kept.settled (h : Kept drain) (hempty : drain.accumulatedFrames = []) :
    Settled drain.log where
  stored page hmem hframes := by
    rcases h.waiting page hmem with hstored | hinside
    · exact hstored
    · rw [hempty] at hinside
      exact absurd (List.infix_nil.1 hinside) hframes
  lawful := h.lawful

theorem log_acknowledge (h : Settled drain.log) : Settled drain.acknowledge.log := by
  unfold acknowledge
  split
  · exact h
  · exact h.acknowledged _

@[simp] theorem accumulatedFrames_acknowledge :
    drain.acknowledge.accumulatedFrames = drain.accumulatedFrames := by
  unfold acknowledge
  split <;> rfl

@[simp] theorem log_resumeBehind : drain.resumeBehind.log = drain.log := by
  unfold resumeBehind
  split <;> rfl

/-- A registered batch is stored with everything in it. -/
theorem settled_registerChunk (h : Kept drain) {timestampMs : ℕ} (hsync : drain.hasLocalSync)
    (hnew : ¬drain.sync.Knows (drain.wal.device, timestampMs / 1000)) (fileName : String) :
    Settled (drain.registerChunk fileName timestampMs
      (flushData drain.accumulatedFrames)).log := by
  let file := flushData drain.accumulatedFrames
  let wal := batchWal fileName timestampMs drain.accumulatedFrames.length drain.wal
  have hlog : (drain.registerChunk fileName timestampMs file).log =
      drain.log ++ [FlashEvent.registered wal file] := by
    have hid : ¬drain.sync.Knows wal.id := hnew
    simp only [registerChunk, hsync, if_true]
    exact if_neg hid
  rw [hlog]
  constructor
  case stored =>
    intro page hmem hframes
    have hold : .received page ∈ drain.log := by simpa using hmem
    rcases h.waiting page hold with hstored | hinside
    · exact hstored.mono _
    · exact ⟨wal, file, drain.accumulatedFrames, by simp, rfl, rfl, hinside⟩
  case lawful => exact h.lawful.concat trivial

theorem settled_saveBatchToFile (h : Kept drain) {now : ℕ} {answer : SaveAnswer}
    (hregisters : drain.Registers now answer) :
    Settled (drain.saveBatchToFile now answer).1.log := by
  obtain ⟨hwritten, hsync, hnew⟩ := hregisters
  have hfile (fileName : String) (file : Bytes) : Kept (drain.writeFile fileName file) :=
    ⟨h.waiting, h.lawful⟩
  cases answer with
  | written random => exact settled_registerChunk (hfile _ _) hsync hnew _
  | writeFailed random begun => exact absurd rfl (hwritten random begun)
  | registerFailed random => exact settled_registerChunk (hfile _ _) hsync hnew _

/-- Without a session gap the whole extraction joins the batch. -/
theorem kept_takeIn (h : Kept drain) {turn : Turn}
    (hgap : ∀ data ∈ turn.extraction, data.opusFrames ≠ [] → ¬drain.SessionGap data) :
    Kept (drain.takeIn turn).1 ∧ (drain.takeIn turn).2 = none := by
  have hlawful := lawful_received h.lawful turn.pages
  have hlog : (drain.takeIn turn).1.log = drain.log ++ turn.pages.map FlashEvent.received := by
    unfold takeIn
    dsimp only
    split
    · rfl
    · split_ifs <;> rfl
  have hframes : (drain.takeIn turn).1.accumulatedFrames =
      drain.accumulatedFrames ++ turn.pages.flatMap FlashPage.opusFrames ∧
      (drain.takeIn turn).2 = none := by
    unfold takeIn
    dsimp only
    cases hdata : turn.extraction with
    | none =>
      have hpages : turn.pages = [] := by
        simpa [Turn.extraction, extractFramesWithSessionInfo] using hdata
      simp [hpages]
    | some data =>
      have hopus : data.opusFrames = turn.pages.flatMap FlashPage.opusFrames := by
        unfold Turn.extraction extractFramesWithSessionInfo at hdata
        split_ifs at hdata
        rw [← Option.some.inj hdata]
      have hsession : data.opusFrames ≠ [] → ¬drain.SessionGap data := hgap data hdata
      dsimp only
      split_ifs with hempty hgapped
      · rw [← hopus, hempty]
        simp
      · exact absurd hgapped (hsession hempty)
      · rw [hopus]
        simp
  refine ⟨⟨?_, hlog ▸ hlawful⟩, hframes.2⟩
  intro page hmem
  rw [hlog] at hmem ⊢
  rw [hframes.1]
  rcases List.mem_append.1 hmem with hold | hnew
  · rcases h.waiting page hold with hstored | hinside
    · exact .inl (hstored.mono _)
    · exact .inr (hinside.trans (List.prefix_append _ _).isInfix)
  · have hpage : page ∈ turn.pages := by simpa using hnew
    have hinside : page.opusFrames <:+: turn.pages.flatMap FlashPage.opusFrames :=
      List.infix_of_mem_flatten (List.mem_map_of_mem hpage)
    exact .inr (hinside.trans (List.suffix_append _ _).isInfix)

theorem settled_persist (h : Kept drain) {turn : Turn}
    (hregisters : drain.Registers turn.now turn.save) :
    Settled (drain.persist turn none).log ∧
      (drain.persist turn none).accumulatedFrames = [] := by
  have hsaved := settled_saveBatchToFile h hregisters
  refine ⟨?_, rfl⟩
  unfold persist
  dsimp only
  split_ifs
  · exact log_acknowledge hsaved
  · exact hsaved

theorem kept_persistDue (h : Kept drain) {turn : Turn}
    (hregisters : drain.accumulatedFrames ≠ [] → drain.due turn.now →
      drain.Registers turn.now turn.save) :
    Kept (drain.persistDue turn none) ∧
      ((drain.persistDue turn none).accumulatedFrames ≠ [] →
        drain.persistDue turn none = drain ∧ ¬drain.due turn.now) := by
  unfold persistDue
  split_ifs with hempty hack hdue
  · have hsettled : Settled drain.acknowledge.log := log_acknowledge (h.settled hempty)
    refine ⟨Kept.of_settled hsettled, fun hframes => ?_⟩
    exact absurd hempty (by simpa using hframes)
  · exact ⟨h, fun hframes => absurd hempty hframes⟩
  · have hdue' : drain.due turn.now := by simpa using hdue
    obtain ⟨hsettled, hdone⟩ := settled_persist h (hregisters hempty hdue')
    exact ⟨Kept.of_settled hsettled, fun hframes => absurd hdone hframes⟩
  · exact ⟨h, fun _ => ⟨rfl, by simpa using hdue⟩⟩

theorem kept_cancel (h : Kept drain) {turn : Turn}
    (hregisters : drain.accumulatedFrames ≠ [] →
      drain.Registers turn.savedAt turn.cancelSave) : Kept (drain.cancel turn) := by
  refine Kept.of_settled ?_
  unfold cancel
  dsimp only
  rw [log_resumeBehind]
  apply log_acknowledge
  split_ifs with hempty
  · exact h.settled hempty
  · exact settled_saveBatchToFile h (hregisters hempty)

theorem settled_saveRest (h : Kept drain) {now : ℕ} {save : SaveAnswer}
    (hregisters : drain.accumulatedFrames ≠ [] → drain.Registers now save) :
    Settled (drain.saveRest now save).log := by
  unfold saveRest
  dsimp only
  split_ifs with hempty hok
  · exact h.settled hempty
  · exact log_acknowledge (settled_saveBatchToFile h (hregisters hempty))
  · exact settled_saveBatchToFile h (hregisters hempty)

theorem kept_finish (h : Kept drain) {now : ℕ} {save : SaveAnswer}
    (hregisters : drain.accumulatedFrames ≠ [] → drain.Registers now save) :
    Kept (drain.finish now save) := by
  refine Kept.of_settled ?_
  have hsettled : Settled (drain.saveRest now save).acknowledge.log :=
    log_acknowledge (settled_saveRest h hregisters)
  unfold finish
  dsimp only
  split_ifs
  · exact hsettled
  · change Settled (drain.saveRest now save).acknowledge.resumeBehind.log
    rw [log_resumeBehind]
    exact hsettled

theorem kept_turn (h : Kept drain) {turn : Turn} (hphase : drain.phase = .draining)
    (hcareful : drain.Careful (.turn turn)) : Kept (drain.turn turn) := by
  obtain ⟨hgap, hsaves⟩ := hcareful hphase
  obtain ⟨htaken, hpending⟩ := kept_takeIn h hgap
  have hdue : (drain.takeIn turn).1.accumulatedFrames ≠ [] →
      (drain.takeIn turn).1.due turn.now →
      (drain.takeIn turn).1.Registers turn.now turn.save := by
    intro hframes hdue
    simpa [hdue] using hsaves hframes
  obtain ⟨hpersisted, hwaits⟩ := kept_persistDue htaken hdue
  have hturn : (drain.takeIn turn) = ((drain.takeIn turn).1, none) := Prod.ext rfl hpending
  unfold FlashDrain.turn
  rw [hturn]
  dsimp only
  split_ifs with hcancel
  · refine kept_cancel hpersisted fun hframes => ?_
    obtain ⟨hsame, hnotDue⟩ := hwaits hframes
    rw [hsame] at hframes ⊢
    have hcancelled := hsaves hframes
    rw [if_neg hnotDue] at hcancelled
    exact hcancelled hcancel
  · exact ⟨hpersisted.waiting, hpersisted.lawful⟩
  · exact hpersisted

theorem kept_step (h : Kept drain) (action : FlashAction) (hcareful : drain.Careful action) :
    Kept (drain.step action) := by
  cases action with
  | turn turn =>
    simp only [step]
    split_ifs with hphase
    · exact kept_turn h hphase hcareful
    · exact h
  | finish now save =>
    simp only [step]
    split_ifs with hphase
    · exact kept_finish h (hcareful hphase)
    · exact h
  | fail =>
    simp only [step]
    split
    · exact h
    · exact ⟨h.waiting, h.lawful⟩
  | others wals => exact ⟨h.waiting, h.lawful⟩

end FlashDrain

/-! ### Runs -/

/-- Where every batch that is saved is registered and no session gap interrupts a batch, no
acknowledgement covers audio that is not stored. -/
theorem flashAcksStored (wal : Wal) (sync : LocalSync) (hasLocalSync : Bool) (now : ℕ)
    (actions : List FlashAction)
    (hcareful : EveryStep FlashDrain.step FlashDrain.Careful
      (.start wal sync hasLocalSync now) actions) :
    Lawful AckAllowed
      (actions.foldl FlashDrain.step (.start wal sync hasLocalSync now)).log := by
  have hstart : FlashDrain.Kept (.start wal sync hasLocalSync now) :=
    ⟨fun _ hmem => absurd hmem List.not_mem_nil, lawful_nil⟩
  have hkept : FlashDrain.Kept
      (actions.foldl FlashDrain.step (.start wal sync hasLocalSync now)) :=
    hcareful.invariant hstart fun _ action h => FlashDrain.kept_step h action
  exact hkept.lawful

/-- One page with one frame, the newest on the device. -/
def newestPage : FlashPage := { opusFrames := [[7]], timestampMs := 1600000000000, index := some 3 }

def pendant : Wal :=
  { timerStart := 0, codec := .opus, seconds := 0, device := "pendant", storage := .flashPage,
    storageTotalBytes := 3 }

/-- Two pages before it, the second of them without audio. -/
def earlierPages : List FlashPage :=
  [{ opusFrames := [[5], [6]], timestampMs := 1599999800000, index := some 1 },
    { opusFrames := [], timestampMs := 0, index := some 2 }]

/-- The earlier pages are saved once the batch is due, the newest one at the end. -/
theorem flashAcksStored_newestPage :
    let actions : List FlashAction :=
      [.turn { pages := earlierPages, now := 0 },
        .turn { pages := [], now := 90000, savedAt := 90000, save := .written 0 },
        .turn { pages := [newestPage], now := 91000 }, .finish 92000 (.written 1)]
    let drain := actions.foldl FlashDrain.step (.start pendant {} true 0)
    Lawful AckAllowed drain.log ∧ .acknowledged 2 ∈ drain.log ∧ .acknowledged 3 ∈ drain.log ∧
      drain.sync.wals.map (·.totalFrames) = [2, 1] := by
  intro actions drain
  refine ⟨flashAcksStored pendant {} true 0 actions ?_, by decide +kernel, by decide +kernel,
    by decide +kernel⟩
  have hsaved : ∀ {random : ℕ}, ∀ other begun,
      SaveAnswer.written random ≠ .writeFailed other begun := nofun
  refine ⟨?_, ?_, ?_, ?_, trivial⟩
  · intro _
    refine ⟨?_, ?_⟩
    · intro data _ _ hgap
      exact hgap.1 rfl
    · intro _
      rw [if_neg (by decide +kernel)]
      intro hcancel
      cases hcancel
  · intro _
    refine ⟨?_, ?_⟩
    · intro data hdata
      cases hdata
    · intro _
      rw [if_pos (by decide +kernel)]
      exact ⟨hsaved, rfl, by decide +kernel⟩
  · intro _
    refine ⟨?_, ?_⟩
    · intro data _ _ hgap
      exact hgap.1 (by decide +kernel)
    · intro _
      rw [if_neg (by decide +kernel)]
      intro hcancel
      cases hcancel
  · intro _ _
    exact ⟨hsaved, rfl, by decide +kernel⟩

/-- The same page is acknowledged at the end though its save failed. -/
theorem not_flashAcksStored :
    ¬∀ (wal : Wal) (sync : LocalSync) (hasLocalSync : Bool) (now : ℕ) (actions : List FlashAction),
      Lawful AckAllowed
        (actions.foldl FlashDrain.step (.start wal sync hasLocalSync now)).log := by
  intro h
  have hlawful := h pendant {} true 0
    [.turn { pages := [newestPage], now := 0 }, .finish 0 (.writeFailed 0 none)]
  have hstored := hlawful [.received newestPage] (.acknowledged 3) [] rfl newestPage
    List.mem_cons_self 3 rfl (Nat.le_refl 3) (by decide)
  obtain ⟨wal, file, frames, hmem, -⟩ := hstored
  simp at hmem

end Omi.Wals
