import Omi.Pendant.FlashDrain

/-! What an acknowledgement of the native drain promises, and where the two dialects agree. -/
namespace Omi.Pendant
open Omi.Foundation

/-! ### The promise -/

/-- Every page that the acknowledgement covers was appended and made durable, and no fsync of a
close or of the barrier failed for it. -/
def DrainAck.Safe (ack : DrainAck) : Prop :=
  ∀ page ∈ ack.delivered, page.index ≤ ack.upTo →
    page.ticket ∈ ack.writer.durable ∧ page.ticket ∉ ack.writer.failed

/-- Nor did a periodic fsync. -/
def DrainAck.Undoubted (ack : DrainAck) : Prop :=
  ∀ page ∈ ack.delivered, page.index ≤ ack.upTo → page.ticket ∉ ack.writer.doubtful

namespace FlashDrainEngine

/-! ### What keeps it -/

/-- The parser leaves no audio page out, and a page that cannot be appended lies above all that
have been. -/
def CarefulDelivery (engine : FlashDrainEngine) (answer : PageAnswer) : Delivery → Prop
  | .unparsed index => index = none
  | .page page => page.opusFrames ≠ [] →
    (engine.writer.append engine.nextTicket page.opusFrames page.timestampMs
      answer.append).2 = false → ∀ index ∈ page.index, engine.lastAppendedPageIndex < index

instance (engine : FlashDrainEngine) (answer : PageAnswer) (delivery : Delivery) :
    Decidable (engine.CarefulDelivery answer delivery) :=
  match delivery with
  | .unparsed index => inferInstanceAs (Decidable (index = none))
  | .page page => inferInstanceAs (Decidable (page.opusFrames ≠ [] →
      (engine.writer.append engine.nextTicket page.opusFrames page.timestampMs
        answer.append).2 = false → ∀ index ∈ page.index, engine.lastAppendedPageIndex < index))

/-- Besides, a page whose append or barrier fails is the last of its message. -/
def CarefulDeliveries (dialect : Dialect) :
    FlashDrainEngine → (ℕ → PageAnswer) → List Delivery → Prop
  | _, _, [] => True
  | engine, answers, delivery :: rest =>
    engine.CarefulDelivery (answers 0) delivery ∧
    ((engine.processDelivery dialect delivery (answers 0)).2 = false → rest = []) ∧
    CarefulDeliveries dialect (engine.processDelivery dialect delivery (answers 0)).1
      (fun n => answers (n + 1)) rest

instance decidableCarefulDeliveries (dialect : Dialect) :
    ∀ (engine : FlashDrainEngine) (answers : ℕ → PageAnswer) (deliveries : List Delivery),
      Decidable (CarefulDeliveries dialect engine answers deliveries)
  | _, _, [] => isTrue trivial
  | engine, answers, delivery :: rest =>
    @instDecidableAnd _ _ inferInstance
      (@instDecidableAnd _ _ inferInstance
        (decidableCarefulDeliveries dialect (engine.processDelivery dialect delivery (answers 0)).1
          (fun n => answers (n + 1)) rest))

def Careful (dialect : Dialect) (engine : FlashDrainEngine) :
    DrainAction → Prop
  | .packet notification answers =>
    ∀ complete, (engine.receive dialect notification).2 = some complete →
      (engine.receive dialect notification).1.phase = .draining →
      (engine.receive dialect notification).1.CarefulDeliveries dialect answers
        (deliveriesOf dialect complete)
  | _ => True

instance (dialect : Dialect) (engine : FlashDrainEngine) (action : DrainAction) :
    Decidable (engine.Careful dialect action) :=
  match action with
  | .packet notification answers => inferInstanceAs (Decidable
      (∀ complete ∈ (engine.receive dialect notification).2,
        (engine.receive dialect notification).1.phase = .draining →
          (engine.receive dialect notification).1.CarefulDeliveries dialect answers
            (deliveriesOf dialect complete)))
  | .onDeviceReady _ | .onDeviceDisconnected _ | .stop | .stopWriter _ | .runCycle _ _
  | .statusTimeout | .stallCheck _ _ => isTrue trivial

/-- No periodic fsync fails. -/
def PeriodicSynced (_ : FlashDrainEngine) : DrainAction → Prop
  | .packet _ answers => ∀ n, (answers n).append.periodicSynced
  | _ => True

/-! ### The watermark -/

variable {engine : FlashDrainEngine}

/-- The pages delivered in the drain. -/
def Pages (engine : FlashDrainEngine) (ticket : ℕ) : Prop :=
  ∃ page ∈ engine.delivered, page.ticket = ticket

/-- Those an acknowledgement would cover. -/
def Owed (engine : FlashDrainEngine) (ticket : ℕ) : Prop :=
  ∃ page ∈ engine.delivered, page.ticket = ticket ∧ page.index ≤ engine.lastAppendedPageIndex

structure Sound (engine : FlashDrainEngine) : Prop where
  writer : engine.writer.Sound engine.nextTicket
  acks : ∀ ack ∈ engine.acks, ack.Safe

/-- While a drain runs the writer covers all its pages. -/
structure Safe (engine : FlashDrainEngine) : Prop where
  sound : Sound engine
  covers : engine.phase = .draining → engine.writer.Covers engine.Pages

theorem covers_owed (h : engine.writer.Covers engine.Pages) : engine.writer.Covers engine.Owed := by
  refine h.imp_right fun hall ticket howed => ?_
  obtain ⟨page, hmem, hticket, -⟩ := howed
  exact hall ticket ⟨page, hmem, hticket⟩

/-- What `ackWritten` does to the books. -/
structure Acked (engine : FlashDrainEngine) (result : FlashDrainEngine × Bool) : Prop where
  sound : Sound result.1
  covers : result.2 → engine.writer.Covers engine.Pages → result.1.writer.Covers result.1.Pages
  rolledBack : result.2 = false → result.1.lastAppendedPageIndex ≤ result.1.lastAckedPageIndex

theorem ackWritten_spec (h : Sound engine)
    (howed : engine.lastAckedPageIndex < engine.lastAppendedPageIndex →
      engine.writer.Covers engine.Owed) (answer : SyncAnswer) :
    Acked engine (engine.ackWritten answer) := by
  unfold ackWritten
  split_ifs with haddress hdone
  · exact ⟨h, fun _ hall => hall, fun hfail => by cases hfail⟩
  · exact ⟨h, fun _ hall => hall, fun hfail => by cases hfail⟩
  · have hcovers := howed (Int.not_le.1 hdone)
    have hspec := BatchWriter.sync_spec h.writer hcovers answer
    cases hsync : engine.writer.sync answer with
    | mk writer ok =>
      rw [hsync] at hspec
      cases ok with
      | false => exact ⟨⟨hspec.1, h.acks⟩, fun hok => (by cases hok),
          fun _ => Int.le_refl engine.lastAckedPageIndex⟩
      | true =>
        obtain ⟨hwriter, hcovered⟩ := hspec
        refine ⟨⟨hwriter, ?_⟩, fun _ hall => ?_, fun hfail => by cases hfail⟩
        · intro ack hmem
          rcases List.mem_append.1 hmem with hold | hnew
          · exact h.acks ack hold
          · obtain rfl := List.mem_singleton.1 hnew
            intro page hpage hindex
            exact (hcovered rfl).2 page.ticket ⟨page, hpage, rfl, hindex⟩
        · have hpages := (BatchWriter.sync_spec h.writer hall answer).2
          rw [hsync] at hpages
          exact (hpages rfl).1

/-- What the end of a drain, or of a page, leaves behind. -/
structure Processed (result : FlashDrainEngine × Bool) : Prop where
  sound : Sound result.1
  covers : result.2 → result.1.writer.Covers result.1.Pages
  ended : result.2 = false → result.1.phase ≠ .draining

theorem finishDrain_sound (h : Sound engine)
    (howed : engine.lastAckedPageIndex < engine.lastAppendedPageIndex →
      engine.writer.Covers engine.Owed) (answer : SyncAnswer) :
    Sound (engine.finishDrain answer).1 ∧ (engine.finishDrain answer).1.phase ≠ .draining := by
  unfold finishDrain
  split_ifs with hphase
  · have hacked := (ackWritten_spec h howed answer).sound
    exact ⟨⟨hacked.writer, hacked.acks⟩, by simp⟩
  · exact ⟨h, hphase⟩

theorem finishDrain_spec (h : Sound engine) (hall : engine.writer.Covers engine.Pages)
    (answer : SyncAnswer) : Processed (engine.finishDrain answer) := by
  obtain ⟨hsound, hphase⟩ := finishDrain_sound h (fun _ => covers_owed hall) answer
  refine ⟨hsound, fun hok => ?_, fun _ => hphase⟩
  unfold finishDrain at hok ⊢
  split_ifs at hok ⊢ with hdraining
  · exact (ackWritten_spec h (fun _ => covers_owed hall) answer).covers hok hall
  · exact hall

theorem finishCaughtUp_spec (h : Sound engine) (hall : engine.writer.Covers engine.Pages)
    (answer : PageAnswer) : Processed (engine.finishCaughtUp answer) := by
  unfold finishCaughtUp
  split_ifs
  · exact finishDrain_spec h hall answer.finish
  · exact ⟨h, fun _ => hall, fun hfail => by cases hfail⟩

/-- A page that is appended raises the watermark; every twenty-five pages are acknowledged. -/
theorem pageAppended_spec (h : Sound engine) (hall : engine.writer.Covers engine.Pages)
    (index : ℤ) (answer : PageAnswer) : Processed (engine.pageAppended index answer) := by
  unfold pageAppended
  dsimp only
  let counted : FlashDrainEngine :=
    { engine with
      lastAppendedPageIndex := max engine.lastAppendedPageIndex index
      maxSeenPageIndex := max engine.maxSeenPageIndex index
      pagesSinceAck := engine.pagesSinceAck + 1 }
  have hcounted : Sound counted := ⟨h.writer, h.acks⟩
  have hcovers : counted.writer.Covers counted.Pages := hall
  split_ifs
  · have hspec := ackWritten_spec hcounted (fun _ => covers_owed hcovers) answer.barrier
    cases hack : counted.ackWritten answer.barrier with
    | mk acked ok =>
      rw [hack] at hspec
      cases ok with
      | false =>
        have hrolledBack := hspec.rolledBack rfl
        have hfinish := finishDrain_sound hspec.sound
          (fun hlt => absurd hrolledBack (Int.not_le.2 hlt)) answer.finish
        exact ⟨hfinish.1, fun hok => (by cases hok), fun _ => hfinish.2⟩
      | true => exact finishCaughtUp_spec hspec.sound (hspec.covers rfl hcovers) answer
  · exact finishCaughtUp_spec hcounted hcovers answer

theorem processFlashPage_spec (h : Sound engine) (hall : engine.writer.Covers engine.Pages)
    {dialect : Dialect} {page : DrainPage} {answer : PageAnswer}
    (hcareful : engine.CarefulDelivery answer (.page page)) :
    Processed (engine.processFlashPage dialect page answer) := by
  unfold processFlashPage
  dsimp only
  let seen : FlashDrainEngine := { engine with lastPageAtMs := answer.now }
  have hseen : Sound seen := ⟨h.writer, h.acks⟩
  have hcovers : seen.writer.Covers seen.Pages := hall
  cases hindex : page.index with
  | none => exact ⟨hseen, fun _ => hcovers, fun hfail => by cases hfail⟩
  | some index =>
    dsimp only
    split_ifs with hframes
    · exact pageAppended_spec hseen hcovers _ answer
    · have happend := BatchWriter.append_spec h.writer hall hframes page.timestampMs answer.append
      have hsplit (ticket : ℕ) (hpages : (seen.deliver index).Pages ticket) :
          engine.Pages ticket ∨ ticket = engine.nextTicket := by
        obtain ⟨delivered, hmem, rfl⟩ := hpages
        rcases List.mem_append.1 hmem with hold | hnew
        · exact .inl ⟨delivered, hold, rfl⟩
        · obtain rfl := List.mem_singleton.1 hnew
          exact .inr rfl
      have habove := hcareful hframes
      cases hwrite : engine.writer.append engine.nextTicket page.opusFrames page.timestampMs
          answer.append with
      | mk writer ok =>
        rw [hwrite] at happend habove
        let next : FlashDrainEngine := { seen.deliver index with writer := writer }
        have hnext : Sound next := ⟨happend.sound, h.acks⟩
        cases ok with
        | false =>
          -- The page that failed lies above the watermark of the last acknowledgement.
          have howed : next.writer.Covers next.Owed := by
            refine happend.covers.imp_right fun hold ticket howed => ?_
            obtain ⟨delivered, hmem, rfl, hle⟩ := howed
            rcases List.mem_append.1 hmem with hin | hnew
            · exact hold delivered.ticket ⟨delivered, hin, rfl⟩
            · obtain rfl := List.mem_singleton.1 hnew
              exact absurd hle (Int.not_le.2 (habove rfl index hindex))
          have hfinish := finishDrain_sound hnext (fun _ => howed) answer.finish
          exact ⟨hfinish.1, fun hok => (by cases hok), fun _ => hfinish.2⟩
        | true =>
          have hboth : next.writer.Covers next.Pages :=
            (happend.appended rfl).imp_right fun hold ticket hpages =>
              hold ticket (hsplit ticket hpages)
          exact pageAppended_spec hnext hboth _ answer

theorem processDelivery_spec (h : Sound engine) (hall : engine.writer.Covers engine.Pages)
    {dialect : Dialect} {delivery : Delivery} {answer : PageAnswer}
    (hcareful : engine.CarefulDelivery answer delivery) :
    Processed (engine.processDelivery dialect delivery answer) := by
  cases delivery with
  | page page => exact processFlashPage_spec h hall hcareful
  | unparsed index =>
    obtain rfl : index = none := hcareful
    exact ⟨h, fun _ => hall, fun hfail => by cases hfail⟩

/-- The pages of a message: where one fails, nothing of the message is left. -/
theorem safe_processDeliveries (h : Sound engine) (hall : engine.writer.Covers engine.Pages)
    {dialect : Dialect} {answers : ℕ → PageAnswer} {deliveries : List Delivery}
    (hcareful : engine.CarefulDeliveries dialect answers deliveries) :
    Safe (processDeliveries dialect engine answers deliveries) := by
  induction deliveries generalizing engine answers with
  | nil => exact ⟨h, fun _ => hall⟩
  | cons delivery rest ih =>
    obtain ⟨hdelivery, hlast, hrest⟩ := hcareful
    have hspec : Processed (engine.processDelivery dialect delivery (answers 0)) :=
      processDelivery_spec h hall hdelivery
    unfold processDeliveries
    cases hok : (engine.processDelivery dialect delivery (answers 0)).2 with
    | true => exact ih hspec.sound (hspec.covers hok) hrest
    | false =>
      rw [hlast hok]
      exact ⟨hspec.sound, fun hphase => absurd hphase (hspec.ended hok)⟩

theorem safe_receive (h : Safe engine) (dialect : Dialect) (notification : Notification) :
    Safe (engine.receive dialect notification).1 := by
  have hstarted : Safe (engine.receiveStatus dialect notification) := by
    unfold receiveStatus
    cases notification.status with
    | none => exact h
    | some state =>
      dsimp only
      split_ifs
      · unfold onStorageState
        dsimp only
        split_ifs
        · exact ⟨⟨h.sound.writer, h.sound.acks⟩, fun hphase => by cases hphase⟩
        · refine ⟨⟨h.sound.writer, h.sound.acks⟩, fun _ => .inr fun ticket hpages => ?_⟩
          obtain ⟨page, hmem, -⟩ := hpages
          exact absurd hmem List.not_mem_nil
      · exact h
  unfold receive
  dsimp only
  cases parseBlePacket dialect notification.data with
  | none => exact hstarted
  | some packet => exact ⟨⟨hstarted.sound.writer, hstarted.sound.acks⟩, hstarted.covers⟩

theorem safe_step (h : Safe engine) {dialect : Dialect}
    (action : DrainAction) (hcareful : engine.Careful dialect action) :
    Safe (engine.step dialect action) := by
  cases action with
  | onDeviceReady address => exact ⟨⟨h.sound.writer, h.sound.acks⟩, h.covers⟩
  | onDeviceDisconnected stopSynced =>
    have hwriter := BatchWriter.sound_close h.sound.writer stopSynced
    exact ⟨⟨hwriter, h.sound.acks⟩, fun hphase => by cases hphase⟩
  | stop => exact ⟨⟨h.sound.writer, h.sound.acks⟩, fun hphase => by cases hphase⟩
  | stopWriter synced =>
    have hwriter := BatchWriter.sound_close h.sound.writer synced
    refine ⟨⟨hwriter, h.sound.acks⟩, fun hphase => ?_⟩
    exact BatchWriter.covers_close h.sound.writer (h.covers hphase) synced
  | runCycle configured stopSynced =>
    simp only [step, runCycle]
    split_ifs with hbusy hconfigured
    · exact h
    · exact ⟨⟨h.sound.writer, h.sound.acks⟩, fun hphase => by cases hphase⟩
    · have hwriter := BatchWriter.sound_close h.sound.writer stopSynced
      refine ⟨⟨hwriter, h.sound.acks⟩, fun hphase => ?_⟩
      exact BatchWriter.covers_close h.sound.writer (h.covers hphase) stopSynced
  | statusTimeout =>
    simp only [step]
    split_ifs
    · exact ⟨⟨h.sound.writer, h.sound.acks⟩, fun hphase => by cases hphase⟩
    · exact h
  | packet notification answers =>
    have hreceived := safe_receive h dialect notification
    simp only [step, processPacket]
    cases hreceive : engine.receive dialect notification with
    | mk received complete =>
      rw [hreceive] at hreceived
      cases complete with
      | none => exact hreceived
      | some complete =>
        dsimp only
        split_ifs with hphase
        · have hdeliveries := hcareful complete (by rw [hreceive]) (by rw [hreceive]; exact hphase)
          rw [hreceive] at hdeliveries
          exact safe_processDeliveries hreceived.sound (hreceived.covers hphase) hdeliveries
        · exact hreceived
  | stallCheck now answer =>
    simp only [step, checkStall]
    split_ifs with hstall
    · have hphase : engine.phase = .draining := by
        rw [Bool.and_eq_true, decide_eq_true_eq] at hstall
        exact hstall.1
      have hfinish := finishDrain_sound h.sound (fun _ => covers_owed (h.covers hphase)) answer
      exact ⟨hfinish.1, fun hdraining => absurd hdraining hfinish.2⟩
    · exact h

/-! ### Periodic fsyncs -/

/-- No periodic fsync has failed, neither by now nor at an acknowledgement. -/
structure Clear (engine : FlashDrainEngine) : Prop where
  writer : engine.writer.doubtful = []
  acks : ∀ ack ∈ engine.acks, ack.writer.doubtful = []

theorem clear_ackWritten (h : Clear engine) (answer : SyncAnswer) :
    Clear (engine.ackWritten answer).1 := by
  unfold ackWritten
  split_ifs
  · exact h
  · exact h
  · have hsync := BatchWriter.doubtful_sync engine.writer answer
    rw [h.writer] at hsync
    cases hresult : engine.writer.sync answer with
    | mk writer ok =>
      rw [hresult] at hsync
      cases ok with
      | false => exact ⟨hsync, h.acks⟩
      | true =>
        refine ⟨hsync, fun ack hmem => ?_⟩
        rcases List.mem_append.1 hmem with hold | hnew
        · exact h.acks ack hold
        · obtain rfl := List.mem_singleton.1 hnew
          exact hsync

theorem clear_finishDrain (h : Clear engine) (answer : SyncAnswer) :
    Clear (engine.finishDrain answer).1 := by
  unfold finishDrain
  split_ifs
  · have hacked := clear_ackWritten h answer
    exact ⟨hacked.writer, hacked.acks⟩
  · exact h

theorem clear_finishCaughtUp (h : Clear engine) (answer : PageAnswer) :
    Clear (engine.finishCaughtUp answer).1 := by
  unfold finishCaughtUp
  split_ifs
  · exact clear_finishDrain h answer.finish
  · exact h

theorem clear_pageAppended (h : Clear engine) (index : ℤ) (answer : PageAnswer) :
    Clear (engine.pageAppended index answer).1 := by
  unfold pageAppended
  dsimp only
  let counted : FlashDrainEngine :=
    { engine with
      lastAppendedPageIndex := max engine.lastAppendedPageIndex index
      maxSeenPageIndex := max engine.maxSeenPageIndex index
      pagesSinceAck := engine.pagesSinceAck + 1 }
  have hcounted : Clear counted := ⟨h.writer, h.acks⟩
  split_ifs
  · have hacked := clear_ackWritten hcounted answer.barrier
    cases hack : counted.ackWritten answer.barrier with
    | mk acked ok =>
      rw [hack] at hacked
      cases ok with
      | false => exact clear_finishDrain hacked answer.finish
      | true => exact clear_finishCaughtUp hacked answer
  · exact clear_finishCaughtUp hcounted answer

theorem clear_processDelivery (h : Clear engine) {dialect : Dialect} (delivery : Delivery)
    {answer : PageAnswer} (hsynced : answer.append.periodicSynced) :
    Clear (engine.processDelivery dialect delivery answer).1 := by
  cases delivery with
  | unparsed index =>
    cases index with
    | none => exact h
    | some index => exact ⟨h.writer, h.acks⟩
  | page page =>
    have hseen : Clear { engine with lastPageAtMs := answer.now } := ⟨h.writer, h.acks⟩
    simp only [processDelivery, processFlashPage]
    cases page.index with
    | none => exact hseen
    | some index =>
      dsimp only
      split_ifs
      · exact clear_pageAppended hseen _ answer
      · have happend := BatchWriter.doubtful_append engine.writer engine.nextTicket
          page.opusFrames page.timestampMs hsynced
        rw [h.writer] at happend
        cases hwrite : engine.writer.append engine.nextTicket page.opusFrames page.timestampMs
            answer.append with
        | mk writer ok =>
          rw [hwrite] at happend
          have hnext : Clear
              { ({ engine with lastPageAtMs := answer.now }.deliver index) with
                writer := writer } := ⟨happend, h.acks⟩
          cases ok with
          | false => exact clear_finishDrain hnext answer.finish
          | true => exact clear_pageAppended hnext _ answer

theorem clear_processDeliveries (h : Clear engine) {dialect : Dialect} {answers : ℕ → PageAnswer}
    (hsynced : ∀ n, (answers n).append.periodicSynced) (deliveries : List Delivery) :
    Clear (processDeliveries dialect engine answers deliveries) := by
  induction deliveries generalizing engine answers with
  | nil => exact h
  | cons delivery rest ih =>
    exact ih (clear_processDelivery h delivery (hsynced 0)) fun n => hsynced (n + 1)

theorem clear_receive (h : Clear engine) (dialect : Dialect) (notification : Notification) :
    Clear (engine.receive dialect notification).1 := by
  have hstarted : Clear (engine.receiveStatus dialect notification) := by
    unfold receiveStatus
    cases notification.status with
    | none => exact h
    | some state =>
      dsimp only [onStorageState]
      split_ifs
      · exact ⟨h.writer, h.acks⟩
      · exact ⟨h.writer, h.acks⟩
      · exact h
  unfold receive
  dsimp only
  cases parseBlePacket dialect notification.data with
  | none => exact hstarted
  | some packet => exact ⟨hstarted.writer, hstarted.acks⟩

theorem clear_step (h : Clear engine) {dialect : Dialect}
    (action : DrainAction) (hsynced : engine.PeriodicSynced action) :
    Clear (engine.step dialect action) := by
  have hclosed (synced : Bool) : (engine.writer.closeCurrentLocked synced).doubtful = [] := by
    rw [BatchWriter.doubtful_close]
    exact h.writer
  cases action with
  | onDeviceReady address => exact ⟨h.writer, h.acks⟩
  | onDeviceDisconnected stopSynced => exact ⟨hclosed stopSynced, h.acks⟩
  | stop => exact ⟨h.writer, h.acks⟩
  | stopWriter synced => exact ⟨hclosed synced, h.acks⟩
  | runCycle configured stopSynced =>
    simp only [step, runCycle]
    split_ifs
    · exact h
    · exact ⟨h.writer, h.acks⟩
    · exact ⟨hclosed stopSynced, h.acks⟩
  | statusTimeout =>
    simp only [step]
    split_ifs
    · exact ⟨h.writer, h.acks⟩
    · exact h
  | packet notification answers =>
    have hreceived := clear_receive h dialect notification
    simp only [step, processPacket]
    cases hreceive : engine.receive dialect notification with
    | mk received complete =>
      rw [hreceive] at hreceived
      cases complete with
      | none => exact hreceived
      | some complete =>
        dsimp only
        split_ifs
        · exact clear_processDeliveries hreceived hsynced (deliveriesOf dialect complete)
        · exact hreceived
  | stallCheck now answer =>
    simp only [step, checkStall]
    split_ifs
    · exact clear_finishDrain h answer
    · exact h

end FlashDrainEngine
end Omi.Pendant
