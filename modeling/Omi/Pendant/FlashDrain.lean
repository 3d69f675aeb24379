import Omi.Foundation.Runs
import Omi.Pendant.BatchWriter
import Omi.Pendant.Reassembly

/-! The native flash drain (`LimitlessFlashDrainEngine`, Kotlin and Swift): packets, pages and
acknowledgements, one event at a time. The two engines differ in the dialect of their parsers.
The device status is taken as parsed; commands other than the acknowledgement are left out. -/
namespace Omi.Pendant

/-! ### What arrives -/

/-- A flash page that the parser surfaces, with its index as it stands in the message. A
diagnostic page has no frames. -/
structure DrainPage where
  index : Option ℤ
  timestampMs : ℤ
  opusFrames : List Bytes
  deriving DecidableEq, Repr

/-- What a message delivers: pages, and storage buffers that the parser leaves out because it
cannot read their audio. -/
inductive Delivery where
  | page (surfaced : DrainPage)
  | unparsed (index : Option ℤ)
  deriving DecidableEq, Repr

/-- The audio of the page was there but is not surfaced. -/
def StorageFields.lost (fields : StorageFields) : Bool :=
  !fields.whole || fields.flashPageData.any fun pageData => pageData ≠ []

def deliveryOf (dialect : Dialect) (storageData : Bytes) : Option Delivery :=
  match readStorageBuffer dialect storageData with
  | none => some (.unparsed none)
  | some fields =>
    match parseStorageBuffer dialect storageData with
    | some page => some (.page ⟨fields.index, page.timestampMs, page.opusFrames⟩)
    | none => if fields.lost then some (.unparsed fields.index) else none

def deliveriesOf (dialect : Dialect) (payload : Bytes) : List Delivery :=
  (storageBuffers dialect payload).filterMap (deliveryOf dialect)

/-- The engine's part of a page that the parser surfaces. -/
def Delivery.surfaced (dialect : Dialect) : Delivery → Option (Option ℤ × ℤ × List Bytes)
  | .page surfaced =>
    some (surfaced.index.map dialect.toInt, surfaced.timestampMs, surfaced.opusFrames)
  | .unparsed _ => none

/-- The pages among the deliveries are those of `parsePendantMessage`. -/
theorem surfaced_deliveriesOf (dialect : Dialect) (payload : Bytes) :
    (deliveriesOf dialect payload).filterMap (Delivery.surfaced dialect) =
      (parsePendantMessage dialect payload).map fun page =>
        (page.index, page.timestampMs, page.opusFrames) := by
  rw [deliveriesOf, parsePendantMessage, List.filterMap_filterMap, List.map_filterMap]
  congr 1
  funext storageData
  unfold deliveryOf
  cases hparse : parseStorageBuffer dialect storageData with
  | none =>
    cases readStorageBuffer dialect storageData with
    | none => rfl
    | some fields =>
      dsimp only
      split_ifs <;> rfl
  | some page =>
    obtain ⟨fields, hread, hindex⟩ := index_of_parse hparse
    rw [hread]
    dsimp only [Option.bind_some, Delivery.surfaced, Option.map_some]
    rw [hindex]

structure StorageState where
  oldestFlashPage : ℤ
  newestFlashPage : ℤ
  deriving DecidableEq, Repr

/-- What happens while a page is processed: the clock, the append, the barrier after every
twenty-five pages and the one at the end of the drain. -/
structure PageAnswer where
  now : ℤ := 0
  append : AppendAnswer := {}
  barrier : SyncAnswer := {}
  finish : SyncAnswer := {}
  deriving DecidableEq, Repr

/-! ### The engine -/

inductive Phase where
  | idle
  | awaitingStatus
  | draining
  deriving DecidableEq, Repr

/-- An audio page the pendant delivered in the current drain. -/
structure Delivered where
  ticket : ℕ
  index : ℤ
  deriving DecidableEq, Repr

/-- An acknowledgement, with what had been delivered and written when it was sent. -/
structure DrainAck where
  upTo : ℤ
  delivered : List Delivered
  writer : BatchWriter
  deriving DecidableEq, Repr

structure FlashDrainEngine where
  phase : Phase := .idle
  deviceAddress : Option String := none
  fragmentBuffer : FragmentBuffer := []
  endPage : ℤ := 0
  maxSeenPageIndex : ℤ := -1
  lastAppendedPageIndex : ℤ := -1
  lastAckedPageIndex : ℤ := -1
  pagesSinceAck : ℕ := 0
  lastPageAtMs : ℤ := 0
  writer : BatchWriter := {}
  nextTicket : ℕ := 0
  delivered : List Delivered := []
  acks : List DrainAck := []
  deriving DecidableEq, Repr

namespace FlashDrainEngine

def stallMs : ℤ := 30000

def ackEveryPages : ℕ := 25

/-- The fsync barrier, then the acknowledgement of everything appended so far; `false` where the
barrier fails and the watermark rolls back. -/
def ackWritten (engine : FlashDrainEngine) (answer : SyncAnswer) : FlashDrainEngine × Bool :=
  if engine.deviceAddress = none then (engine, true)
  else if engine.lastAppendedPageIndex ≤ engine.lastAckedPageIndex then (engine, true)
  else
    match engine.writer.sync answer with
    | (writer, true) =>
      ({ engine with
          writer := writer
          acks := engine.acks ++ [⟨engine.lastAppendedPageIndex, engine.delivered, writer⟩]
          lastAckedPageIndex := engine.lastAppendedPageIndex
          pagesSinceAck := 0 }, true)
    | (writer, false) =>
      ({ engine with
          writer := writer
          lastAppendedPageIndex := engine.lastAckedPageIndex }, false)

/-- Whether the last barrier went well. -/
def finishDrain (engine : FlashDrainEngine) (answer : SyncAnswer) : FlashDrainEngine × Bool :=
  if engine.phase = .draining then
    let (acked, ok) := engine.ackWritten answer
    ({ acked with phase := .idle }, ok)
  else (engine, true)

/-- The pendant has delivered an audio page. -/
def deliver (engine : FlashDrainEngine) (index : ℤ) : FlashDrainEngine :=
  { engine with
    nextTicket := engine.nextTicket + 1
    delivered := engine.delivered ++ [⟨engine.nextTicket, index⟩] }

def finishCaughtUp (engine : FlashDrainEngine) (answer : PageAnswer) : FlashDrainEngine × Bool :=
  if engine.endPage ≤ engine.maxSeenPageIndex then engine.finishDrain answer.finish
  else (engine, true)

/-- `processFlashPage` once the page is appended. -/
def pageAppended (engine : FlashDrainEngine) (index : ℤ) (answer : PageAnswer) :
    FlashDrainEngine × Bool :=
  let counted :=
    { engine with
      lastAppendedPageIndex := max engine.lastAppendedPageIndex index
      maxSeenPageIndex := max engine.maxSeenPageIndex index
      pagesSinceAck := engine.pagesSinceAck + 1 }
  if ackEveryPages ≤ counted.pagesSinceAck then
    match counted.ackWritten answer.barrier with
    | (failed, false) => ((failed.finishDrain answer.finish).1, false)
    | (acked, true) => acked.finishCaughtUp answer
  else counted.finishCaughtUp answer

/-- `processFlashPage`, whatever the phase; `false` where the append or a barrier fails. -/
def processFlashPage (dialect : Dialect) (engine : FlashDrainEngine) (page : DrainPage)
    (answer : PageAnswer) : FlashDrainEngine × Bool :=
  let seen := { engine with lastPageAtMs := answer.now }
  match page.index with
  | none => (seen, true)
  | some index =>
    if page.opusFrames = [] then seen.pageAppended (dialect.toInt index) answer
    else
      let delivered := seen.deliver index
      match seen.writer.append seen.nextTicket page.opusFrames page.timestampMs answer.append with
      | (writer, false) => (({ delivered with writer := writer }.finishDrain answer.finish).1, false)
      | (writer, true) =>
        { delivered with writer := writer }.pageAppended (dialect.toInt index) answer

/-- One page of a message. What the parser leaves out is not seen by the engine. -/
def processDelivery (dialect : Dialect) (engine : FlashDrainEngine) (delivery : Delivery)
    (answer : PageAnswer) : FlashDrainEngine × Bool :=
  match delivery with
  | .page page => engine.processFlashPage dialect page answer
  | .unparsed none => (engine, true)
  | .unparsed (some index) => (engine.deliver index, true)

/-- The pages of one message; the phase is not looked at again. -/
def processDeliveries (dialect : Dialect) :
    FlashDrainEngine → (ℕ → PageAnswer) → List Delivery → FlashDrainEngine
  | engine, _, [] => engine
  | engine, answers, delivery :: rest =>
    processDeliveries dialect (engine.processDelivery dialect delivery (answers 0)).1
      (fun n => answers (n + 1)) rest

/-- `onStorageState` while a status is awaited: a drain starts if there are pages. -/
def onStorageState (dialect : Dialect) (engine : FlashDrainEngine) (state : StorageState)
    (now : ℤ) : FlashDrainEngine :=
  let oldest := dialect.toInt state.oldestFlashPage
  let newest := dialect.toInt state.newestFlashPage
  let pageCount := dialect.toInt (newest - oldest + 1)
  if newest < oldest || pageCount ≤ 0 || engine.deviceAddress = none then
    { engine with phase := .idle }
  else
    { engine with
      fragmentBuffer := []
      endPage := newest
      maxSeenPageIndex := -1
      lastAppendedPageIndex := -1
      lastAckedPageIndex := -1
      pagesSinceAck := 0
      lastPageAtMs := now
      phase := .draining
      delivered := [] }

/-- A notification of the pendant, with the device status that it holds, if any. -/
structure Notification where
  data : Bytes := []
  status : Option StorageState := none
  now : ℤ := 0
  deriving DecidableEq, Repr

/-- The first part of `processPacket`: a status that is awaited starts a drain. -/
def receiveStatus (dialect : Dialect) (engine : FlashDrainEngine) (notification : Notification) :
    FlashDrainEngine :=
  match notification.status with
  | none => engine
  | some state =>
    if engine.phase = .awaitingStatus then engine.onStorageState dialect state notification.now
    else engine

/-- `processPacket` up to the message that it completes. -/
def receive (dialect : Dialect) (engine : FlashDrainEngine) (notification : Notification) :
    FlashDrainEngine × Option Bytes :=
  let started := engine.receiveStatus dialect notification
  match parseBlePacket dialect notification.data with
  | none => (started, none)
  | some packet =>
    let (buffer, complete) := receiveFragment started.fragmentBuffer packet
    ({ started with fragmentBuffer := buffer }, complete)

/-- `processPacket`. -/
def processPacket (dialect : Dialect) (engine : FlashDrainEngine) (notification : Notification)
    (answers : ℕ → PageAnswer) : FlashDrainEngine :=
  match engine.receive dialect notification with
  | (received, none) => received
  | (received, some complete) =>
    if received.phase = .draining then
      processDeliveries dialect received answers (deliveriesOf dialect complete)
    else received

/-- A cycle asks for the device status; without a configuration the writer is stopped. -/
def runCycle (engine : FlashDrainEngine) (configured : Bool) (stopSynced : Bool) :
    FlashDrainEngine :=
  if engine.deviceAddress = none || engine.phase ≠ .idle then engine
  else if configured then { engine with phase := .awaitingStatus }
  else { engine with writer := engine.writer.closeCurrentLocked stopSynced }

def resetDrainState (engine : FlashDrainEngine) : FlashDrainEngine :=
  { engine with fragmentBuffer := [], phase := .idle }

/-- The end of the drain when no page has come for too long. -/
def checkStall (engine : FlashDrainEngine) (now : ℤ) (answer : SyncAnswer) : FlashDrainEngine :=
  if engine.phase = .draining && stallMs < now - engine.lastPageAtMs then
    (engine.finishDrain answer).1
  else engine

end FlashDrainEngine

/-- The events of the engine and of the writer it shares with other threads. -/
inductive DrainAction where
  | onDeviceReady (address : String)
  | onDeviceDisconnected (stopSynced : Bool)
  | stop
  | stopWriter (synced : Bool)
  | runCycle (configured stopSynced : Bool)
  | statusTimeout
  | packet (notification : FlashDrainEngine.Notification) (answers : ℕ → PageAnswer)
  | stallCheck (now : ℤ) (answer : SyncAnswer)

def FlashDrainEngine.step (dialect : Dialect) (engine : FlashDrainEngine) :
    DrainAction → FlashDrainEngine
  | .onDeviceReady address => { engine with deviceAddress := some address }
  | .onDeviceDisconnected stopSynced =>
    { engine.resetDrainState with
      deviceAddress := none
      writer := engine.writer.closeCurrentLocked stopSynced }
  | .stop => engine.resetDrainState
  | .stopWriter synced => { engine with writer := engine.writer.closeCurrentLocked synced }
  | .runCycle configured stopSynced => engine.runCycle configured stopSynced
  | .statusTimeout =>
    if engine.phase = .awaitingStatus then { engine with phase := .idle } else engine
  | .packet notification answers => engine.processPacket dialect notification answers
  | .stallCheck now answer => engine.checkStall now answer

end Omi.Pendant
