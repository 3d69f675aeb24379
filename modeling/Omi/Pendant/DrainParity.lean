import Omi.Pendant.DrainAcks
import Omi.Pendant.RoundTrip

/-! Whole runs of the native drain: what its acknowledgements promise, and where the engines of
the two platforms send the same. -/
namespace Omi.Pendant
open Omi.Foundation

/-! ### The two platforms -/

/-- The value is an integer of 32 bits. -/
def Fits32 (value : ℤ) : Prop := -2147483648 ≤ value ∧ value < 2147483648

instance (value : ℤ) : Decidable (Fits32 value) := inferInstanceAs (Decidable (_ ∧ _))

theorem toInt_kotlin {value : ℤ} (h : Fits32 value) : Dialect.kotlin.toInt value = value := by
  obtain ⟨hlow, hhigh⟩ := h
  show Dialect.wrap32 value = value
  have hwrap : value.bmod (2 * 2147483648) = value := bmod_eq_self hlow hhigh
  unfold Dialect.wrap32
  exact hwrap

namespace FlashDrainEngine

/-- The storage state fits 32 bits and the two parsers read the same, with page indices that fit
as well. On some malformed bytes, where the sum of a position and a length wraps, the Kotlin
parser does not end; here it ends for want of fuel. Bytes as the pendant writes them are read
alike (`readsAlike_of_encoded`). -/
structure ReadsAlike (engine : FlashDrainEngine) (notification : Notification) : Prop where
  status : ∀ state ∈ notification.status, Fits32 state.oldestFlashPage ∧
    Fits32 state.newestFlashPage ∧ Fits32 (state.newestFlashPage - state.oldestFlashPage + 1)
  packet : parseBlePacket .kotlin notification.data = parseBlePacket .swift notification.data
  deliveries : ∀ complete, (engine.receive .swift notification).2 = some complete →
    deliveriesOf .kotlin complete = deliveriesOf .swift complete ∧
    ∀ page, .page page ∈ deliveriesOf .swift complete → ∀ index ∈ page.index, Fits32 index

def Alike (engine : FlashDrainEngine) : DrainAction → Prop
  | .packet notification _ => engine.ReadsAlike notification
  | _ => True

variable {engine : FlashDrainEngine}

theorem onStorageState_alike {state : StorageState}
    (h : Fits32 state.oldestFlashPage ∧ Fits32 state.newestFlashPage ∧
      Fits32 (state.newestFlashPage - state.oldestFlashPage + 1)) (now : ℤ) :
    engine.onStorageState .kotlin state now = engine.onStorageState .swift state now := by
  obtain ⟨holdest, hnewest, hcount⟩ := h
  unfold onStorageState
  rw [toInt_kotlin holdest, toInt_kotlin hnewest]
  dsimp only
  rw [toInt_kotlin hcount]
  rfl

theorem receive_alike {notification : Notification} (h : engine.ReadsAlike notification) :
    engine.receive .kotlin notification = engine.receive .swift notification := by
  have hstatus : engine.receiveStatus .kotlin notification =
      engine.receiveStatus .swift notification := by
    unfold receiveStatus
    cases hstate : notification.status with
    | none => rfl
    | some state =>
      dsimp only
      rw [onStorageState_alike (h.status state hstate)]
  unfold receive
  rw [hstatus, h.packet]

theorem processDelivery_alike {delivery : Delivery}
    (h : ∀ page, delivery = .page page → ∀ index ∈ page.index, Fits32 index)
    (answer : PageAnswer) :
    engine.processDelivery .kotlin delivery answer =
      engine.processDelivery .swift delivery answer := by
  cases delivery with
  | unparsed index => cases index <;> rfl
  | page page =>
    show engine.processFlashPage .kotlin page answer = engine.processFlashPage .swift page answer
    unfold processFlashPage
    cases hindex : page.index with
    | none => rfl
    | some index =>
      dsimp only
      rw [toInt_kotlin (h page rfl index hindex)]
      rfl

theorem processDeliveries_alike {deliveries : List Delivery}
    (h : ∀ page, .page page ∈ deliveries → ∀ index ∈ page.index, Fits32 index)
    (answers : ℕ → PageAnswer) :
    processDeliveries .kotlin engine answers deliveries =
      processDeliveries .swift engine answers deliveries := by
  induction deliveries generalizing engine answers with
  | nil => rfl
  | cons delivery rest ih =>
    have hfirst : engine.processDelivery .kotlin delivery (answers 0) =
        engine.processDelivery .swift delivery (answers 0) :=
      processDelivery_alike (fun page hpage => h page (hpage ▸ List.mem_cons_self)) (answers 0)
    unfold processDeliveries
    rw [hfirst]
    exact ih (fun page hmem => h page (List.mem_cons_of_mem _ hmem)) _

theorem step_alike (action : DrainAction) (h : engine.Alike action) :
    engine.step .kotlin action = engine.step .swift action := by
  cases action with
  | packet notification answers =>
    have hreceive := receive_alike h
    have hdeliveries := h.deliveries
    show engine.processPacket .kotlin notification answers =
      engine.processPacket .swift notification answers
    unfold processPacket
    rw [hreceive]
    cases hswift : engine.receive .swift notification with
    | mk received complete =>
      cases complete with
      | none => rfl
      | some complete =>
        obtain ⟨hsame, hfits⟩ := hdeliveries complete (by rw [hswift])
        dsimp only
        rw [hsame, processDeliveries_alike hfits]
  | _ => rfl

/-! ### Bytes that are read alike -/

end FlashDrainEngine

/-- What both engines see of a page. -/
def StoredPage.delivery (stored : StoredPage) : Delivery :=
  if stored.page.surfaces then
    .page ⟨some stored.index.val, stored.page.timestampMs.val, stored.page.opusFrames⟩
  else .unparsed (some stored.index.val)

theorem deliveryOf_encode {dialect : Dialect} {bound : ℕ} (hlaw : dialect.Lawful bound)
    {stored : StoredPage} (hsize : stored.encode.length < bound) (hindex : stored.index.val < bound) :
    deliveryOf dialect stored.encode = some stored.delivery := by
  have hread := readStorageBuffer_encode hlaw hsize
  have hparse := parseStorageBuffer_encode hlaw hsize hindex
  unfold deliveryOf StoredPage.delivery
  rw [hread, hparse]
  dsimp only
  by_cases hsurfaces : stored.page.surfaces = true
  · rw [if_pos hsurfaces, if_pos hsurfaces]
    rfl
  · rw [if_neg hsurfaces, if_neg hsurfaces]
    simp [StorageFields.lost, stored.page.encode_ne_nil]

theorem deliveriesOf_encode {dialect : Dialect} {bound : ℕ} (hlaw : dialect.Lawful bound)
    {pages : List StoredPage} (hsize : (encodePages pages).length < bound)
    (hindex : ∀ stored ∈ pages, stored.index.val < bound) :
    deliveriesOf dialect (encodePages pages) = pages.map StoredPage.delivery := by
  rw [deliveriesOf, storageBuffers_encode hlaw hsize, List.filterMap_map, ← List.filterMap_eq_map]
  refine List.filterMap_congr fun stored hmem => ?_
  exact deliveryOf_encode hlaw ((length_le_encodePages hmem).trans_lt hsize) (hindex stored hmem)

namespace FlashDrainEngine
variable {engine : FlashDrainEngine}

/-- The notification is a packet as the pendant writes it, the message that it completes, if any,
has whole pages, and every number and size in them fits 32 bits. -/
structure Encoded (engine : FlashDrainEngine) (notification : Notification) : Prop where
  status : ∀ state ∈ notification.status, Fits32 state.oldestFlashPage ∧
    Fits32 state.newestFlashPage ∧ Fits32 (state.newestFlashPage - state.oldestFlashPage + 1)
  packet : ∃ packet, notification.data = encodePacket packet ∧
    (encodePacket packet).length < 2147483648 ∧
    ∀ number ∈ [packet.index, packet.seq, packet.numFrags], 0 ≤ number ∧ number < 2147483648
  message : ∀ complete ∈ (engine.receive .swift notification).2, ∃ pages,
    complete = encodePages pages ∧ (encodePages pages).length < 2147483648 ∧
    ∀ stored ∈ pages, stored.index.val < 2147483648

theorem Encoded.of_read {notification : Notification} {packet : BlePacket}
    (pages : Option (List StoredPage))
    (hstatus : ∀ state ∈ notification.status, Fits32 state.oldestFlashPage ∧
      Fits32 state.newestFlashPage ∧ Fits32 (state.newestFlashPage - state.oldestFlashPage + 1))
    (hdata : notification.data = encodePacket packet)
    (hpacket : (encodePacket packet).length < 2147483648 ∧
      ∀ number ∈ [packet.index, packet.seq, packet.numFrags], 0 ≤ number ∧ number < 2147483648)
    (hread : (engine.receive .swift notification).2 = pages.map encodePages)
    (hpages : ∀ message ∈ pages, (encodePages message).length < 2147483648 ∧
      ∀ stored ∈ message, stored.index.val < 2147483648) : engine.Encoded notification where
  status := hstatus
  packet := ⟨packet, hdata, hpacket⟩
  message := by
    intro complete hcomplete
    rw [hread] at hcomplete
    obtain ⟨message, hmessage, rfl⟩ := Option.map_eq_some_iff.mp hcomplete
    exact ⟨message, rfl, hpages message hmessage⟩

/-- Both parsers read such a notification alike. -/
theorem readsAlike_of_encoded {notification : Notification} (h : engine.Encoded notification) :
    engine.ReadsAlike notification where
  status := h.status
  packet := by
    obtain ⟨packet, hdata, hsize, hnumbers⟩ := h.packet
    simp only [List.forall_mem_cons, List.not_mem_nil, false_implies, implies_true,
      and_true] at hnumbers
    obtain ⟨hindex, hseq, hnum⟩ := hnumbers
    have hread {dialect : Dialect} {bound : ℕ} (hlaw : dialect.Lawful bound)
        (hbound : 2147483648 ≤ bound) :
        parseBlePacket dialect (encodePacket packet) = some packet :=
      parseBlePacket_encode hlaw (by omega) (by omega) (by omega) (by omega)
    rw [hdata, hread Dialect.kotlin_lawful le_rfl, hread Dialect.swift_lawful (by norm_num)]
  deliveries := by
    intro complete hcomplete
    obtain ⟨pages, rfl, hsize, hindex⟩ := h.message complete hcomplete
    have hkotlin := deliveriesOf_encode Dialect.kotlin_lawful hsize hindex
    have hswift : deliveriesOf .swift (encodePages pages) = pages.map StoredPage.delivery :=
      deliveriesOf_encode Dialect.swift_lawful (hsize.trans (by norm_num))
        fun stored hmem => (hindex stored hmem).trans (by norm_num)
    rw [hkotlin, hswift]
    refine ⟨rfl, fun page hpage index hmem => ?_⟩
    obtain ⟨stored, hstored, hdelivery⟩ := List.mem_map.mp hpage
    have hfits := hindex stored hstored
    unfold StoredPage.delivery at hdelivery
    split_ifs at hdelivery
    cases hdelivery
    obtain rfl := Option.some.inj hmem
    constructor <;> omega

def EncodedAction (engine : FlashDrainEngine) : DrainAction → Prop
  | .packet notification _ => engine.Encoded notification
  | _ => True

theorem alike_of_encoded {action : DrainAction} (h : engine.EncodedAction action) :
    engine.Alike action := by
  cases action with
  | packet notification answers => exact readsAlike_of_encoded h
  | _ => trivial

/-! ### Whole runs -/

theorem safe_start : Safe {} where
  sound := ⟨⟨fun hne => absurd rfl hne, fun _ hmem => absurd hmem List.not_mem_nil,
    fun _ hmem => absurd hmem List.not_mem_nil⟩, fun _ hmem => absurd hmem List.not_mem_nil⟩
  covers hphase := by cases hphase

theorem safe_run {dialect : Dialect} {events : List DrainAction}
    (hcareful : EveryStep (step dialect) (Careful dialect) {} events) :
    Safe (events.foldl (step dialect) {}) :=
  hcareful.invariant safe_start fun _ event h => safe_step h event

theorem clear_run {dialect : Dialect} {events : List DrainAction}
    (hsynced : EveryStep (step dialect) PeriodicSynced {} events) :
    Clear (events.foldl (step dialect) {}) :=
  hsynced.invariant ⟨rfl, fun _ hmem => absurd hmem List.not_mem_nil⟩
    fun _ event h => clear_step h event

theorem acks_alike_run {events : List DrainAction}
    (halike : EveryStep (step .swift) Alike {} events) :
    (events.foldl (step .kotlin) {}).acks = (events.foldl (step .swift) {}).acks := by
  rw [halike.foldl_eq fun _ event h => step_alike event h]

/-- Where every packet is as the pendant writes it, the two engines send the same. -/
theorem acks_encoded_run {events : List DrainAction}
    (hencoded : EveryStep (step .swift) EncodedAction {} events) :
    (events.foldl (step .kotlin) {}).acks = (events.foldl (step .swift) {}).acks :=
  acks_alike_run (hencoded.imp fun _ _ h => alike_of_encoded h)

end FlashDrainEngine

open FlashDrainEngine

/-- Acknowledgements cover only durable pages while no audio page is left out and failures end
their message; no page that a periodic fsync failed for where none fails; and the two engines
send the same where they read the same. -/
theorem flashDrainAcks (dialect : Dialect) (events : List DrainAction) :
    (EveryStep (step dialect) (Careful dialect) {} events →
      ∀ ack ∈ (events.foldl (step dialect) {}).acks, ack.Safe) ∧
    (EveryStep (step dialect) PeriodicSynced {} events →
      ∀ ack ∈ (events.foldl (step dialect) {}).acks, ack.Undoubted) ∧
    (EveryStep (step .swift) Alike {} events →
      (events.foldl (step .kotlin) {}).acks = (events.foldl (step .swift) {}).acks) := by
  refine ⟨fun hcareful => (safe_run hcareful).sound.acks, ?_, acks_alike_run⟩
  intro hsynced ack hmem page _ _
  rw [(clear_run hsynced).acks ack hmem]
  exact List.not_mem_nil

/-- Two pages in a message of two fragments. The append of the second page fails, and a second
drain brings it again. -/
def twoPages : List StoredPage := [{ onePage with index := ⟨6, by decide⟩ }, onePage]

def secondPageAgain : List DrainAction :=
  [.onDeviceReady "pendant", .runCycle true true,
    .packet { data := encodePacket ⟨1, 0, 1, []⟩, status := some ⟨6, 7⟩ } fun _ => {},
    .packet { data := encodePacket ⟨2, 0, 2, (encodePages twoPages).take 20⟩ } fun _ => {},
    .packet { data := encodePacket ⟨2, 1, 2, (encodePages twoPages).drop 20⟩ } fun page =>
      if page = 1 then { append := { write := .failed 0 true } } else {},
    .runCycle true true,
    .packet { data := encodePacket ⟨3, 0, 1, []⟩, status := some ⟨7, 7⟩ } fun _ => {},
    .packet { data := encodePacket ⟨4, 0, 1, encodePages [onePage]⟩ } fun _ => {}]

theorem flashDrainAcks_secondPageAgain :
    let acks := (secondPageAgain.foldl (step .kotlin) {}).acks
    acks.map DrainAck.upTo = [6, 7] ∧ (∀ ack ∈ acks, ack.Safe) ∧ (∀ ack ∈ acks, ack.Undoubted) ∧
      acks = (secondPageAgain.foldl (step .swift) {}).acks := by
  intro acks
  obtain ⟨hsafe, hclear, halike⟩ := flashDrainAcks .kotlin secondPageAgain
  refine ⟨by decide +kernel, hsafe (by decide +kernel), hclear ?_, halike ?_⟩
  · refine ⟨trivial, trivial, fun _ => rfl, fun _ => rfl, fun page => ?_, trivial, fun _ => rfl,
      fun _ => rfl, trivial⟩
    dsimp only
    split_ifs <;> rfl
  · have hencoded : EveryStep (step .swift) EncodedAction {} secondPageAgain := by
      refine ⟨trivial, trivial, ?_, ?_, ?_, trivial, ?_, ?_, trivial⟩
      · exact Encoded.of_read (some []) (by decide) rfl (by decide +kernel) (by decide +kernel)
          (by decide +kernel)
      · exact Encoded.of_read none (by decide) rfl (by decide +kernel) (by decide +kernel)
          (by decide)
      · exact Encoded.of_read (some twoPages) (by decide) rfl (by decide +kernel)
          (by decide +kernel) (by decide +kernel)
      · exact Encoded.of_read (some []) (by decide) rfl (by decide +kernel) (by decide +kernel)
          (by decide +kernel)
      · exact Encoded.of_read (some [onePage]) (by decide) rfl (by decide +kernel)
          (by decide +kernel) (by decide +kernel)
    exact hencoded.imp fun _ _ h => alike_of_encoded h

/-- One message with an audio page at index 3 that yields no frame and a diagnostic page at
index 5. -/
def unparsedThenDiagnostic : Bytes :=
  [0x08, 0x01, 0x10, 0x00, 0x18, 0x01, 0x22, 0x16,
    0x12, 0x0c, 0x28, 0x03, 0x32, 0x08, 0x08, 0x01, 0x1a, 0x04, 0x12, 0x02, 0x00, 0x00,
    0x12, 0x06, 0x28, 0x05, 0x32, 0x02, 0x08, 0x01]

/-- The page that could not be read is acknowledged with the one after it. -/
theorem not_flashDrainAcks : ¬ ∀ events : List DrainAction,
    ∀ ack ∈ (events.foldl (step .kotlin) {}).acks, ack.Safe := by
  intro hsafe
  have hrun := hsafe [.onDeviceReady "pendant", .runCycle true true,
    .packet { status := some ⟨0, 5⟩ } fun _ => {},
    .packet { data := unparsedThenDiagnostic } fun _ => {}]
  unfold DrainAck.Safe at hrun
  revert hrun
  decide +kernel

end Omi.Pendant
