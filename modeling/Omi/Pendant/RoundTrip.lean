import Mathlib
import Omi.Pendant.FlashPages
import Omi.Pendant.Reassembly

/-! The wire format round trip: pages in storage buffers, in messages, in fragments that arrive
in any order. -/
namespace Omi.Pendant

/-! ### What the pendant sends -/

def encodePacket (packet : BlePacket) : Bytes :=
  encodeIntField 1 packet.index.toNat ++ encodeIntField 2 packet.seq.toNat ++
    encodeIntField 3 packet.numFrags.toNat ++ encodeBytesField 4 packet.payload

/-- A message with its storage buffers. -/
def encodePages (pages : List StoredPage) : Bytes :=
  encodeFields (pages.map fun stored => .bytes 2 stored.encode)

/-- A message and the fragments it is split into. -/
structure PendantMessage where
  index : ℕ
  pages : List StoredPage
  fragments : List Bytes
  sent : fragments ≠ []
  split : fragments.flatten = encodePages pages

namespace PendantMessage

def packets (message : PendantMessage) : List BlePacket :=
  message.fragments.mapIdx fun seq fragment =>
    ⟨message.index, seq, message.fragments.length, fragment⟩

/-- The pages that a parser is to surface. -/
def flashPages (dialect : Dialect) (message : PendantMessage) : List FlashPage :=
  (message.pages.filter fun stored => stored.page.surfaces).map (StoredPage.flashPage dialect)

/-- Its sizes and numbers are integers of the dialect. -/
structure Fits (bound : ℕ) (message : PendantMessage) : Prop where
  index : message.index < bound
  fragments : message.fragments.length < bound
  packets : ∀ packet ∈ message.packets, (encodePacket packet).length < bound
  payload : (encodePages message.pages).length < bound
  pages : ∀ stored ∈ message.pages, stored.index.val < bound

end PendantMessage

/-- The pages that a run of notifications gives. -/
def receiveAll (dialect : Dialect) : FragmentBuffer → List Bytes → List FlashPage
  | _, [] => []
  | buffer, data :: rest =>
    let (kept, pages) := handleNotification dialect buffer data
    pages ++ receiveAll dialect kept rest

/-! ### One message -/

theorem length_le_encodePages {pages : List StoredPage} {stored : StoredPage}
    (hmem : stored ∈ pages) : stored.encode.length ≤ (encodePages pages).length := by
  obtain ⟨before, after, rfl⟩ := List.append_of_mem hmem
  have hfield := length_encodeBytesField (2 : Fin 16).val stored.encode
  simp only [encodePages, encodeFields, List.map_append, List.map_cons, List.flatMap_append,
    List.flatMap_cons, List.length_append, WireField.encode]
  omega

section message
variable {dialect : Dialect} {bound : ℕ} (hlaw : dialect.Lawful bound)
include hlaw

theorem parseBlePacket_encode {packet : BlePacket}
    (hindex : 0 ≤ packet.index ∧ packet.index < bound)
    (hseq : 0 ≤ packet.seq ∧ packet.seq < bound)
    (hnum : 0 ≤ packet.numFrags ∧ packet.numFrags < bound)
    (hbound : (encodePacket packet).length < bound) :
    parseBlePacket dialect (encodePacket packet) = some packet := by
  have hsize := hlaw.bound_le
  have hint (value : ℤ) (h : 0 ≤ value ∧ value < bound) : dialect.toInt value = value := by
    have hnat := hlaw.toInt value.toNat (by omega)
    rwa [Int.toNat_of_nonneg h.1] at hnat
  let fields : List WireField :=
    [.int 1 ⟨packet.index.toNat, by omega⟩, .int 2 ⟨packet.seq.toNat, by omega⟩,
      .int 3 ⟨packet.numFrags.toNat, by omega⟩, .bytes 4 packet.payload]
  have hencode : encodePacket packet = encodeFields fields := by
    simp only [encodePacket, encodeFields, fields, List.flatMap_cons, List.flatMap_nil,
      List.append_nil, List.append_assoc]
    rfl
  have hfields := fieldsOf_encode hlaw (hencode ▸ hbound) ⟨4, dialect.packetOverrun, true⟩
  have hread : fields.filterMap (WireField.read 4) =
      [.varint 1 packet.index, .varint 2 packet.seq, .varint 3 packet.numFrags,
        .bytes packet.payload] := by
    have hi := Int.toNat_of_nonneg hindex.1
    have hs := Int.toNat_of_nonneg hseq.1
    have hn := Int.toNat_of_nonneg hnum.1
    show [Field.varint 1 packet.index.toNat, .varint 2 packet.seq.toNat,
      .varint 3 packet.numFrags.toNat, .bytes packet.payload] = _
    rw [hi, hs, hn]
  rw [hencode, parseBlePacket, hfields, hread]
  simp [lastVarint, bytesOf, hint _ hindex, hint _ hseq, hint _ hnum]

theorem storageBuffers_encode {pages : List StoredPage} (hsize : (encodePages pages).length < bound) :
    storageBuffers dialect (encodePages pages) = pages.map StoredPage.encode := by
  have hfields := fieldsOf_encode hlaw hsize ⟨2, fun _ => .stop, false⟩
  rw [storageBuffers, encodePages, hfields, bytesOf, List.filterMap_filterMap,
    List.filterMap_map, ← List.filterMap_eq_map]
  rfl

theorem parsePendantMessage_encode {message : PendantMessage} (hfits : message.Fits bound) :
    parsePendantMessage dialect (encodePages message.pages) = message.flashPages dialect := by
  have hbuffers := storageBuffers_encode hlaw hfits.payload
  have hparse (stored : StoredPage) (hmem : stored ∈ message.pages) :
      parseStorageBuffer dialect stored.encode =
        if stored.page.surfaces then some (stored.flashPage dialect) else none := by
    have hlength := length_le_encodePages hmem
    exact parseStorageBuffer_encode hlaw (hlength.trans_lt hfits.payload) (hfits.pages stored hmem)
  rw [parsePendantMessage, hbuffers, List.filterMap_map, PendantMessage.flashPages]
  have hcongr : message.pages.filterMap (parseStorageBuffer dialect ∘ StoredPage.encode) =
      message.pages.filterMap fun stored =>
        if stored.page.surfaces then some (stored.flashPage dialect) else none :=
    List.filterMap_congr hparse
  rw [hcongr, ← List.filterMap_eq_filter, List.map_filterMap]
  refine List.filterMap_congr fun stored _ => ?_
  by_cases hsurfaces : stored.page.surfaces
  · simp [hsurfaces, Option.guard]
  · simp [hsurfaces, Option.guard]

end message

/-! ### Fragments in any order -/

namespace PendantMessage
variable {message : PendantMessage} {done : List BlePacket}

theorem mem_packets {packet : BlePacket} : packet ∈ message.packets ↔
    ∃ (seq : ℕ) (hseq : seq < message.fragments.length), packet =
      ⟨message.index, seq, message.fragments.length, message.fragments[seq]⟩ := by
  rw [packets, List.mem_mapIdx]
  constructor
  · rintro ⟨seq, hseq, rfl⟩
    exact ⟨seq, hseq, rfl⟩
  · rintro ⟨seq, hseq, rfl⟩
    exact ⟨seq, hseq, rfl⟩

theorem index_of_mem {packet : BlePacket} (h : packet ∈ message.packets) :
    packet.index = message.index := by
  obtain ⟨seq, hseq, rfl⟩ := mem_packets.1 h
  rfl

theorem packets_nodup (message : PendantMessage) : message.packets.Nodup := by
  rw [List.Nodup, List.pairwise_iff_getElem]
  intro first second hfirst hsecond hlt heq
  have hseq := congrArg BlePacket.seq heq
  simp only [packets, List.getElem_mapIdx, Nat.cast_inj] at hseq
  omega

theorem length_packets (message : PendantMessage) :
    message.packets.length = message.fragments.length := List.length_mapIdx

theorem eq_of_seq {first second : BlePacket} (hfirst : first ∈ message.packets)
    (hsecond : second ∈ message.packets) (hseq : first.seq = second.seq) : first = second := by
  obtain ⟨seq, hlt, rfl⟩ := mem_packets.1 hfirst
  obtain ⟨seq', hlt', rfl⟩ := mem_packets.1 hsecond
  obtain rfl : seq = seq' := by simpa using hseq
  rfl

/-- The packets of the message among those that have arrived. -/
def arrived (message : PendantMessage) (done : List BlePacket) : List BlePacket :=
  done.filter fun packet => packet.index = message.index

/-- As many as it has fragments. -/
def Complete (done : List BlePacket) (message : PendantMessage) : Prop :=
  (message.arrived done).length = message.fragments.length

instance : Decidable (message.Complete done) := inferInstanceAs (Decidable (_ = _))

end PendantMessage

/-- Packets of the messages, none twice. -/
structure Arrivals (messages : List PendantMessage) (done : List BlePacket) : Prop where
  nodup : done.Nodup
  sent : ∀ packet ∈ done, ∃ message ∈ messages, packet ∈ message.packets

def fragmentOf (packet : BlePacket) : ℤ × Bytes := (packet.seq, packet.payload)

/-- What the buffer holds and which messages have been completed, in which order. -/
structure Progress (messages : List PendantMessage) (done : List BlePacket)
    (buffer : FragmentBuffer) (order : List PendantMessage) : Prop where
  entries : ∀ message ∈ messages, (getEntry buffer message.index).getD [] =
    if message.Complete done then [] else ((message.arrived done).map fragmentOf).reverse
  nodup : order.Nodup
  completed : ∀ message, message ∈ order ↔ message ∈ messages ∧ message.Complete done

section arrivals
variable {messages : List PendantMessage} {done : List BlePacket} {message : PendantMessage}
  (hindices : (messages.map PendantMessage.index).Nodup) (harrivals : Arrivals messages done)
  (hmessage : message ∈ messages)
include hindices harrivals hmessage

theorem mem_packets_of_arrived {packet : BlePacket} (hmem : packet ∈ message.arrived done) :
    packet ∈ message.packets := by
  obtain ⟨hdone, hindex⟩ := List.mem_filter.1 hmem
  obtain ⟨other, hother, hpacket⟩ := harrivals.sent packet hdone
  obtain ⟨seq, hseq, rfl⟩ := PendantMessage.mem_packets.1 hpacket
  have hsame : other.index = message.index := by simpa using hindex
  have heq : other = message := List.inj_on_of_nodup_map hindices hother hmessage hsame
  exact heq ▸ hpacket

theorem arrived_subperm : (message.arrived done).Subperm message.packets :=
  List.subperm_of_subset (harrivals.nodup.filter _) fun _ hmem =>
    mem_packets_of_arrived hindices harrivals hmessage hmem

/-- No two fragments of a message that have arrived share a number. -/
theorem arrived_keys_nodup :
    (((message.arrived done).map fragmentOf).reverse.map Prod.fst).Nodup := by
  rw [List.map_reverse, List.nodup_reverse, List.map_map]
  refine (harrivals.nodup.filter _).map_on ?_
  intro first hfirst second hsecond hseq
  exact PendantMessage.eq_of_seq (mem_packets_of_arrived hindices harrivals hmessage hfirst)
    (mem_packets_of_arrived hindices harrivals hmessage hsecond) hseq

theorem joinFragments_complete (hcomplete : message.Complete done) :
    joinFragments ((message.arrived done).map fragmentOf).reverse message.fragments.length =
      encodePages message.pages := by
  have hperm : (message.arrived done).Perm message.packets := by
    refine (arrived_subperm hindices harrivals hmessage).perm_of_length_le ?_
    rw [message.length_packets]
    exact hcomplete.ge
  have hentry (seq : ℕ) (hseq : seq < message.fragments.length) :
      getEntry ((message.arrived done).map fragmentOf).reverse seq =
        some message.fragments[seq] := by
    refine getEntry_of_mem (arrived_keys_nodup hindices harrivals hmessage) ?_
    rw [List.mem_reverse, List.mem_map]
    exact ⟨_, hperm.mem_iff.2 (PendantMessage.mem_packets.2 ⟨seq, hseq, rfl⟩), rfl⟩
  rw [← message.split, joinFragments, List.flatMap_def, Int.toNat_natCast]
  congr 1
  apply List.ext_getElem
  · rw [List.length_map, List.length_range]
  · intro seq _ hseq
    rw [List.getElem_map, List.getElem_range, hentry seq hseq]
    rfl

end arrivals

section reassembly
variable {messages : List PendantMessage} {done : List BlePacket} {packet : BlePacket}
  {buffer : FragmentBuffer} {order : List PendantMessage} {message : PendantMessage}

theorem arrived_concat_self (hindex : packet.index = message.index) :
    message.arrived (done ++ [packet]) = message.arrived done ++ [packet] := by
  rw [PendantMessage.arrived, List.filter_append, PendantMessage.arrived,
    List.filter_cons_of_pos (by simpa using hindex), List.filter_nil]

theorem arrived_concat_of_ne (hindex : packet.index ≠ message.index) :
    message.arrived (done ++ [packet]) = message.arrived done := by
  rw [PendantMessage.arrived, List.filter_append, PendantMessage.arrived,
    List.filter_cons_of_neg (by simpa using hindex), List.filter_nil, List.append_nil]

/-- A packet either completes its message, whose payload is then joined, or is kept. -/
theorem progress_receiveFragment (hindices : (messages.map PendantMessage.index).Nodup)
    (h : Progress messages done buffer order) (harrivals : Arrivals messages (done ++ [packet]))
    (hmessage : message ∈ messages) (hpacket : packet ∈ message.packets) :
    ((receiveFragment buffer packet).2 = none ∧
      Progress messages (done ++ [packet]) (receiveFragment buffer packet).1 order) ∨
    ((receiveFragment buffer packet).2 = some (encodePages message.pages) ∧
      Progress messages (done ++ [packet]) (receiveFragment buffer packet).1
        (order ++ [message])) := by
  have hindex := PendantMessage.index_of_mem hpacket
  have hnum : packet.numFrags = message.fragments.length := by
    obtain ⟨seq, hseq, rfl⟩ := PendantMessage.mem_packets.1 hpacket
    rfl
  have hself : message.arrived (done ++ [packet]) = message.arrived done ++ [packet] :=
    arrived_concat_self hindex
  have hother {other : PendantMessage} (hmem : other ∈ messages) (hne : other ≠ message) :
      packet.index ≠ other.index := by
    intro heq
    have hsame : other.index = message.index := by
      rw [hindex] at heq
      exact_mod_cast heq.symm
    exact hne (List.inj_on_of_nodup_map hindices hmem hmessage hsame)
  have hle : (message.arrived done).length + 1 ≤ message.fragments.length := by
    have hsubperm := (arrived_subperm hindices harrivals hmessage).length_le
    rw [hself, List.length_append, message.length_packets] at hsubperm
    exact hsubperm
  have hbefore : ¬ message.Complete done := by
    unfold PendantMessage.Complete
    omega
  have hentry := h.entries message hmessage
  rw [if_neg hbefore] at hentry
  have hput : putEntry ((getEntry buffer packet.index).getD []) packet.seq packet.payload =
      ((message.arrived (done ++ [packet])).map fragmentOf).reverse := by
    have hkeys := arrived_keys_nodup hindices harrivals hmessage
    rw [hself, List.map_append, List.reverse_append, List.map_append, List.nodup_append] at hkeys
    rw [hindex, hentry, hself, List.map_append, List.reverse_append, putEntry_fresh]
    · rfl
    · intro entry hmem heq
      exact hkeys.2.2 packet.seq (by simp [fragmentOf]) entry.1 (List.mem_map_of_mem hmem) heq.symm
  have hnodup : (order ++ [message]).Nodup := by
    rw [List.nodup_append]
    refine ⟨h.nodup, List.nodup_singleton _, ?_⟩
    intro other hmem _ hlast heq
    rw [heq, List.mem_singleton.1 hlast] at hmem
    exact hbefore ((h.completed message).1 hmem).2
  have hcomplete_other {other : PendantMessage} (hmem : other ∈ messages) (hne : other ≠ message) :
      other.Complete (done ++ [packet]) ↔ other.Complete done := by
    rw [PendantMessage.Complete, PendantMessage.Complete, arrived_concat_of_ne (hother hmem hne)]
  have hindex_other {other : PendantMessage} (hmem : other ∈ messages) (hne : other ≠ message) :
      (other.index : ℤ) ≠ packet.index := (hother hmem hne).symm
  unfold receiveFragment
  dsimp only
  rw [hput, List.length_reverse, List.length_map, hnum]
  by_cases hcomplete : message.Complete (done ++ [packet])
  · right
    rw [if_pos (by exact_mod_cast hcomplete)]
    refine ⟨congrArg some (joinFragments_complete hindices harrivals hmessage hcomplete), ?_⟩
    constructor
    case nodup => exact hnodup
    case entries =>
      intro other hmem
      by_cases heq : other = message
      · rw [heq, ← hindex, getEntry_removeEntry_self, if_pos hcomplete]
        rfl
      · rw [getEntry_removeEntry_of_ne (hindex_other hmem heq), h.entries other hmem,
          arrived_concat_of_ne (hother hmem heq)]
        simp only [hcomplete_other hmem heq]
    case completed =>
      intro other
      rw [List.mem_append, List.mem_singleton, h.completed other]
      by_cases heq : other = message
      · simp [heq, hmessage, hcomplete]
      · refine ⟨?_, ?_⟩
        · rintro (⟨hmem, hdone⟩ | heq')
          · exact ⟨hmem, (hcomplete_other hmem heq).2 hdone⟩
          · exact absurd heq' heq
        · rintro ⟨hmem, hdone⟩
          exact .inl ⟨hmem, (hcomplete_other hmem heq).1 hdone⟩
  · left
    rw [if_neg (fun hlength => hcomplete (by exact_mod_cast hlength))]
    refine ⟨rfl, ?_⟩
    constructor
    case nodup => exact h.nodup
    case entries =>
      intro other hmem
      by_cases heq : other = message
      · rw [heq, ← hindex, getEntry_putEntry_self, if_neg hcomplete]
        rfl
      · rw [getEntry_putEntry_of_ne (hindex_other hmem heq), h.entries other hmem,
          arrived_concat_of_ne (hother hmem heq)]
        simp only [hcomplete_other hmem heq]
    case completed =>
      intro other
      rw [h.completed other]
      by_cases heq : other = message
      · simp [heq, hcomplete, hbefore]
      · refine and_congr_right fun hmem => ?_
        exact (hcomplete_other hmem heq).symm

theorem progress_start (hsent : ∀ message ∈ messages, message.fragments ≠ []) :
    Progress messages [] [] [] := by
  have hnone (message : PendantMessage) (hmem : message ∈ messages) : ¬ message.Complete [] := by
    intro hcomplete
    exact hsent message hmem (List.length_eq_zero_iff.1 hcomplete.symm)
  constructor
  case nodup => exact List.nodup_nil
  case entries =>
    intro message hmem
    rw [if_neg (hnone message hmem)]
    rfl
  case completed =>
    intro message
    refine ⟨fun hmem => absurd hmem List.not_mem_nil, fun ⟨hmem, hcomplete⟩ => ?_⟩
    exact absurd hcomplete (hnone message hmem)

variable {dialect : Dialect} {bound : ℕ} (hlaw : dialect.Lawful bound)
  (hindices : (messages.map PendantMessage.index).Nodup)
  (hfits : ∀ message ∈ messages, message.Fits bound)
include hlaw hindices hfits

omit hindices in
theorem parseBlePacket_sent (hmessage : message ∈ messages) (hpacket : packet ∈ message.packets) :
    parseBlePacket dialect (encodePacket packet) = some packet := by
  have hmessageFits := hfits message hmessage
  have hbound := hmessageFits.packets packet hpacket
  obtain ⟨seq, hseq, rfl⟩ := PendantMessage.mem_packets.1 hpacket
  have hindex := hmessageFits.index
  have hfragments := hmessageFits.fragments
  exact parseBlePacket_encode hlaw ⟨by simp, by simpa using hindex⟩
    ⟨by simp, by simpa using hseq.trans hfragments⟩ ⟨by simp, by simpa using hfragments⟩ hbound

/-- The induction is on the packets still to come; those that have come stand before. -/
theorem receiveAll_encode {todo : List BlePacket} (h : Progress messages done buffer order)
    (harrivals : Arrivals messages (done ++ todo)) :
    ∃ finished kept, Progress messages (done ++ todo) kept (order ++ finished) ∧
      receiveAll dialect buffer (todo.map encodePacket) =
        finished.flatMap (PendantMessage.flashPages dialect) := by
  induction todo generalizing done buffer order with
  | nil =>
    refine ⟨[], buffer, ?_, rfl⟩
    rw [List.append_nil, List.append_nil]
    exact h
  | cons packet rest ih =>
    have hsplit : done ++ packet :: rest = (done ++ [packet]) ++ rest := by
      rw [List.append_assoc, List.singleton_append]
    rw [hsplit] at harrivals ⊢
    have hfirst : Arrivals messages (done ++ [packet]) :=
      ⟨(List.nodup_append.1 harrivals.nodup).1,
        fun other hmem => harrivals.sent other (List.mem_append_left _ hmem)⟩
    obtain ⟨message, hmessage, hpacket⟩ := hfirst.sent packet (by simp)
    have hparse := parseBlePacket_sent hlaw hfits hmessage hpacket
    have hstep := progress_receiveFragment hindices h hfirst hmessage hpacket
    rw [List.map_cons, receiveAll, handleNotification, hparse]
    dsimp only
    cases hreceive : receiveFragment buffer packet with
    | mk kept complete =>
      rw [hreceive] at hstep
      rcases hstep with ⟨hnone, hprogress⟩ | ⟨hsome, hprogress⟩
      · obtain ⟨finished, last, hlast, hpages⟩ := ih hprogress harrivals
        obtain rfl : complete = none := hnone
        exact ⟨finished, last, hlast, hpages⟩
      · obtain ⟨finished, last, hlast, hpages⟩ := ih hprogress harrivals
        obtain rfl : complete = some (encodePages message.pages) := hsome
        refine ⟨message :: finished, last, ?_, ?_⟩
        · have hlist : order ++ [message] ++ finished = order ++ message :: finished := by
            rw [List.append_assoc, List.singleton_append]
          rw [hlist] at hlast
          exact hlast
        · dsimp only
          rw [hpages, parsePendantMessage_encode hlaw (hfits message hmessage), List.flatMap_cons]

end reassembly

/-! ### The round trip -/

/-- All the packets of the messages, once each. -/
theorem arrivals_of_perm {messages : List PendantMessage} {packets : List BlePacket}
    (hindices : (messages.map PendantMessage.index).Nodup)
    (hperm : packets.Perm (messages.flatMap PendantMessage.packets)) :
    Arrivals messages packets := by
  constructor
  case nodup =>
    rw [hperm.nodup_iff, List.nodup_flatMap]
    refine ⟨fun message _ => message.packets_nodup, (List.pairwise_map.1 hindices).imp ?_⟩
    intro first second hne packet hfirst hsecond
    have hindex := (PendantMessage.index_of_mem hfirst).symm.trans
      (PendantMessage.index_of_mem hsecond)
    exact hne (by exact_mod_cast hindex)
  case sent =>
    intro packet hmem
    exact List.mem_flatMap.1 (hperm.mem_iff.1 hmem)

/-- The three parsers with the bound of their integers. -/
def parsers : List (Dialect × ℕ) :=
  [(.kotlin, 2147483648), (.swift, 9223372036854775808), (.dart, 9223372036854775808)]

theorem lawful_of_mem {parser : Dialect × ℕ} (h : parser ∈ parsers) :
    parser.1.Lawful parser.2 := by
  simp only [parsers, List.mem_cons, List.not_mem_nil, or_false] at h
  rcases h with rfl | rfl | rfl
  · exact Dialect.kotlin_lawful
  · exact Dialect.swift_lawful
  · exact Dialect.dart_lawful

/-- The messages come out whole, one after another, each with the pages that have a frame or no
wrapper. -/
theorem wireRoundTrip {messages : List PendantMessage} {packets : List BlePacket}
    (hindices : (messages.map PendantMessage.index).Nodup)
    (hperm : packets.Perm (messages.flatMap PendantMessage.packets))
    {parser : Dialect × ℕ} (hparser : parser ∈ parsers)
    (hfits : ∀ message ∈ messages, message.Fits parser.2) :
    ∃ order : List PendantMessage, order.Perm messages ∧
      receiveAll parser.1 [] (packets.map encodePacket) =
        order.flatMap (PendantMessage.flashPages parser.1) := by
  have harrivals := arrivals_of_perm hindices hperm
  obtain ⟨order, kept, hprogress, hpages⟩ := receiveAll_encode (lawful_of_mem hparser) hindices
    hfits (progress_start fun message _ => message.sent) harrivals
  refine ⟨order, ?_, hpages⟩
  rw [List.nil_append, List.nil_append] at hprogress
  rw [List.perm_ext_iff_of_nodup hprogress.nodup hindices.of_map]
  intro message
  rw [hprogress.completed message, and_iff_left_iff_imp]
  intro hmessage
  have hall : message.packets ⊆ message.arrived packets := by
    intro packet hpacket
    refine List.mem_filter.2 ⟨hperm.mem_iff.2 (List.mem_flatMap.2 ⟨message, hmessage, hpacket⟩), ?_⟩
    rw [decide_eq_true_eq]
    exact PendantMessage.index_of_mem hpacket
  have hmost := (arrived_subperm hindices harrivals hmessage).length_le
  have hleast := (List.subperm_of_subset message.packets_nodup hall).length_le
  rw [message.length_packets] at hmost hleast
  exact hmost.antisymm hleast

/-- A page of the time and one frame of ten bytes, in a message sent as two fragments. -/
def onePage : StoredPage :=
  { session := some 3, seq := none, index := 7
    page :=
      { timestampMs := 1600000000000, uptime := 5
        wrappers :=
          [{ offset := some 300, frames := [⟨4, [0xb8, 1, 2, 3, 4, 5, 6, 7, 8, 9], by decide⟩] }] } }

def oneMessage : PendantMessage where
  index := 1
  pages := [onePage]
  fragments := [(encodePages [onePage]).take 10, (encodePages [onePage]).drop 10]
  sent := List.cons_ne_nil _ _
  split := by rw [List.flatten_cons, List.flatten_cons, List.flatten_nil, List.append_nil,
    List.take_append_drop]

theorem fits_oneMessage : oneMessage.Fits 2147483648 where
  index := by decide
  fragments := by decide
  packets := by decide +kernel
  payload := by decide +kernel
  pages := by decide +kernel

theorem wireRoundTrip_reversed :
    ∃ order : List PendantMessage, order.Perm [oneMessage] ∧
      receiveAll .kotlin [] (oneMessage.packets.reverse.map encodePacket) =
        order.flatMap (PendantMessage.flashPages .kotlin) := by
  have hperm : oneMessage.packets.reverse.Perm ([oneMessage].flatMap PendantMessage.packets) := by
    rw [List.flatMap_singleton]
    exact List.reverse_perm _
  have hparser : ((.kotlin, 2147483648) : Dialect × ℕ) ∈ parsers := List.mem_cons_self
  have hfits : ∀ message ∈ [oneMessage], message.Fits 2147483648 := by
    intro message hmem
    rw [List.mem_singleton.1 hmem]
    exact fits_oneMessage
  have hrun := wireRoundTrip (by decide) hperm hparser hfits
  exact hrun

/-- A page with a wrapper that holds no frame. -/
def emptyWrapperMessage : PendantMessage where
  index := 1
  pages := [{ onePage with page := { onePage.page with wrappers := [⟨none, []⟩] } }]
  fragments := [encodePages [{ onePage with page := { onePage.page with wrappers := [⟨none, []⟩] } }]]
  sent := List.cons_ne_nil _ _
  split := by rw [List.flatten_cons, List.flatten_nil, List.append_nil]

/-- That page is not surfaced, by design. -/
theorem not_everyPageSurfaces : ¬ ∀ (messages : List PendantMessage) (packets : List BlePacket),
    (messages.map PendantMessage.index).Nodup →
    packets.Perm (messages.flatMap PendantMessage.packets) →
    ∀ parser ∈ parsers, (∀ message ∈ messages, message.Fits parser.2) →
    ∃ order : List PendantMessage, order.Perm messages ∧
      receiveAll parser.1 [] (packets.map encodePacket) =
        order.flatMap fun message => message.pages.map (StoredPage.flashPage parser.1) := by
  intro hclaim
  have hfits : ∀ message ∈ [emptyWrapperMessage], message.Fits 2147483648 := by
    intro message hmem
    rw [List.mem_singleton.1 hmem]
    exact ⟨by decide, by decide, by decide +kernel, by decide +kernel, by decide +kernel⟩
  have hperm : emptyWrapperMessage.packets.Perm
      ([emptyWrapperMessage].flatMap PendantMessage.packets) := by
    rw [List.flatMap_singleton]
  obtain ⟨order, horder, hpages⟩ := hclaim [emptyWrapperMessage] emptyWrapperMessage.packets
    (by decide) hperm (.kotlin, 2147483648) (by simp [parsers]) hfits
  have hnone : receiveAll .kotlin [] (emptyWrapperMessage.packets.map encodePacket) = [] := by
    decide +kernel
  rw [List.perm_singleton.1 horder, hnone] at hpages
  simp [emptyWrapperMessage] at hpages

end Omi.Pendant
