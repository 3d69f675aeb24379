import Omi.MemoryList.Streams

/-! What the streams of a page have left: behind its position a stream shows the rows of its scan one
after another, whatever pages it has read ahead, and its position passes a row only when it is shown
or never will be. -/
namespace Omi.MemoryList
open Omi.Foundation Omi.Memory

/-- The position that a scan goes on from. -/
def scanPosition (keyset : StreamKeyset) : ℤ ×ₗ String :=
  keysetSortKey ⟨max 0 keyset.updatedAtUs, keyset.memoryId⟩

def ScanSlot.key (slot : ScanSlot) : ℤ ×ₗ String := keysetSortKey slot.scan

/-- The rows behind a scan keyset. -/
def slotsAfter (scan : Option StreamKeyset) (rows : List ScanSlot) : List ScanSlot :=
  rowsAfter ScanSlot.key (scan.map scanPosition) rows

/-- A source reads some rows from behind a position, and shows each as if no row before it mattered.
-/
structure SlotSource.Reads (source : SlotSource) (rows : List ScanSlot)
    (shows : ScanSlot → Option MemoryDB) : Prop where
  sorted : rows.Pairwise fun a b => a.key < b.key
  position : ∀ slot ∈ rows, scanPosition slot.scan = slot.key
  read : ∀ {scan slots exhausted}, source.read scan = .ok (slots, exhausted) →
    ∃ rest, slotsAfter scan rows = slots ++ rest ∧ (slots = [] → rest = []) ∧
      (exhausted = true → rest = [])
  shown : ∀ slot ∈ rows, ∀ emitted : Option StreamKeyset,
    (∀ keyset ∈ emitted, keysetSortKey keyset < slot.key) →
      (slot.memory.filter fun memory => !source.suppressed emitted slot memory) = shows slot
  keyed : ∀ slot ∈ rows, ∀ memory ∈ shows slot, memoryKeyset memory = slot.scan

namespace SlotStream

/-- The slots that a stream has left. -/
def left (stream : SlotStream) (rows : List ScanSlot) : List ScanSlot :=
  if stream.exhausted then [] else slotsAfter stream.scan rows

/-- The rows that a stream shows from now on. -/
def listing (stream : SlotStream) (rows : List ScanSlot) (shows : ScanSlot → Option MemoryDB) :
    List MemoryDB :=
  (stream.left rows).filterMap shows

/-- A stream has read ahead what is behind its position, and emitted nothing beyond it. -/
structure Sound (stream : SlotStream) (rows : List ScanSlot)
    (shows : ScanSlot → Option MemoryDB) : Prop where
  page : stream.exhausted = false → ∃ rest, slotsAfter stream.scan rows = stream.slots ++ rest ∧
    (stream.slots ≠ [] → stream.slotsExhausted = true → rest = [])
  exhausted : stream.exhausted = true → stream.slots = []
  peeked : ∀ memory keyset, stream.peeked = some (memory, keyset) →
    ∃ slot slots, stream.slots = slot :: slots ∧ slot.scan = keyset ∧ shows slot = some memory
  emitted : ∀ keyset ∈ stream.emitted, ∃ scan ∈ stream.scan,
    keysetSortKey keyset ≤ scanPosition scan

section
variable {source : SlotSource} {rows slots : List ScanSlot} {shows : ScanSlot → Option MemoryDB}
  {stream next : SlotStream} {slot : ScanSlot} {peeked : Option MemoryDB} {memory : MemoryDB}
  {turns : ℕ}

theorem Sound.live (h : stream.Sound rows shows) (hslots : stream.slots = slot :: slots) :
    stream.exhausted = false := by
  cases hexhausted : stream.exhausted with
  | false => rfl
  | true =>
    have hnone := h.exhausted hexhausted
    rw [hslots] at hnone
    cases hnone

theorem Sound.left_eq (h : stream.Sound rows shows) (hslots : stream.slots = slot :: slots) :
    ∃ rest, stream.left rows = slot :: (slots ++ rest) ∧
      (stream.slotsExhausted = true → rest = []) := by
  have hlive := h.live hslots
  obtain ⟨rest, hrest, hend⟩ := h.page hlive
  refine ⟨rest, ?_, hend (by simp [hslots])⟩
  rw [left, hlive, hrest, hslots]
  rfl

theorem mem_rows_of_left (hleft : slot ∈ stream.left rows) : slot ∈ rows ∧
    ∀ scan ∈ stream.scan, scanPosition scan < slot.key := by
  unfold left at hleft
  split_ifs at hleft
  · cases hleft
  · obtain ⟨hmem, hbehind⟩ := mem_rowsAfter.mp hleft
    refine ⟨hmem, fun scan hscan => hbehind _ ?_⟩
    rw [hscan]
    rfl

/-- The next slot is shown by itself. -/
theorem Sound.shownIn_eq (h : stream.Sound rows shows) (hreads : source.Reads rows shows)
    (hslots : stream.slots = slot :: slots) : stream.shownIn source slot = shows slot := by
  obtain ⟨rest, hleft, -⟩ := h.left_eq hslots
  obtain ⟨hmem, hbehind⟩ := mem_rows_of_left (hleft ▸ List.mem_cons_self)
  refine hreads.shown slot hmem stream.emitted fun keyset hkeyset => ?_
  obtain ⟨scan, hscan, hle⟩ := h.emitted keyset hkeyset
  exact hle.trans_lt (hbehind scan hscan)

/-- Reading ahead changes nothing of what is left. -/
theorem Sound.ensureSlots_ok (h : stream.Sound rows shows) (hreads : source.Reads rows shows)
    (hnone : stream.peeked = none) (hread : stream.ensureSlots source = .ok next) :
    next.Sound rows shows ∧ next.left rows = stream.left rows ∧ next.peeked = none ∧
      next.emitted = stream.emitted ∧ (next.slots = [] → next.left rows = []) := by
  unfold ensureSlots at hread
  split_ifs at hread with hready
  · cases hread
    refine ⟨h, rfl, hnone, rfl, fun hslots => ?_⟩
    simp only [hslots, List.isEmpty_nil, Bool.not_true, Bool.false_or] at hready
    rw [left, hready]
    rfl
  · obtain ⟨⟨slots, exhausted⟩, hpage, hresult⟩ := bind_eq_ok_iff.mp hread
    cases hresult
    simp only [Bool.or_eq_true, not_or, Bool.not_eq_true, Bool.not_eq_false',
      List.isEmpty_iff] at hready
    obtain ⟨hslots, hlive⟩ := hready
    obtain ⟨rest, hrest, hempty, hend⟩ := hreads.read hpage
    have hleft : stream.left rows = slots ++ rest := by
      rw [left, hlive, hrest]
      rfl
    have hnext : ({ stream with
        slots := slots
        slotsExhausted := exhausted
        exhausted := stream.exhausted || slots.isEmpty } : SlotStream).left rows =
          stream.left rows := by
      cases slots with
      | nil => simp [left, hlive, hrest, hempty rfl]
      | cons slot slots => simp [left, hlive]
    refine ⟨⟨?_, ?_, ?_, h.emitted⟩, hnext, hnone, rfl, ?_⟩
    · intro _
      exact ⟨rest, hrest, fun _ => hend⟩
    · intro hexhausted
      simpa [hlive] using hexhausted
    · intro memory keyset hpeeked
      rw [hnone] at hpeeked
      cases hpeeked
    · intro hslots
      have hslots : slots = [] := hslots
      rw [hnext, hleft, hslots, hempty hslots]
      rfl

/-- A stream that goes on behind its next slot has the rest left. -/
theorem Sound.advance_ok (h : stream.Sound rows shows) (hreads : source.Reads rows shows)
    (hslots : stream.slots = slot :: slots) {emitted : Option StreamKeyset}
    (hemitted : ∀ keyset ∈ emitted, keysetSortKey keyset ≤ slot.key) :
    let next := advanceRawSlot
      { stream with emitted := emitted, scan := some slot.scan, peeked := none }
    next.Sound rows shows ∧ stream.left rows = slot :: next.left rows ∧ next.peeked = none ∧
      next.emitted = emitted := by
  obtain ⟨rest, hleft, hend⟩ := h.left_eq hslots
  have hlive := h.live hslots
  have hmem := (mem_rows_of_left (hleft ▸ List.mem_cons_self)).1
  have hafter : slotsAfter (some slot.scan) rows = slots ++ rest := by
    have hsplit : rowsAfter ScanSlot.key (stream.scan.map scanPosition) rows =
        [] ++ slot :: (slots ++ rest) := by
      rw [left, hlive] at hleft
      exact hleft
    rw [slotsAfter, Option.map_some, hreads.position slot hmem]
    exact rowsAfter_append hreads.sorted hsplit
  have hbehind : ∀ keyset ∈ emitted, ∃ scan ∈ some slot.scan,
      keysetSortKey keyset ≤ scanPosition scan := by
    intro keyset hkeyset
    refine ⟨slot.scan, rfl, ?_⟩
    rw [hreads.position slot hmem]
    exact hemitted keyset hkeyset
  cases slots with
  | nil =>
    have hnext : advanceRawSlot
        { stream with emitted := emitted, scan := some slot.scan, peeked := none } =
          { stream with
            emitted := emitted
            scan := some slot.scan
            peeked := none
            slots := []
            exhausted := stream.slotsExhausted } := by
      simp only [advanceRawSlot, hslots]
    rw [hnext, hleft]
    refine ⟨⟨?_, ?_, by simp, hbehind⟩, ?_, rfl, rfl⟩
    · intro _
      exact ⟨rest, hafter, by simp⟩
    · intro _
      rfl
    · cases hexhausted : stream.slotsExhausted with
      | false => simpa [left] using hafter.symm
      | true => simp [left, hend hexhausted]
  | cons second slots =>
    have hnext : advanceRawSlot
        { stream with emitted := emitted, scan := some slot.scan, peeked := none } =
          { stream with
            emitted := emitted
            scan := some slot.scan
            peeked := none
            slots := second :: slots } := by
      simp only [advanceRawSlot, hslots]
    rw [hnext, hleft]
    refine ⟨⟨?_, ?_, by simp, hbehind⟩, ?_, rfl, rfl⟩
    · intro _
      exact ⟨rest, hafter, fun _ => hend⟩
    · intro hexhausted
      have hexhausted : stream.exhausted = true := hexhausted
      rw [hlive] at hexhausted
      cases hexhausted
    · simp [left, hlive, hafter]

/-- Passing a slot leaves the others. -/
theorem Sound.passSlot_ok (h : stream.Sound rows shows) (hreads : source.Reads rows shows)
    (hnone : stream.peeked = none) (hslots : stream.slots = slot :: slots) :
    (stream.passSlot slot).Sound rows shows ∧
      stream.left rows = slot :: (stream.passSlot slot).left rows ∧
      (stream.passSlot slot).peeked = none ∧ (stream.passSlot slot).emitted = stream.emitted := by
  have hsame : stream.passSlot slot = advanceRawSlot
      { stream with emitted := stream.emitted, scan := some slot.scan, peeked := none } := by
    rw [passSlot, ← hnone]
  obtain ⟨rest, hleft, -⟩ := h.left_eq hslots
  obtain ⟨-, hbehind⟩ := mem_rows_of_left (hleft ▸ List.mem_cons_self)
  have hemitted : ∀ keyset ∈ stream.emitted, keysetSortKey keyset ≤ slot.key := by
    intro keyset hkeyset
    obtain ⟨scan, hscan, hle⟩ := h.emitted keyset hkeyset
    exact hle.trans (hbehind scan hscan).le
  obtain ⟨hsound, hrest, hpeeked, hkept⟩ := h.advance_ok hreads hslots hemitted
  rw [← hsame] at hsound hrest hpeeked hkept
  exact ⟨hsound, hrest, hpeeked, hkept⟩

/-- What a peek gives is what is shown next, and it is kept. -/
structure Peeks (rows : List ScanSlot) (shows : ScanSlot → Option MemoryDB)
    (stream next : SlotStream) (memory : Option MemoryDB) : Prop where
  sound : next.Sound rows shows
  listing : next.listing rows shows = stream.listing rows shows
  head : memory = (stream.listing rows shows).head?
  emitted : next.emitted = stream.emitted
  kept : next.peeked.map Prod.fst = memory

theorem Sound.peekLoop_ok (h : stream.Sound rows shows) (hreads : source.Reads rows shows)
    (hnone : stream.peeked = none)
    (hpeek : peekLoop source turns stream = .ok (next, peeked)) :
    Peeks rows shows stream next peeked := by
  induction turns generalizing stream with
  | zero => cases hpeek
  | succ turns ih =>
    obtain ⟨ready, hready, hpeek⟩ := bind_eq_ok_iff.mp hpeek
    obtain ⟨hsound, hleft, hnone', hemitted, hempty⟩ := h.ensureSlots_ok hreads hnone hready
    have hlisting : ready.listing rows shows = stream.listing rows shows := by
      rw [listing, listing, hleft]
    cases hslots : ready.slots with
    | nil =>
      rw [hslots] at hpeek
      cases hpeek
      have hend : stream.listing rows shows = [] := by
        rw [← hlisting, listing, hempty hslots]
        rfl
      refine ⟨⟨by simp, fun _ => rfl, ?_, hsound.emitted⟩, ?_, ?_, hemitted, ?_⟩
      · intro memory keyset hpeeked
        have hpeeked : ready.peeked = some (memory, keyset) := hpeeked
        rw [hnone'] at hpeeked
        cases hpeeked
      · rw [hend]
        simp [listing, left]
      · rw [hend]
        rfl
      · simp [hnone']
    | cons slot slots =>
      rw [hslots] at hpeek
      dsimp only at hpeek
      rw [hsound.shownIn_eq hreads hslots] at hpeek
      cases hshows : shows slot with
      | none =>
        rw [hshows] at hpeek
        obtain ⟨_, -, hpeek⟩ := bind_eq_ok_iff.mp hpeek
        obtain ⟨hpassed, hrest, hnone'', hkept⟩ := hsound.passSlot_ok hreads hnone' hslots
        have hsame : (ready.passSlot slot).listing rows shows = ready.listing rows shows := by
          rw [listing, listing, hrest, List.filterMap_cons, hshows]
        obtain ⟨hnext, hlist, hhead, hlast, hfirst⟩ := ih hpassed hnone'' hpeek
        rw [hsame, hlisting] at hlist hhead
        exact ⟨hnext, hlist, hhead, hlast.trans (hkept.trans hemitted), hfirst⟩
      | some memory =>
        rw [hshows] at hpeek
        cases hpeek
        obtain ⟨rest, hfront, -⟩ := hsound.left_eq hslots
        have hpage := hsound.page
        have hexhausted := hsound.exhausted
        rw [hslots] at hpage hexhausted
        refine ⟨⟨hpage, hexhausted, ?_, hsound.emitted⟩, hlisting, ?_, hemitted, rfl⟩
        · rintro _ _ ⟨⟩
          exact ⟨slot, slots, rfl, rfl, hshows⟩
        · rw [← hlisting, listing, hfront, List.filterMap_cons, hshows]
          rfl

theorem Sound.peek_ok (h : stream.Sound rows shows) (hreads : source.Reads rows shows)
    (hpeek : stream.peek source = .ok (next, peeked)) :
    Peeks rows shows stream next peeked := by
  unfold peek at hpeek
  cases hkept : stream.peeked with
  | none =>
    rw [hkept] at hpeek
    exact h.peekLoop_ok hreads hkept hpeek
  | some kept =>
    obtain ⟨memory, keyset⟩ := kept
    rw [hkept] at hpeek
    cases hpeek
    obtain ⟨slot, slots, hslots, -, hshows⟩ := h.peeked memory keyset hkept
    obtain ⟨rest, hfront, -⟩ := h.left_eq hslots
    refine ⟨h, rfl, ?_, rfl, by rw [hkept]; rfl⟩
    rw [listing, hfront, List.filterMap_cons, hshows]
    rfl

/-- Consuming the row that was peeked leaves the rest. -/
theorem Sound.consume_ok (h : stream.Sound rows shows) (hreads : source.Reads rows shows)
    (hpeeked : stream.peeked.map Prod.fst = some memory) (hconsume : stream.consume = .ok next) :
    next.Sound rows shows ∧ stream.listing rows shows = memory :: next.listing rows shows ∧
      next.peeked = none ∧ next.emitted = some (memoryKeyset memory) := by
  unfold consume at hconsume
  cases hkept : stream.peeked with
  | none =>
    rw [hkept] at hpeeked
    cases hpeeked
  | some kept =>
    obtain ⟨memory', keyset⟩ := kept
    rw [hkept] at hpeeked hconsume
    obtain rfl : memory' = memory := Option.some.inj hpeeked
    cases hconsume
    obtain ⟨slot, slots, hslots, rfl, hshows⟩ := h.peeked memory' keyset hkept
    obtain ⟨rest, hfront, -⟩ := h.left_eq hslots
    have hmem := (mem_rows_of_left (hfront ▸ List.mem_cons_self)).1
    have hkey := hreads.keyed slot hmem memory' hshows
    have hemitted : ∀ keyset ∈ some (memoryKeyset memory'), keysetSortKey keyset ≤ slot.key := by
      rintro _ ⟨⟩
      rw [hkey]
      exact le_rfl
    obtain ⟨hsound, hrest, hnone, hlast⟩ := h.advance_ok hreads hslots hemitted
    refine ⟨hsound, ?_, hnone, hlast⟩
    rw [listing, listing, hrest, List.filterMap_cons, hshows]

theorem peekLoop_exhausted (hdone : stream.exhausted = true) (hslots : stream.slots = []) :
    peekLoop source (turns + 1) stream = .ok ({ stream with exhausted := true }, none) := by
  have hready : stream.ensureSlots source = .ok stream := by
    rw [ensureSlots, hdone, Bool.or_true, if_pos rfl]
    rfl
  refine bind_eq_ok_iff.mpr ⟨stream, hready, ?_⟩
  rw [hslots]
  rfl

/-- An exhausted stream stays so, and one that is not is not made so to be frozen. -/
theorem Sound.isExhausted_ok (h : stream.Sound rows shows) {exhausted : Bool}
    (hok : stream.isExhausted source = .ok exhausted) : exhausted = stream.exhausted := by
  unfold isExhausted at hok
  split_ifs at hok with hdone
  · have hslots := h.exhausted hdone
    have hnone : stream.peeked = none := by
      cases hkept : stream.peeked with
      | none => rfl
      | some kept =>
        obtain ⟨slot, slots, hcons, -⟩ := h.peeked kept.1 kept.2 hkept
        rw [hslots] at hcons
        cases hcons
    rw [hdone]
    unfold peek at hok
    rw [hnone] at hok
    cases hturns : source.turns with
    | zero =>
      rw [hturns] at hok
      cases hok
    | succ turns =>
      rw [hturns] at hok
      dsimp only at hok
      rw [peekLoop_exhausted hdone hslots] at hok
      cases hok
      rfl
  · cases hok
    simpa using hdone

end
end SlotStream

end Omi.MemoryList
