import Omi.MemoryList.PageSpec

/-! Reads that never fail: over scans that can be read and that no budget stops, every page comes to
an end, and the cursor behind it is accepted by the next read of its request until it expires. -/
namespace Omi.MemoryList
open Omi.Foundation Omi.Memory

/-- A source whose scan can be read without a stop, at keysets that a cursor may carry, and in as
many turns as it may take. -/
structure SlotSource.Answers (source : SlotSource) (rows : List ScanSlot) : Prop where
  read : ∀ scan, ∃ page, source.read scan = .ok page
  charge : ∀ scan, source.charge scan = .ok ()
  turns : rows.length < source.turns
  parses : ∀ slot ∈ rows, keysetParses (some slot.scan) = true

namespace SlotStream

/-- The keysets of a stream are such that a cursor may carry. -/
structure Resumes (stream : SlotStream) : Prop where
  emitted : keysetParses stream.emitted = true
  scan : keysetParses stream.scan = true

section
variable {source : SlotSource} {rows slots : List ScanSlot} {shows : ScanSlot → Option MemoryDB}
  {stream : SlotStream} {slot : ScanSlot} {memory : MemoryDB} {turns : ℕ}

@[simp] theorem advanceRawSlot_emitted : stream.advanceRawSlot.emitted = stream.emitted := by
  unfold advanceRawSlot
  split <;> rfl

@[simp] theorem advanceRawSlot_scan : stream.advanceRawSlot.scan = stream.scan := by
  unfold advanceRawSlot
  split <;> rfl

theorem ensureSlots_total (hanswers : source.Answers rows) (hresumes : stream.Resumes) :
    ∃ next, stream.ensureSlots source = .ok next ∧ next.Resumes := by
  unfold ensureSlots
  split_ifs
  · exact ⟨stream, rfl, hresumes⟩
  · obtain ⟨⟨slots, exhausted⟩, hpage⟩ := hanswers.read stream.scan
    rw [hpage]
    exact ⟨_, rfl, hresumes.emitted, hresumes.scan⟩

theorem Sound.mem_rows (h : stream.Sound rows shows) (hslots : stream.slots = slot :: slots) :
    slot ∈ rows := by
  obtain ⟨rest, hleft, -⟩ := h.left_eq hslots
  exact (mem_rows_of_left (hleft ▸ List.mem_cons_self)).1

/-- A stream finds its next row, or the end of its scan, within one turn for each slot left. -/
theorem Sound.peekLoop_total (h : stream.Sound rows shows) (hreads : source.Reads rows shows)
    (hanswers : source.Answers rows) (hnone : stream.peeked = none)
    (hturns : (stream.left rows).length < turns) (hresumes : stream.Resumes) :
    ∃ next memory, peekLoop source turns stream = .ok (next, memory) ∧ next.Resumes := by
  induction turns generalizing stream with
  | zero => omega
  | succ turns ih =>
    obtain ⟨ready, hready, hkept⟩ := ensureSlots_total hanswers hresumes
    obtain ⟨hsound, hleft, hnone', -, -⟩ := h.ensureSlots_ok hreads hnone hready
    rw [peekLoop, hready]
    dsimp only [bind, Except.bind]
    cases hslots : ready.slots with
    | nil => exact ⟨_, _, rfl, hkept.emitted, hkept.scan⟩
    | cons slot slots =>
      dsimp only
      rw [hsound.shownIn_eq hreads hslots]
      cases hshows : shows slot with
      | some memory => exact ⟨_, _, rfl, hkept.emitted, hkept.scan⟩
      | none =>
        obtain ⟨hpassed, hrest, hnone'', -⟩ := hsound.passSlot_ok hreads hnone' hslots
        have hshorter : ((ready.passSlot slot).left rows).length < turns := by
          rw [← hleft, hrest, List.length_cons] at hturns
          omega
        have hslot := hanswers.parses slot (hsound.mem_rows hslots)
        dsimp only
        rw [hanswers.charge slot.scan]
        refine ih hpassed hnone'' hshorter ⟨?_, ?_⟩
        · rw [passSlot, advanceRawSlot_emitted]
          exact hkept.emitted
        · rw [passSlot, advanceRawSlot_scan]
          exact hslot

theorem left_length_le : (stream.left rows).length ≤ rows.length := by
  unfold left
  split_ifs
  · exact Nat.zero_le _
  · exact List.length_filter_le _ _

theorem Sound.peek_total (h : stream.Sound rows shows) (hreads : source.Reads rows shows)
    (hanswers : source.Answers rows) (hresumes : stream.Resumes) :
    ∃ next memory, stream.peek source = .ok (next, memory) ∧ next.Resumes := by
  unfold peek
  cases hkept : stream.peeked with
  | some kept => exact ⟨stream, _, rfl, hresumes⟩
  | none =>
    have hturns : (stream.left rows).length < source.turns :=
      left_length_le.trans_lt hanswers.turns
    exact h.peekLoop_total hreads hanswers hkept hturns hresumes

theorem Sound.consume_total (h : stream.Sound rows shows) (hreads : source.Reads rows shows)
    (hanswers : source.Answers rows) (hpeeked : stream.peeked.map Prod.fst = some memory) :
    ∃ next, stream.consume = .ok next ∧ next.Resumes := by
  unfold consume
  cases hkept : stream.peeked with
  | none =>
    rw [hkept] at hpeeked
    cases hpeeked
  | some kept =>
    obtain ⟨row, keyset⟩ := kept
    obtain ⟨slot, slots, hslots, rfl, hshows⟩ := h.peeked row keyset hkept
    have hmem := h.mem_rows hslots
    have hkey := hreads.keyed slot hmem row hshows
    have hparses := hanswers.parses slot hmem
    refine ⟨_, rfl, ?_, ?_⟩
    · rw [advanceRawSlot_emitted, hkey]
      exact hparses
    · rw [advanceRawSlot_scan]
      exact hparses

theorem Sound.isExhausted_total (h : stream.Sound rows shows) (hreads : source.Reads rows shows)
    (hanswers : source.Answers rows) (hresumes : stream.Resumes) :
    ∃ exhausted, stream.isExhausted source = .ok exhausted := by
  unfold isExhausted
  split_ifs
  · obtain ⟨next, memory, hpeek, -⟩ := h.peek_total hreads hanswers hresumes
    rw [hpeek]
    exact ⟨_, rfl⟩
  · exact ⟨false, rfl⟩

end
end SlotStream

/-! ### Pages -/

structure PageSources.Answers (sources : PageSources) (rows : PageRows) : Prop where
  canonical : sources.canonical.Answers rows.canonical
  updated : sources.updated.Answers rows.updated
  created : sources.created.Answers rows.created

/-- A request accepts a state in a cursor that has not expired. -/
def ListRequest.Accepts (request : ListRequest) (state : UniversalListCursorState) : Prop :=
  ∀ now expiresAt, now ≤ expiresAt →
    decodeUniversalListCursor request now ⟨state, expiresAt⟩ = .ok state

structure HistoricalCursorStream.Resumes (stream : HistoricalCursorStream) : Prop where
  consumed : keysetParses stream.consumedKeyset = true
  updated : stream.updated.Resumes
  created : stream.created.Resumes

structure PageState.Resumes (state : PageState) : Prop where
  canonical : state.canonical.Resumes
  historical : state.historical.Resumes

section
variable {sources : PageSources} {rows : PageRows} {memory : MemoryDB}
  {stream : HistoricalCursorStream} {state : PageState}

namespace HistoricalCursorStream

theorem Sound.peek_total (h : stream.Sound rows)
    (hreads : sources.Reads rows) (hanswers : sources.Answers rows) (hresumes : stream.Resumes) :
    ∃ next memory, stream.peek sources = .ok (next, memory) ∧ next.Resumes := by
  obtain ⟨updated, updatedMemory, hupdated, hkept⟩ :=
    h.updated.peek_total hreads.updated hanswers.updated hresumes.updated
  obtain ⟨created, createdMemory, hcreated, hkept'⟩ :=
    h.created.peek_total hreads.created hanswers.created hresumes.created
  have hpeek : stream.peek sources = .ok
      ({ stream with
          updated := updated
          created := created
          peekSource := nextSource updatedMemory createdMemory },
        rowOf (nextSource updatedMemory createdMemory) updatedMemory createdMemory) := by
    rw [peek, hupdated, hcreated]
    rfl
  exact ⟨_, _, hpeek, hresumes.consumed, hkept, hkept'⟩

theorem Peeked.consume_total (h : stream.Peeked rows (some memory))
    (hreads : sources.Reads rows) (hanswers : sources.Answers rows) (hresumes : stream.Resumes) :
    ∃ next, stream.consume = .ok next ∧ next.Resumes := by
  have hhead := h.head
  rw [← head_listing, ← h.updated, ← h.created, ← h.source] at hhead
  unfold consume
  cases hkind : stream.peekSource with
  | none =>
    rw [hkind] at hhead
    cases hhead
  | some kind =>
    rw [hkind] at hhead
    cases kind with
    | updated =>
      obtain ⟨updated, hconsume, hkept⟩ :=
        h.sound.updated.consume_total hreads.updated hanswers.updated hhead.symm
      rw [hconsume]
      exact ⟨_, rfl, hkept.emitted, hkept, hresumes.created⟩
    | created =>
      obtain ⟨created, hconsume, hkept⟩ :=
        h.sound.created.consume_total hreads.created hanswers.created hhead.symm
      rw [hconsume]
      exact ⟨_, rfl, hkept.emitted, hresumes.updated, hkept⟩

end HistoricalCursorStream

namespace PageState

theorem Peeked.takeRow_total {canonical historical : Option MemoryDB}
    (h : state.Peeked rows canonical historical) (hreads : sources.Reads rows)
    (hanswers : sources.Answers rows) (hresumes : state.Resumes)
    (hsome : (canonical.isNone && historical.isNone) = false) :
    ∃ next, takeRow state canonical historical = .ok next ∧ next.Resumes := by
  unfold takeRow
  cases htakes : takesCanonical canonical historical with
  | true =>
    obtain ⟨memory, rfl, -⟩ | ⟨rfl, rfl⟩ := takesCanonical_true htakes
    swap
    · cases hsome
    obtain ⟨stream, hconsume, hkept⟩ :=
      h.sound.consume_total hreads.canonical hanswers.canonical h.kept
    rw [if_pos rfl, hconsume]
    exact ⟨_, rfl, hkept, hresumes.historical⟩
  | false =>
    obtain ⟨memory, rfl, -⟩ := takesCanonical_false htakes
    obtain ⟨stream, hconsume, hkept⟩ := h.historical.consume_total hreads hanswers
      hresumes.historical
    rw [if_neg (by simp), hconsume]
    exact ⟨_, rfl, hresumes.canonical, hkept⟩

theorem Sound.peekBoth_total (h : state.Sound rows) (hreads : sources.Reads rows)
    (hanswers : sources.Answers rows) (hresumes : state.Resumes) :
    ∃ next canonical historical,
      peekBoth sources state = .ok (next, canonical, historical) ∧ next.Resumes := by
  obtain ⟨canonical, canonicalMemory, hcanonical, hkept⟩ :=
    h.canonical.peek_total hreads.canonical hanswers.canonical hresumes.canonical
  obtain ⟨historical, historicalMemory, hhistorical, hkept'⟩ :=
    h.historical.peek_total hreads hanswers hresumes.historical
  have hpeek : peekBoth sources state = .ok
      ({ state with canonical := canonical, historical := historical },
        canonicalMemory, historicalMemory) := by
    rw [peekBoth, hcanonical, hhistorical]
    rfl
  exact ⟨_, _, _, hpeek, hkept, hkept'⟩

/-- A page is filled, whatever it has room for. -/
theorem Sound.fillPage_total (room : ℕ) (h : state.Sound rows) (hreads : sources.Reads rows)
    (hanswers : sources.Answers rows) (hresumes : state.Resumes) :
    ∃ next, fillPage sources room state = .ok (next, false) ∧ next.Resumes := by
  induction room generalizing state with
  | zero => exact ⟨state, rfl, hresumes⟩
  | succ room ih =>
    obtain ⟨peeked, canonical, historical, hpeek, hkept⟩ := h.peekBoth_total hreads hanswers hresumes
    obtain ⟨hpeeked, -, -⟩ := h.peekBoth_ok hreads hpeek
    rw [fillPage, hpeek]
    dsimp only
    cases hnone : canonical.isNone && historical.isNone with
    | true => exact ⟨peeked, rfl, hkept⟩
    | false =>
      obtain ⟨taken, htake, hnext⟩ := hpeeked.takeRow_total hreads hanswers hkept hnone
      obtain ⟨hsound, -⟩ := hpeeked.takeRow_ok hreads hnone htake
      rw [if_neg (by simp), htake]
      exact ih hsound hnext

theorem Sound.hasMore_total (h : state.Sound rows) (hreads : sources.Reads rows)
    (hanswers : sources.Answers rows) (hresumes : state.Resumes) :
    ∃ next more, hasMore sources state = .ok (next, more) ∧ next.Resumes := by
  obtain ⟨canonical, canonicalMemory, hcanonical, hkept⟩ :=
    h.canonical.peek_total hreads.canonical hanswers.canonical hresumes.canonical
  obtain ⟨historical, historicalMemory, hhistorical, hkept'⟩ :=
    h.historical.peek_total hreads hanswers hresumes.historical
  cases hsome : canonicalMemory.isSome with
  | true =>
    refine ⟨{ state with canonical := canonical }, true, ?_, hkept, hresumes.historical⟩
    simp [hasMore, hcanonical, hsome, bind, Except.bind, pure, Except.pure]
  | false =>
    refine ⟨{ state with canonical := canonical, historical := historical },
      historicalMemory.isSome, ?_, hkept, hkept'⟩
    simp [hasMore, hcanonical, hhistorical, hsome, bind, Except.bind, pure, Except.pure]

/-- The positions of a page become a state that its request accepts. -/
theorem Sound.freeze_total (request : ListRequest) (h : state.Sound rows)
    (hreads : sources.Reads rows) (hanswers : sources.Answers rows) (hresumes : state.Resumes) :
    ∃ next, freeze sources request state = .ok next ∧ request.Accepts next := by
  obtain ⟨canonical, hcanonical⟩ :=
    h.canonical.isExhausted_total hreads.canonical hanswers.canonical hresumes.canonical
  obtain ⟨updated, hupdated⟩ :=
    h.historical.updated.isExhausted_total hreads.updated hanswers.updated
      hresumes.historical.updated
  obtain ⟨created, hcreated⟩ :=
    h.historical.created.isExhausted_total hreads.created hanswers.created
      hresumes.historical.created
  have hfreeze : freeze sources request state = .ok
      { request.firstState with
        canonical := state.canonical.emitted
        canonicalScan := state.canonical.scan
        historical := state.historical.consumedKeyset
        historicalUpdatedScan := state.historical.updated.scan
        historicalCreatedScan := state.historical.created.scan
        canonicalExhausted := canonical
        historicalUpdatedExhausted := updated
        historicalCreatedExhausted := created } := by
    rw [freeze, hcanonical, hupdated, hcreated]
    rfl
  refine ⟨_, hfreeze, fun now expiresAt hnow => ?_⟩
  simp [decodeUniversalListCursor, check, bind, Except.bind, pure, Except.pure, hnow,
    ListRequest.firstState, hresumes.canonical.emitted, hresumes.canonical.scan,
    hresumes.historical.consumed, hresumes.historical.updated.scan,
    hresumes.historical.created.scan]

end PageState

/-- A page behind a state that resumes never fails and is never cut short, and its request accepts
the state behind it. -/
theorem pageFrom_total {request : ListRequest} {limit : ℤ} {cursor : UniversalListCursorState}
    (hreads : sources.Reads rows) (hanswers : sources.Answers rows) (h : cursor.Sound)
    (hresumes : cursor.streams.Resumes) :
    ∃ page after, pageFrom sources request limit cursor = .ok (page, after) ∧
      (after = .done ∨ ∃ next, after = .more next ∧ request.Accepts next) := by
  obtain ⟨filled, hfill, hkept⟩ :=
    (h.streams rows).fillPage_total (boundedLimit limit) hreads hanswers hresumes
  obtain ⟨hfilled, -⟩ := (h.streams rows).fillPage_ok hreads hfill
  obtain ⟨left, more, hmore, hkept'⟩ := hfilled.hasMore_total hreads hanswers hkept
  obtain ⟨hleft, -⟩ := hfilled.hasMore_ok hreads hmore
  cases more with
  | false =>
    refine ⟨filled.page, .done, ?_, .inl rfl⟩
    rw [pageFrom, hfill]
    simp [hmore, bind, Except.bind, pure, Except.pure]
  | true =>
    obtain ⟨next, hfreeze, hdecode⟩ := hleft.freeze_total request hreads hanswers hkept'
    refine ⟨filled.page, .more next, ?_, .inr ⟨next, rfl, hdecode⟩⟩
    rw [pageFrom, hfill]
    simp [hmore, hfreeze, bind, Except.bind, pure, Except.pure]

end

end Omi.MemoryList
