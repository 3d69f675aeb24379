import Omi.MemoryList.Rows

/-! The cursor paging of the mixed memory list: peekable streams over the pages of a scan, the merge
of the two historical ones with the canonical one, and `read_page`, which freezes their positions
into a cursor. The signature of a cursor is left out. -/
namespace Omi.MemoryList
open Omi.Foundation Omi.Memory

/-! ### Budgets -/

/-- The scans of a page. -/
inductive ListOrigin where
  | canonical
  | historical (kind : HistoricalKind)
  deriving DecidableEq

/-- How a read fails: with an HTTP error, or with `ListReadBudgetExhausted`. -/
inductive ReadFailure where
  | failed (detail : String)
  | exhausted
  deriving DecidableEq

/-- Where a read is stopped: before a page of a scan is read from behind a keyset, or when a row is
passed over. No read comes to a place twice, so that any count of rows and any clock of
`_ScanRowBudget`, and of the `ListReadBudget` of the request, is one of these, as is a store that
answers some reads only. -/
structure ReadBudget where
  check : ListOrigin → Option StreamKeyset → Except ReadFailure Unit := fun _ _ => pure ()
  charge : ListOrigin → StreamKeyset → Except ReadFailure Unit := fun _ _ => pure ()

/-! ### Streams -/

/-- What a stream reads: its pages, the charge for a row that is passed over, whether a row of a slot
is one, and how often it may turn before its scan must have ended. -/
structure SlotSource where
  read : Option StreamKeyset → Except ReadFailure (List ScanSlot × Bool)
  charge : StreamKeyset → Except ReadFailure Unit
  suppressed : Option StreamKeyset → ScanSlot → MemoryDB → Bool
  turns : ℕ

/-- A stream over a scan: the key of the last row that it emitted, its position, whether the scan is
exhausted, the row that was peeked with its position, and the slots of a page that are left. -/
structure SlotStream where
  emitted : Option StreamKeyset := none
  scan : Option StreamKeyset := none
  exhausted : Bool := false
  peeked : Option (MemoryDB × StreamKeyset) := none
  slots : List ScanSlot := []
  slotsExhausted : Bool := false

namespace SlotStream
variable (source : SlotSource) (stream : SlotStream)

/-- `_ensure_slots`. -/
def ensureSlots : Except ReadFailure SlotStream :=
  if !stream.slots.isEmpty || stream.exhausted then pure stream
  else do
    let (slots, exhausted) ← source.read stream.scan
    pure
      { stream with
        slots := slots
        slotsExhausted := exhausted
        exhausted := stream.exhausted || slots.isEmpty }

/-- `_advance_raw_slot`. -/
def advanceRawSlot : SlotStream :=
  match stream.slots with
  | [] | [_] => { stream with slots := [], exhausted := stream.slotsExhausted }
  | _ :: slots => { stream with slots := slots }

/-- Go on behind a slot. -/
def passSlot (slot : ScanSlot) : SlotStream :=
  advanceRawSlot { stream with scan := some slot.scan }

/-- The row of a slot that may be shown. -/
def shownIn (slot : ScanSlot) : Option MemoryDB :=
  slot.memory.filter fun memory => !source.suppressed stream.emitted slot memory

/-- The loop of `peek`. -/
def peekLoop : ℕ → SlotStream → Except ReadFailure (SlotStream × Option MemoryDB)
  | 0, _ => throw (.failed "the scan does not end")
  | turns + 1, stream => do
    let stream ← stream.ensureSlots source
    match stream.slots with
    | [] => pure ({ stream with exhausted := true }, none)
    | slot :: _ =>
      match stream.shownIn source slot with
      | none => do
        source.charge slot.scan
        peekLoop turns (stream.passSlot slot)
      | some memory => pure ({ stream with peeked := some (memory, slot.scan) }, some memory)

/-- `peek`. -/
def peek : Except ReadFailure (SlotStream × Option MemoryDB) :=
  match stream.peeked with
  | some (memory, _) => pure (stream, some memory)
  | none => peekLoop source source.turns stream

/-- `consume`. -/
def consume : Except ReadFailure SlotStream :=
  match stream.peeked with
  | none => throw (.failed "cursor stream consume without peek")
  | some (memory, scan) =>
    pure (advanceRawSlot
      { stream with
        emitted := some (memoryKeyset memory)
        scan := some scan
        peeked := none })

/-- `exhausted and peek() is None`. -/
def isExhausted : Except ReadFailure Bool :=
  if stream.exhausted then (stream.peek source).map (·.2.isNone) else pure false

end SlotStream

/-! ### The historical stream -/

/-- The sources of a page. -/
structure PageSources where
  canonical : SlotSource
  updated : SlotSource
  created : SlotSource

/-- `_HistoricalCursorStream`. -/
structure HistoricalCursorStream where
  consumedKeyset : Option StreamKeyset := none
  updated : SlotStream
  created : SlotStream
  peekSource : Option HistoricalKind := none

namespace HistoricalCursorStream
variable (sources : PageSources) (stream : HistoricalCursorStream)

/-- The stream whose row is next. -/
def nextSource : Option MemoryDB → Option MemoryDB → Option HistoricalKind
  | none, none => none
  | some _, none => some .updated
  | none, some _ => some .created
  | some updated, some created =>
    if memoryCursorSortKey updated ≤ memoryCursorSortKey created then some .updated
    else some .created

/-- The row of the stream that is next. -/
def rowOf (source : Option HistoricalKind) (updated created : Option MemoryDB) : Option MemoryDB :=
  match source with
  | none => none
  | some .updated => updated
  | some .created => created

/-- `peek`. -/
def peek : Except ReadFailure (HistoricalCursorStream × Option MemoryDB) := do
  let (updated, updatedMemory) ← stream.updated.peek sources.updated
  let (created, createdMemory) ← stream.created.peek sources.created
  let peekSource := nextSource updatedMemory createdMemory
  pure ({ stream with updated := updated, created := created, peekSource := peekSource },
    rowOf peekSource updatedMemory createdMemory)

/-- `consume`. -/
def consume : Except ReadFailure HistoricalCursorStream :=
  match stream.peekSource with
  | none => throw (.failed "historical cursor stream consume without peek")
  | some .updated => do
    let updated ← stream.updated.consume
    pure
      { stream with
        consumedKeyset := updated.emitted
        updated := updated
        peekSource := none }
  | some .created => do
    let created ← stream.created.consume
    pure
      { stream with
        consumedKeyset := created.emitted
        created := created
        peekSource := none }

end HistoricalCursorStream

/-! ### Pages -/

/-- `UniversalListCursorState`. -/
structure UniversalListCursorState where
  uid : String
  includeArchive : Bool
  includePendingProcessing : Bool
  deviceScope : String
  clientDeviceId : Option String
  canonical : Option StreamKeyset := none
  canonicalScan : Option StreamKeyset := none
  historical : Option StreamKeyset := none
  historicalUpdatedScan : Option StreamKeyset := none
  historicalCreatedScan : Option StreamKeyset := none
  canonicalExhausted : Bool := false
  historicalUpdatedExhausted : Bool := false
  historicalCreatedExhausted : Bool := false
  deriving DecidableEq

/-- The cursor state of a first page. -/
def ListRequest.firstState (request : ListRequest) : UniversalListCursorState where
  uid := request.uid
  includeArchive := request.includeArchive
  includePendingProcessing := request.includePendingProcessing
  deviceScope := request.deviceScope
  clientDeviceId := request.clientDeviceId

/-- `_parse_keyset`, of a keyset that was encoded. -/
def keysetParses (keyset : Option StreamKeyset) : Bool :=
  keyset.all fun keyset => 0 ≤ keyset.updatedAtUs && !isBlank keyset.memoryId

/-- A cursor: the state that is encoded in it, and the second that it expires after. -/
structure ListCursor where
  state : UniversalListCursorState
  expiresAt : ℤ
  deriving DecidableEq

/-- `encode_universal_list_cursor`. -/
def encodeUniversalListCursor (state : UniversalListCursorState) (now ttl : ℤ) : ListCursor where
  state := state
  expiresAt := now + max 1 ttl

/-- `decode_universal_list_cursor`, of a cursor that was encoded: it has not expired, and its
authority is that of the request. -/
def decodeUniversalListCursor (request : ListRequest) (now : ℤ) (cursor : ListCursor) :
    Except String UniversalListCursorState := do
  let state := cursor.state
  check (keysetParses state.canonical && keysetParses state.canonicalScan &&
      keysetParses state.historical && keysetParses state.historicalUpdatedScan &&
      keysetParses state.historicalCreatedScan) "malformed_cursor"
  check (now ≤ cursor.expiresAt) "cursor_expired"
  check (state.uid = request.uid) "uid_mismatch"
  check (state.includeArchive = request.includeArchive) "include_archive_mismatch"
  check (state.includePendingProcessing = request.includePendingProcessing)
    "include_pending_processing_mismatch"
  check (state.deviceScope = request.deviceScope) "device_scope_mismatch"
  check (orText state.clientDeviceId none = orText request.clientDeviceId none)
    "device_scope_mismatch"
  pure state

/-- The request of the canonical scan, which the stream does not hand `include_archive`. -/
def ListRequest.scanned (request : ListRequest) : ListRequest :=
  { request with includeArchive := false }

/-- The canonical rows, without those up to the last one that was emitted. -/
def canonicalSource (store : ListStore) (request : ListRequest) (now : ℤ) (budget : ReadBudget) :
    SlotSource where
  read := fun scan => do
    budget.check .canonical scan
    (readCanonicalScanPage store request.scanned now scan).mapError fun _ =>
      .failed "Canonical memory unavailable"
  charge := budget.charge .canonical
  suppressed := fun emitted _ memory =>
    emitted.any fun emitted => memoryCursorSortKey memory ≤ keysetSortKey emitted
  turns := store.canonical.length + 1

/-- `historical_suppression_reason`. -/
def historicalSuppressionReason (status : Option MemoryItemStatus) : Option String :=
  match status with
  | some .active => some "canonical_identity"
  | some .tombstoned | some .hidden | some .superseded => some "canonical_state"
  | none => none

/-- The historical rows of a kind, without those whose id the canonical rows decide. -/
def historicalSource (store : ListStore) (request : ListRequest) (budget : ReadBudget)
    (kind : HistoricalKind) : SlotSource where
  read := fun scan => do
    budget.check (.historical kind) scan
    (readHistoricalScanPage store request kind scan).mapError .failed
  charge := budget.charge (.historical kind)
  suppressed := fun _ slot _ => (historicalSuppressionReason slot.status).isSome
  turns := store.historical.length + 1

/-- What a page is read from: the documents and the time that their scans see, the limit asked for,
the budget, and the seconds at which the cursor is decoded and at which the next one is encoded, with
the lifetime of that one. -/
structure PageRead where
  store : ListStore
  now : ℤ
  limit : ℤ
  budget : ReadBudget := {}
  decodedAt : ℤ := 0
  encodedAt : ℤ := 0
  ttl : ℤ := 86400

def pageSources (request : ListRequest) (read : PageRead) : PageSources where
  canonical := canonicalSource read.store request read.now read.budget
  updated := historicalSource read.store request read.budget .updated
  created := historicalSource read.store request read.budget .created

/-- The streams of a page, and its rows so far. -/
structure PageState where
  canonical : SlotStream
  historical : HistoricalCursorStream
  page : List MemoryDB := []

/-- The streams that go on from a cursor state. -/
def UniversalListCursorState.streams (state : UniversalListCursorState) : PageState where
  canonical :=
    { emitted := state.canonical
      scan := state.canonicalScan
      exhausted := state.canonicalExhausted
      slotsExhausted := state.canonicalExhausted }
  historical :=
    { consumedKeyset := state.historical
      updated :=
        { scan := state.historicalUpdatedScan
          exhausted := state.historicalUpdatedExhausted
          slotsExhausted := state.historicalUpdatedExhausted }
      created :=
        { scan := state.historicalCreatedScan
          exhausted := state.historicalCreatedExhausted
          slotsExhausted := state.historicalCreatedExhausted } }

/-- Whether the canonical row is next. -/
def takesCanonical (canonical historical : Option MemoryDB) : Bool :=
  historical.all fun historical =>
    canonical.any fun canonical => memoryCursorSortKey canonical ≤ memoryCursorSortKey historical

/-- Append the next row of the two that were peeked. -/
def takeRow (state : PageState) (canonical historical : Option MemoryDB) :
    Except ReadFailure PageState :=
  if takesCanonical canonical historical then do
    let stream ← state.canonical.consume
    pure { state with canonical := stream, page := state.page ++ canonical.toList }
  else do
    let stream ← state.historical.consume
    pure { state with historical := stream, page := state.page ++ historical.toList }

/-- Peek both streams. -/
def peekBoth (sources : PageSources) (state : PageState) :
    Except ReadFailure (PageState × Option MemoryDB × Option MemoryDB) := do
  let (canonical, canonicalMemory) ← state.canonical.peek sources.canonical
  let (historical, historicalMemory) ← state.historical.peek sources
  pure ({ state with canonical := canonical, historical := historical },
    canonicalMemory, historicalMemory)

/-- The loop of `read_page`: as many rows as the page has room for, and whether the budget of the
request ended it before. -/
def fillPage (sources : PageSources) : ℕ → PageState → Except ReadFailure (PageState × Bool)
  | 0, state => pure (state, false)
  | room + 1, state =>
    match peekBoth sources state with
    | .error .exhausted => pure (state, true)
    | .error failure => throw failure
    | .ok (peeked, canonical, historical) =>
      if canonical.isNone && historical.isNone then pure (peeked, false)
      else do
        let next ← takeRow peeked canonical historical
        fillPage sources room next

/-- Whether there is more; a historical row is looked for only if no canonical one is left. -/
def hasMore (sources : PageSources) (state : PageState) :
    Except ReadFailure (PageState × Bool) := do
  let (canonical, canonicalMemory) ← state.canonical.peek sources.canonical
  let state := { state with canonical := canonical }
  if canonicalMemory.isSome then pure (state, true)
  else do
    let (historical, historicalMemory) ← state.historical.peek sources
    pure ({ state with historical := historical }, historicalMemory.isSome)

/-- The cursor state behind the rows of a page. -/
def freeze (sources : PageSources) (request : ListRequest) (state : PageState) :
    Except ReadFailure UniversalListCursorState := do
  let canonicalExhausted ← state.canonical.isExhausted sources.canonical
  let updatedExhausted ← state.historical.updated.isExhausted sources.updated
  let createdExhausted ← state.historical.created.isExhausted sources.created
  pure
    { request.firstState with
      canonical := state.canonical.emitted
      canonicalScan := state.canonical.scan
      historical := state.historical.consumedKeyset
      historicalUpdatedScan := state.historical.updated.scan
      historicalCreatedScan := state.historical.created.scan
      canonicalExhausted := canonicalExhausted
      historicalUpdatedExhausted := updatedExhausted
      historicalCreatedExhausted := createdExhausted }

/-- `max(1, min(limit or 100, MAX_PAGE_SIZE))`. -/
def boundedLimit (limit : ℤ) : ℕ := (max 1 (min (if limit = 0 then 100 else limit) 500)).toNat

/-- The rows of a page, and the state behind them where more is left. A page that its budget ended
has none, although rows are left. -/
def pageFrom (sources : PageSources) (request : ListRequest) (limit : ℤ)
    (state : UniversalListCursorState) :
    Except ReadFailure (List MemoryDB × Next UniversalListCursorState) := do
  let (filled, truncated) ← fillPage sources (boundedLimit limit) state.streams
  if truncated then pure (filled.page, .cut)
  else do
    let (left, more) ← hasMore sources filled
    if more then do
      let next ← freeze sources request left
      pure (filled.page, .more next)
    else pure (filled.page, .done)

/-- The state that a request goes on from. -/
def cursorState (request : ListRequest) (now : ℤ) (cursor : Option ListCursor) :
    Except ReadFailure UniversalListCursorState :=
  match cursor with
  | none => pure request.firstState
  | some cursor =>
    (decodeUniversalListCursor request now cursor).mapError fun reason =>
      .failed ("invalid_or_stale_cursor:" ++ reason)

/-- `UniversalMemoryListPage`. -/
structure UniversalMemoryListPage where
  memories : List MemoryDB
  nextCursor : Option ListCursor
  truncated : Bool

/-- `read_page`. -/
def readPage (request : ListRequest) (read : PageRead) (cursor : Option ListCursor) :
    Except ReadFailure UniversalMemoryListPage := do
  let state ← cursorState request read.decodedAt cursor
  let (memories, next) ← pageFrom (pageSources request read) request read.limit state
  match next with
  | .more next =>
    let nextCursor := encodeUniversalListCursor next read.encodedAt read.ttl
    pure { memories := memories, nextCursor := some nextCursor, truncated := false }
  | .done => pure { memories := memories, nextCursor := none, truncated := false }
  | .cut => pure { memories := memories, nextCursor := none, truncated := true }

end Omi.MemoryList
