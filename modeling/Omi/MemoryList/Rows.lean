import Omi.Foundation.Paging
import Omi.MemoryList.Visibility

/-! The documents of one user that the mixed memory list is read from, and the pages of rows that
its scans read: canonical rows, and historical ones by the time of their update, or of their
creation where they have none. A row that is not shown keeps its place in the scan. -/
namespace Omi.MemoryList
open Omi.Foundation Omi.Memory

/-! ### Keysets -/

/-- The order key of a row: its time in microseconds, and its document id. -/
structure StreamKeyset where
  updatedAtUs : ℤ
  memoryId : String
  deriving DecidableEq, Repr

/-- `keyset_sort_key`: newest first, then by id. -/
def keysetSortKey (keyset : StreamKeyset) : ℤ ×ₗ String :=
  toLex (-keyset.updatedAtUs, keyset.memoryId)

/-- `scan_cursor_to_stream_keyset`. -/
def scanCursorToStreamKeyset (time : ℤ) (docId : String) : StreamKeyset := ⟨max 0 time, docId⟩

/-! ### Documents -/

/-- A response row of the list. -/
structure MemoryDB where
  id : String
  uid : String
  content : String
  createdAt : ℤ
  updatedAt : ℤ
  visibility : Option String
  isLocked : Bool
  memoryTier : MemoryLayer
  deriving DecidableEq, Repr

/-- `memory_keyset`. -/
def memoryKeyset (memory : MemoryDB) : StreamKeyset := ⟨max 0 memory.updatedAt, memory.id⟩

/-- `memory_cursor_sort_key`. -/
def memoryCursorSortKey (memory : MemoryDB) : ℤ ×ₗ String := keysetSortKey (memoryKeyset memory)

/-- `_truncate_locked_preview_text`. -/
def truncateLockedPreviewText (content : String) : String :=
  if content.length > 70 then firstChars 70 content ++ "..." else content

def truncateLockedMemoryPreview (memory : MemoryDB) : MemoryDB :=
  if memory.isLocked then { memory with content := truncateLockedPreviewText memory.content }
  else memory

/-- A canonical document: its raw time and status, and the row that it validates as, if it does.
Times are at or after the epoch. -/
structure CanonicalDoc where
  docId : String
  updatedAt : ℤ
  status : Option MemoryItemStatus
  item : Option MemoryItem
  nonblank : isBlank docId = false
  epoch : 0 ≤ updatedAt
  item_updatedAt : ∀ row ∈ item, row.updatedAt = updatedAt
  item_status : ∀ row ∈ item, status = some row.status

/-- A historical document, decrypted; `visibility` is there without a text where it is null, and
`valid` says that the other fields validate. -/
structure HistoricalDoc where
  docId : String
  updatedAt : Option ℤ := none
  createdAt : Option ℤ
  uid : Option String := none
  content : Option String
  visibility : Option (Option String) := none
  isLocked : Bool := false
  userReview : Option Bool := none
  invalidAt : Option ℤ := none
  captureDeviceIds : List String := []
  evidenceDevices : List (Option String) := []
  valid : Bool := true
  nonblank : isBlank docId = false
  updatedEpoch : ∀ time ∈ updatedAt, 0 ≤ time
  createdEpoch : ∀ time ∈ createdAt, 0 ≤ time

/-- The documents of one user, each under its own id: the canonical rows, the overrides of
historical ones with their status, if it is one, the ids with a privacy receipt, and the historical
rows. -/
structure ListStore where
  canonical : List CanonicalDoc
  overrides : Table (Option MemoryItemStatus) := []
  privacyReceipts : List String := []
  historical : List HistoricalDoc
  canonicalIds : (canonical.map (·.docId)).Nodup
  historicalIds : (historical.map (·.docId)).Nodup

/-! ### Canonical rows -/

/-- `memory_item_to_memorydb`. -/
def memoryItemToMemorydb (item : MemoryItem) : MemoryDB where
  id := item.memoryId
  uid := item.uid
  content := item.content.getD ""
  createdAt := item.capturedAt
  updatedAt := item.updatedAt
  visibility := some item.visibility
  isLocked := (item.promotionRecord.get "is_locked").truthy
  memoryTier := item.tier

/-- `_read_canonical_memory_item_for_lineage`. -/
def readForLineage (store : ListStore) (uid memoryId : String) :
    Except String (Option MemoryItem) := do
  let requestedId := strip memoryId
  if requestedId = "" then pure none
  else
    match store.canonical.find? (·.docId = requestedId) with
    | none => pure none
    | some doc =>
      match doc.item with
      | none => throw "ValidationError"
      | some item =>
        check (item.memoryId = doc.docId) "canonical memory id mismatch"
        check (item.uid = uid) "canonical memory uid mismatch"
        pure (some item)

/-- A place in a scan: the row that is shown there, if one is, the canonical status of its id, and
the position behind it. -/
structure ScanSlot where
  memory : Option MemoryDB
  status : Option MemoryItemStatus := none
  scan : StreamKeyset

/-- The row of a canonical document in a scan: one under a foreign id, a hidden one or one that
another row of its lineage stands for is passed over. -/
def canonicalRow (store : ListStore) (request : ListRequest) (now : ℤ) (docId : String)
    (item : MemoryItem) : Option MemoryDB :=
  let visible := canonicalScanItemVisible request now
  if item.memoryId = docId ∧ visible item = true ∧
      canonicalScanLineageSuppressed (readForLineage store request.uid) visible item = false then
    some (truncateLockedMemoryPreview (memoryItemToMemorydb item))
  else none

/-- The place of a canonical document; a malformed one shows nothing. -/
def canonicalSlot (store : ListStore) (request : ListRequest) (now : ℤ) (doc : CanonicalDoc) :
    Except String ScanSlot :=
  let scan := scanCursorToStreamKeyset doc.updatedAt doc.docId
  match doc.item with
  | none => pure { memory := none, scan := scan }
  | some item => do
    check (item.uid = request.uid) "memory item uid mismatch"
    pure { memory := canonicalRow store request now doc.docId item, scan := scan }

/-! ### Historical rows -/

inductive HistoricalKind where
  | updated
  | created
  deriving DecidableEq, Repr

/-- The time that a scan of the kind reads the document under; it reads none without. -/
def HistoricalKind.time (kind : HistoricalKind) (doc : HistoricalDoc) : Option ℤ :=
  match kind with
  | .updated => doc.updatedAt
  | .created => doc.createdAt

/-- `HistoricalMemoryAdapter._adapt`: a row without a time, a text or a known visibility is none. -/
def adapt (request : ListRequest) (doc : HistoricalDoc) : Option MemoryDB := do
  let createdAt ← doc.createdAt
  let content ← doc.content
  let visibility ← doc.visibility.getD (some "public")
  if doc.valid && visibility ∈ ["private", "public", "shared"] then
    some
      { id := doc.docId
        uid := doc.uid.getD request.uid
        content := if doc.isLocked then truncateLockedPreviewText content else content
        createdAt := createdAt
        updatedAt := doc.updatedAt.getD createdAt
        visibility := some visibility
        isLocked := doc.isLocked
        memoryTier := .longTerm }
  else none

/-- `matches_device`. -/
def matchesDevice (request : ListRequest) (doc : HistoricalDoc) : Bool :=
  if request.deviceScope = "all" then true
  else
    match request.clientDeviceId with
    | none => false
    | some clientDeviceId =>
      let knownDevices := doc.captureDeviceIds ++ doc.evidenceDevices.filterMap id
      clientDeviceId ≠ "" && (knownDevices.isEmpty || clientDeviceId ∈ knownDevices)

/-- The row of a historical document in a scan of the kind. A row with an update time is left to the
scan by it. -/
def historicalRow (request : ListRequest) (kind : HistoricalKind) (doc : HistoricalDoc) :
    Option MemoryDB :=
  if kind = .created ∧ doc.updatedAt.isSome then none
  else if doc.userReview = some false ∨ doc.invalidAt.isSome then none
  else if matchesDevice request doc then (adapt request doc).map truncateLockedMemoryPreview
  else none

/-- The status of one id in `canonical_statuses`: a document with no valid status never admits the
historical row beside it. -/
def canonicalStatus (store : ListStore) (memoryId : String) :
    Except String (Option MemoryItemStatus) :=
  let item := store.canonical.find? (·.docId = memoryId)
  let override := store.overrides.get memoryId
  match (item.bind (·.status)).or (override.bind id) with
  | some status => pure (some status)
  | none =>
    if item.isNone ∧ override.isNone then pure none
    else if item.isNone ∧ memoryId ∈ store.privacyReceipts then pure (some .tombstoned)
    else throw "Canonical memory unavailable"

/-- The place of a historical document, with the status of its id where it has a row. -/
def historicalSlot (store : ListStore) (request : ListRequest) (kind : HistoricalKind)
    (place : HistoricalDoc × ℤ) : Except String ScanSlot :=
  let scan := scanCursorToStreamKeyset place.2 place.1.docId
  match historicalRow request kind place.1 with
  | none => pure { memory := none, scan := scan }
  | some memory => do
    let status ← canonicalStatus store place.1.docId
    pure { memory := some memory, status := status, scan := scan }

/-! ### Pages of a scan -/

/-- `MEMORY_LIST_SCAN_CHUNK_SIZE`. -/
def scanChunkSize : ℕ := 50

/-- `stream_keyset_to_scan_cursor`. -/
def streamKeysetToScanCursor (keyset : StreamKeyset) : ℤ × String :=
  (max 0 keyset.updatedAtUs, keyset.memoryId)

/-- The documents that a query ordered by a time, newest first, and then by id, gives from behind a
cursor. -/
def queryPage {δ : Type} (time : δ → ℤ) (docId : δ → String) (docs : List δ) (limit : ℕ)
    (startAfter : Option (ℤ × String)) : List δ :=
  let key := fun doc => keysetSortKey ⟨time doc, docId doc⟩
  (rowsAfter key (startAfter.map fun cursor => keysetSortKey ⟨cursor.1, cursor.2⟩)
    (sortBy key docs)).take limit

/-- One page of a scan: the places of its documents, and whether the query has no more. -/
def scanPage {δ : Type} (time : δ → ℤ) (docId : δ → String) (docs : List δ)
    (slot : δ → Except String ScanSlot) (scan : Option StreamKeyset) :
    Except String (List ScanSlot × Bool) := do
  let snapshots := queryPage time docId docs scanChunkSize (scan.map streamKeysetToScanCursor)
  let slots ← snapshots.mapM slot
  pure (slots, snapshots.length < scanChunkSize)

/-- `read_canonical_scan_page`. -/
def readCanonicalScanPage (store : ListStore) (request : ListRequest) (now : ℤ) :
    Option StreamKeyset → Except String (List ScanSlot × Bool) :=
  scanPage (·.updatedAt) (·.docId) store.canonical (canonicalSlot store request now)

/-- The documents that a scan of the kind reads, each with its time. -/
def historicalPlaces (store : ListStore) (kind : HistoricalKind) : List (HistoricalDoc × ℤ) :=
  store.historical.filterMap fun doc => (kind.time doc).map fun time => (doc, time)

/-- `read_updated_scan_page` and `read_created_scan_page`. -/
def readHistoricalScanPage (store : ListStore) (request : ListRequest) (kind : HistoricalKind) :
    Option StreamKeyset → Except String (List ScanSlot × Bool) :=
  scanPage (·.2) (·.1.docId) (historicalPlaces store kind) (historicalSlot store request kind)

end Omi.MemoryList
