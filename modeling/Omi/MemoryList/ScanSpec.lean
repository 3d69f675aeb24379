import Omi.MemoryList.PageSpec

/-! The rows that the scans of the list read: one for each document, in the order of their times, and
what each of them shows. No id is shown twice, and time alone changes nothing of what is shown. -/
namespace Omi.MemoryList
open Omi.Foundation Omi.Memory

/-! ### Pages of a scan -/

section scan
variable {δ : Type} {time : δ → ℤ} {docId : δ → String} {docs : List δ}
  {slot : δ → Except String ScanSlot} {place : δ → ScanSlot} {slots : List ScanSlot}

/-- The order key of a document in a query. -/
def docKey (time : δ → ℤ) (docId : δ → String) (doc : δ) : ℤ ×ₗ String :=
  keysetSortKey ⟨time doc, docId doc⟩

/-- The places of some documents, in the order of a query. -/
def placesOf (time : δ → ℤ) (docId : δ → String) (place : δ → ScanSlot) (docs : List δ) :
    List ScanSlot :=
  (sortBy (docKey time docId) docs).map place

/-- The place of a document is its order key, of a time at or after the epoch. -/
structure PlacedBy (time : δ → ℤ) (docId : δ → String) (place : δ → ScanSlot) (docs : List δ) :
    Prop where
  ids : (docs.map docId).Nodup
  epoch : ∀ doc ∈ docs, 0 ≤ time doc
  scan : ∀ doc ∈ docs, (place doc).scan = ⟨time doc, docId doc⟩

theorem mem_placesOf {row : ScanSlot} :
    row ∈ placesOf time docId place docs ↔ ∃ doc ∈ docs, place doc = row := by
  simp [placesOf, mem_sortBy]

theorem PlacedBy.key (h : PlacedBy time docId place docs) {doc : δ} (hdoc : doc ∈ docs) :
    (place doc).key = docKey time docId doc := by
  rw [ScanSlot.key, h.scan doc hdoc]
  rfl

theorem PlacedBy.sorted (h : PlacedBy time docId place docs) :
    (placesOf time docId place docs).Pairwise fun a b => a.key < b.key := by
  have hkeys : (docs.map (docKey time docId)).Nodup := by
    refine List.Nodup.of_map (fun key : ℤ ×ₗ String => (ofLex key).2) ?_
    rw [List.map_map]
    exact h.ids
  rw [placesOf, List.pairwise_map]
  refine (sortBy_strict hkeys).imp_of_mem fun {a b} ha hb hlt => ?_
  rwa [h.key (mem_sortBy.mp ha), h.key (mem_sortBy.mp hb)]

theorem PlacedBy.position (h : PlacedBy time docId place docs) {row : ScanSlot}
    (hrow : row ∈ placesOf time docId place docs) : scanPosition row.scan = row.key := by
  obtain ⟨doc, hdoc, rfl⟩ := mem_placesOf.mp hrow
  rw [ScanSlot.key, scanPosition, h.scan doc hdoc]
  dsimp only
  rw [max_eq_right (h.epoch doc hdoc)]

/-- The documents behind a scan keyset. -/
def docsAfter (time : δ → ℤ) (docId : δ → String) (docs : List δ) (scan : Option StreamKeyset) :
    List δ :=
  rowsAfter (docKey time docId) (scan.map scanPosition) (sortBy (docKey time docId) docs)

theorem queryPage_eq (limit : ℕ) (scan : Option StreamKeyset) :
    queryPage time docId docs limit (scan.map streamKeysetToScanCursor) =
      (docsAfter time docId docs scan).take limit := by
  cases scan <;> rfl

/-- Behind a keyset, the places are those of the documents there. -/
theorem PlacedBy.slotsAfter_eq (h : PlacedBy time docId place docs) (scan : Option StreamKeyset) :
    slotsAfter scan (placesOf time docId place docs) =
      (docsAfter time docId docs scan).map place := by
  rw [slotsAfter, docsAfter, rowsAfter, rowsAfter, placesOf, List.filter_map]
  congr 1
  refine List.filter_congr fun doc hdoc => ?_
  rw [Function.comp_apply, h.key (mem_sortBy.mp hdoc)]

/-- A list computed element by element, each as one function gives it. -/
theorem map_of_mapM (hslot : ∀ doc row, slot doc = .ok row → row = place doc)
    (h : docs.mapM slot = .ok slots) : slots = docs.map place := by
  rw [mapM_eq_ok_iff] at h
  induction h with
  | nil => rfl
  | cons hfirst _ ih => rw [List.map_cons, hslot _ _ hfirst, ih]

/-- A page of a scan has the places of the next documents. -/
theorem PlacedBy.scanPage_ok (h : PlacedBy time docId place docs)
    (hslot : ∀ doc row, slot doc = .ok row → row = place doc) {scan : Option StreamKeyset}
    {exhausted : Bool} (hpage : scanPage time docId docs slot scan = .ok (slots, exhausted)) :
    ∃ rest, slotsAfter scan (placesOf time docId place docs) = slots ++ rest ∧
      (slots = [] → rest = []) ∧ (exhausted = true → rest = []) := by
  obtain ⟨read, hread, hresult⟩ := bind_eq_ok_iff.mp hpage
  cases hresult
  rw [queryPage_eq] at hread ⊢
  set left := docsAfter time docId docs scan with hleft
  have hslots := map_of_mapM hslot hread
  refine ⟨(left.drop scanChunkSize).map place, ?_, ?_, ?_⟩
  · rw [h.slotsAfter_eq, hslots, ← List.map_append, List.take_append_drop]
  · intro hnone
    rw [hnone, eq_comm, List.map_eq_nil_iff, List.take_eq_nil_iff] at hslots
    obtain hchunk | hnil := hslots
    · cases hchunk
    · rw [hnil]
      rfl
  · intro hshort
    have hlength := of_decide_eq_true hshort
    rw [List.length_take] at hlength
    rw [List.drop_eq_nil_of_le (by omega)]
    rfl

end scan

/-! ### Canonical rows -/

section
variable (store : ListStore) (request : ListRequest) (now : ℤ)

/-- The place of a canonical document whose user is that of the request. -/
def canonicalPlace (doc : CanonicalDoc) : ScanSlot where
  memory := doc.item.bind (canonicalRow store request now doc.docId)
  scan := scanCursorToStreamKeyset doc.updatedAt doc.docId

def canonicalPlaces : List ScanSlot :=
  placesOf (·.updatedAt) (·.docId) (canonicalPlace store request now) store.canonical

/-- The status beside a historical row, if it can be told. -/
def statusBeside (memoryId : String) : Option MemoryItemStatus :=
  (canonicalStatus store memoryId).toOption.join

/-- The place of a historical document. -/
def historicalPlace (kind : HistoricalKind) (place : HistoricalDoc × ℤ) : ScanSlot where
  memory := historicalRow request kind place.1
  status := (historicalRow request kind place.1).bind fun _ => statusBeside store place.1.docId
  scan := scanCursorToStreamKeyset place.2 place.1.docId

def historicalRows (kind : HistoricalKind) : List ScanSlot :=
  placesOf (·.2) (·.1.docId) (historicalPlace store request kind) (historicalPlaces store kind)

/-- The row of a historical slot, unless the canonical rows decide its id. -/
def historicalShows (slot : ScanSlot) : Option MemoryDB :=
  slot.memory.filter fun _ => !(historicalSuppressionReason slot.status).isSome

/-- The rows of the scans that a page is read from. -/
def pageRows : PageRows where
  canonical := canonicalPlaces store request.scanned now
  updated := historicalRows store request .updated
  created := historicalRows store request .created
  canonicalShows := ScanSlot.memory
  historicalShows := historicalShows

variable {store request now} {kind : HistoricalKind}

theorem canonicalPlace_placedBy :
    PlacedBy (·.updatedAt) (·.docId) (canonicalPlace store request now) store.canonical := by
  refine ⟨store.canonicalIds, fun doc _ => doc.epoch, fun doc _ => ?_⟩
  rw [canonicalPlace, scanCursorToStreamKeyset, max_eq_right doc.epoch]

theorem canonicalSlot_ok (doc : CanonicalDoc) (row : ScanSlot)
    (h : canonicalSlot store request now doc = .ok row) :
    row = canonicalPlace store request now doc := by
  unfold canonicalSlot at h
  unfold canonicalPlace
  cases hitem : doc.item with
  | none =>
    rw [hitem] at h
    cases h
    rfl
  | some item =>
    rw [hitem] at h
    obtain ⟨-, -, hresult⟩ := bind_eq_ok_iff.mp h
    cases hresult
    rfl

/-- A canonical row that is shown is that of its document. -/
theorem canonicalRow_some {docId : String} {item : MemoryItem} {memory : MemoryDB}
    (h : canonicalRow store request now docId item = some memory) :
    memory = truncateLockedMemoryPreview (memoryItemToMemorydb item) ∧ item.memoryId = docId := by
  simp only [canonicalRow] at h
  split_ifs at h with hshown
  · exact ⟨(Option.some.inj h).symm, hshown.1⟩

@[simp] theorem truncateLockedMemoryPreview_id (memory : MemoryDB) :
    (truncateLockedMemoryPreview memory).id = memory.id := by
  unfold truncateLockedMemoryPreview
  split_ifs <;> rfl

@[simp] theorem truncateLockedMemoryPreview_updatedAt (memory : MemoryDB) :
    (truncateLockedMemoryPreview memory).updatedAt = memory.updatedAt := by
  unfold truncateLockedMemoryPreview
  split_ifs <;> rfl

theorem canonicalPlace_keyed {doc : CanonicalDoc} {memory : MemoryDB}
    (h : (canonicalPlace store request now doc).memory = some memory) :
    memoryKeyset memory = (canonicalPlace store request now doc).scan := by
  obtain ⟨item, hitem, hrow⟩ := Option.bind_eq_some_iff.mp h
  obtain ⟨rfl, hid⟩ := canonicalRow_some hrow
  have htime := doc.item_updatedAt item hitem
  simp [memoryKeyset, canonicalPlace, scanCursorToStreamKeyset, memoryItemToMemorydb, htime, hid]

theorem canonicalSource_reads (budget : ReadBudget) :
    (canonicalSource store request now budget).Reads (canonicalPlaces store request.scanned now)
      ScanSlot.memory := by
  have hkeyed : ∀ slot ∈ canonicalPlaces store request.scanned now, ∀ memory ∈ slot.memory,
      memoryKeyset memory = slot.scan := by
    intro slot hslot memory hmemory
    obtain ⟨doc, -, rfl⟩ := mem_placesOf.mp hslot
    exact canonicalPlace_keyed hmemory
  constructor
  · exact canonicalPlace_placedBy.sorted
  · exact fun slot hslot => canonicalPlace_placedBy.position hslot
  · intro scan slots exhausted hread
    obtain ⟨_, -, hpage⟩ := bind_eq_ok_iff.mp hread
    exact canonicalPlace_placedBy.scanPage_ok canonicalSlot_ok (mapError_eq_ok_iff.mp hpage)
  · intro slot hslot emitted hbehind
    cases hmemory : slot.memory with
    | none => rfl
    | some memory =>
      apply Option.filter_some_pos
      have hkey := hkeyed slot hslot memory hmemory
      cases emitted with
      | none => rfl
      | some keyset =>
        have hlt : keysetSortKey keyset < memoryCursorSortKey memory := by
          rw [memoryCursorSortKey, hkey]
          exact hbehind keyset rfl
        simpa [canonicalSource] using not_le.mpr hlt
  · exact hkeyed

/-! ### Historical rows -/

theorem mem_historicalPlaces {place : HistoricalDoc × ℤ} :
    place ∈ historicalPlaces store kind ↔
      place.1 ∈ store.historical ∧ kind.time place.1 = some place.2 := by
  obtain ⟨doc, time⟩ := place
  simp only [historicalPlaces, List.mem_filterMap, Option.map_eq_some_iff, Prod.mk.injEq]
  constructor
  · rintro ⟨_, hdoc, _, htime, rfl, rfl⟩
    exact ⟨hdoc, htime⟩
  · rintro ⟨hdoc, htime⟩
    exact ⟨doc, hdoc, time, htime, rfl, rfl⟩

theorem HistoricalKind.time_epoch {doc : HistoricalDoc} {time : ℤ}
    (h : kind.time doc = some time) : 0 ≤ time := by
  cases kind with
  | updated => exact doc.updatedEpoch time h
  | created => exact doc.createdEpoch time h

theorem historicalPlaces_ids : ((historicalPlaces store kind).map (·.1.docId)).Nodup := by
  have hsub : ((historicalPlaces store kind).map (·.1.docId)).Sublist
      (store.historical.map (·.docId)) := by
    rw [historicalPlaces, List.map_filterMap]
    induction store.historical with
    | nil => exact .slnil
    | cons doc docs ih =>
      cases htime : kind.time doc with
      | none => simpa [htime] using ih.cons doc.docId
      | some time => simpa [htime] using ih.cons_cons doc.docId
  exact store.historicalIds.sublist hsub

theorem historicalPlace_placedBy : PlacedBy (·.2) (·.1.docId) (historicalPlace store request kind)
    (historicalPlaces store kind) := by
  refine ⟨historicalPlaces_ids, fun place hplace => ?_, fun place hplace => ?_⟩
  · exact HistoricalKind.time_epoch (mem_historicalPlaces.mp hplace).2
  · have hepoch := HistoricalKind.time_epoch (mem_historicalPlaces.mp hplace).2
    rw [historicalPlace, scanCursorToStreamKeyset, max_eq_right hepoch]

theorem historicalSlot_ok (place : HistoricalDoc × ℤ) (row : ScanSlot)
    (h : historicalSlot store request kind place = .ok row) :
    row = historicalPlace store request kind place := by
  unfold historicalSlot at h
  unfold historicalPlace
  cases hmemory : historicalRow request kind place.1 with
  | none =>
    rw [hmemory] at h
    cases h
    rfl
  | some memory =>
    rw [hmemory] at h
    obtain ⟨status, hstatus, hresult⟩ := bind_eq_ok_iff.mp h
    cases hresult
    rw [Option.bind_some, statusBeside, hstatus]
    rfl

/-- A historical row that is shown is that of its document, under the time of its scan. -/
theorem historicalRow_some {doc : HistoricalDoc} {memory : MemoryDB}
    (h : historicalRow request kind doc = some memory) :
    memory.id = doc.docId ∧ ∀ time, kind.time doc = some time →
      memory.updatedAt = time ∧ kind = if doc.updatedAt.isSome then .updated else .created := by
  unfold historicalRow at h
  split_ifs at h with hleft hhidden hdevice
  obtain ⟨adapted, hadapted, rfl⟩ := Option.map_eq_some_iff.mp h
  simp only [adapt, Option.bind_eq_bind, Option.bind_eq_some_iff] at hadapted
  obtain ⟨createdAt, hcreated, content, -, visibility, -, hadapted⟩ := hadapted
  obtain ⟨-, hadapted⟩ := Option.ite_none_right_eq_some.mp hadapted
  obtain rfl := Option.some.inj hadapted
  rw [truncateLockedMemoryPreview_id, truncateLockedMemoryPreview_updatedAt]
  refine ⟨rfl, fun time htime => ?_⟩
  cases kind with
  | updated =>
    have htime : doc.updatedAt = some time := htime
    simp [htime]
  | created =>
    have htime : doc.createdAt = some time := htime
    have hnone : doc.updatedAt = none := by simpa using hleft
    simp_all

theorem historicalShows_some {slot : ScanSlot} {memory : MemoryDB}
    (h : historicalShows slot = some memory) : slot.memory = some memory ∧ slot.status = none := by
  obtain ⟨hmemory, hstatus⟩ := Option.filter_eq_some_iff.mp h
  refine ⟨hmemory, ?_⟩
  cases hslot : slot.status with
  | none => rfl
  | some status =>
    rw [hslot] at hstatus
    cases status <;> cases hstatus

theorem historicalSource_reads (budget : ReadBudget) :
    (historicalSource store request budget kind).Reads (historicalRows store request kind)
      historicalShows := by
  constructor
  · exact historicalPlace_placedBy.sorted
  · exact fun slot hslot => historicalPlace_placedBy.position hslot
  · intro scan slots exhausted hread
    obtain ⟨_, -, hpage⟩ := bind_eq_ok_iff.mp hread
    exact historicalPlace_placedBy.scanPage_ok historicalSlot_ok (mapError_eq_ok_iff.mp hpage)
  · intro slot _ emitted _
    rfl
  · intro slot hslot memory hmemory
    obtain ⟨place, hplace, rfl⟩ := mem_placesOf.mp hslot
    have htime := (mem_historicalPlaces.mp hplace).2
    have hrow := (historicalShows_some hmemory).1
    obtain ⟨hid, hkind⟩ := historicalRow_some hrow
    rw [memoryKeyset, hid, (hkind _ htime).1]
    rfl

theorem pageSources_reads (request : ListRequest) (read : PageRead) :
    (pageSources request read).Reads (pageRows read.store request read.now) :=
  ⟨canonicalSource_reads read.budget, historicalSource_reads read.budget,
    historicalSource_reads read.budget⟩

end

end Omi.MemoryList
