import Omi.MemoryList.ScanSpec

/-! The list that the pages are cut from: the rows that the documents show, no two under one id, in
their order. -/
namespace Omi.MemoryList
open Omi.Foundation Omi.Memory

section
variable (store : ListStore) (request : ListRequest) (now : ℤ)

/-- The rows that the documents of a scan show: a canonical row that is not in the archive, or a
historical one that no canonical document decides. -/
def shownBy : ListOrigin → List MemoryDB
  | .canonical =>
    store.canonical.filterMap fun doc =>
      doc.item.bind (canonicalRow store request.scanned now doc.docId)
  | .historical kind =>
    (historicalPlaces store kind).filterMap fun place =>
      (historicalRow request kind place.1).filter fun _ => (statusBeside store place.1.docId).isNone

/-- The rows that the list shows. -/
def shown : List MemoryDB :=
  shownBy store request now .canonical ++
    (shownBy store request now (.historical .updated) ++
      shownBy store request now (.historical .created))

variable {store request now}

/-! ### Time -/

theorem isDefaultAccessEligible_now {item : MemoryItem} {policy : MemoryAccessPolicy} (now' : ℤ) :
    (isDefaultAccessEligible item policy now).allowed =
      (isDefaultAccessEligible item policy now').allowed := by
  unfold isDefaultAccessEligible
  cases basePolicyChecks item policy with
  | some _ => rfl
  | none =>
    dsimp only
    split_ifs <;> rfl

/-- The default list does not change with the time alone: a short-term row is shown once it is
processed, whether or not it has expired since. -/
theorem canonicalDefaultVisible_now {item : MemoryItem} {policy : MemoryAccessPolicy} (now' : ℤ) :
    canonicalDefaultVisible item policy now = canonicalDefaultVisible item policy now' := by
  have haccess : (isDefaultAccessEligible item policy now).allowed =
      (isDefaultAccessEligible item policy now').allowed := isDefaultAccessEligible_now now'
  by_cases hprocessed : item.processingState = .processed
  · have hlifecycle : evaluateShortTermLifecycle item now = evaluateShortTermLifecycle item now' := by
      simp only [evaluateShortTermLifecycle, if_pos hprocessed]
    simp only [canonicalDefaultVisible, productMemoryItemDecision, hlifecycle, haccess]
  · simp [canonicalDefaultVisible, hprocessed]

theorem canonicalScanItemVisible_now (now' : ℤ) :
    canonicalScanItemVisible request now = canonicalScanItemVisible request now' := by
  funext item
  simp only [canonicalScanItemVisible, canonicalDefaultVisible_now now']

/-- Time alone changes nothing of what the scans read. -/
theorem pageRows_now (now' : ℤ) : pageRows store request now = pageRows store request now' := by
  have hrow : canonicalRow store request.scanned now = canonicalRow store request.scanned now' := by
    funext docId item
    simp only [canonicalRow, canonicalScanItemVisible_now now']
  have hplace :
      canonicalPlace store request.scanned now = canonicalPlace store request.scanned now' := by
    funext doc
    rw [canonicalPlace, canonicalPlace, hrow]
  rw [pageRows, pageRows, canonicalPlaces, canonicalPlaces, hplace]

/-! ### Ids -/

/-- The status beside the id of a canonical row is that of the row. -/
theorem statusBeside_of_item {doc : CanonicalDoc} {item : MemoryItem}
    (hdoc : doc ∈ store.canonical) (hitem : doc.item = some item) :
    statusBeside store doc.docId = some item.status := by
  have hfind : store.canonical.find? (·.docId = doc.docId) = some doc := by
    cases hfound : store.canonical.find? (·.docId = doc.docId) with
    | none =>
      rw [List.find?_eq_none] at hfound
      exact absurd (decide_eq_true rfl) (hfound doc hdoc)
    | some found =>
      have hid : found.docId = doc.docId := by simpa using List.find?_some hfound
      have hmem := List.mem_of_find?_eq_some hfound
      exact congrArg some (List.inj_on_of_nodup_map store.canonicalIds hmem hdoc hid)
  have hstatus := doc.item_status item hitem
  simp only [statusBeside, canonicalStatus, hfind, Option.bind_some, hstatus, Option.some_or]
  rfl

theorem shownBy_canonical_doc {memory : MemoryDB}
    (h : memory ∈ shownBy store request now .canonical) :
    ∃ doc ∈ store.canonical, doc.docId = memory.id ∧ doc.item.isSome = true := by
  obtain ⟨doc, hdoc, hmemory⟩ := List.mem_filterMap.mp h
  obtain ⟨item, hitem, hrow⟩ := Option.bind_eq_some_iff.mp hmemory
  obtain ⟨rfl, hid⟩ := canonicalRow_some hrow
  refine ⟨doc, hdoc, ?_, by rw [hitem]; rfl⟩
  rw [truncateLockedMemoryPreview_id]
  exact hid.symm

theorem shownBy_historical_doc {kind : HistoricalKind} {memory : MemoryDB}
    (h : memory ∈ shownBy store request now (.historical kind)) :
    ∃ doc ∈ store.historical, doc.docId = memory.id ∧
      kind = (if doc.updatedAt.isSome then .updated else .created) ∧
      statusBeside store doc.docId = none := by
  obtain ⟨place, hplace, hmemory⟩ := List.mem_filterMap.mp h
  obtain ⟨hdoc, htime⟩ := mem_historicalPlaces.mp hplace
  obtain ⟨hrow, hnone⟩ := Option.filter_eq_some_iff.mp hmemory
  obtain ⟨hid, hkind⟩ := historicalRow_some hrow
  exact ⟨place.1, hdoc, hid.symm, (hkind _ htime).2, Option.isNone_iff_eq_none.mp hnone⟩

/-- A row that is shown is so by one scan only. -/
theorem origin_unique {origin other : ListOrigin} {memory memory' : MemoryDB}
    (h : memory ∈ shownBy store request now origin)
    (h' : memory' ∈ shownBy store request now other) (hid : memory.id = memory'.id) :
    origin = other := by
  have hdecided : ∀ {kind first second}, first ∈ shownBy store request now .canonical →
      second ∈ shownBy store request now (.historical kind) → first.id ≠ second.id := by
    intro kind first second hfirst hsecond heq
    obtain ⟨doc, hdoc, hdocId, hitem⟩ := shownBy_canonical_doc hfirst
    obtain ⟨item, hitem⟩ := Option.isSome_iff_exists.mp hitem
    obtain ⟨beside, -, hbeside, -, hnone⟩ := shownBy_historical_doc hsecond
    have hstatus := statusBeside_of_item hdoc hitem
    rw [hdocId, heq, ← hbeside, hnone] at hstatus
    cases hstatus
  cases origin with
  | canonical =>
    cases other with
    | canonical => rfl
    | historical kind => exact absurd hid (hdecided h h')
  | historical kind =>
    cases other with
    | canonical => exact absurd hid.symm (hdecided h' h)
    | historical kind' =>
      obtain ⟨doc, hdoc, hdocId, hkind, -⟩ := shownBy_historical_doc h
      obtain ⟨doc', hdoc', hdocId', hkind', -⟩ := shownBy_historical_doc h'
      have hsame : doc = doc' :=
        List.inj_on_of_nodup_map store.historicalIds hdoc hdoc'
          (hdocId.trans (hid.trans hdocId'.symm))
      rw [hkind, hkind', hsame]

theorem shownBy_ids (origin : ListOrigin) :
    (shownBy store request now origin).Pairwise fun a b => a.id ≠ b.id := by
  cases origin with
  | canonical =>
    refine (List.pairwise_map.mp store.canonicalIds).filterMap _ fun doc doc' hne => ?_
    intro memory hmemory memory' hmemory'
    obtain ⟨item, -, hrow⟩ := Option.bind_eq_some_iff.mp hmemory
    obtain ⟨item', -, hrow'⟩ := Option.bind_eq_some_iff.mp hmemory'
    obtain ⟨rfl, hid⟩ := canonicalRow_some hrow
    obtain ⟨rfl, hid'⟩ := canonicalRow_some hrow'
    rw [truncateLockedMemoryPreview_id, truncateLockedMemoryPreview_id]
    intro heq
    exact hne (hid.symm.trans (heq.trans hid'))
  | historical kind =>
    have hids : (historicalPlaces store kind).Pairwise fun a b => a.1.docId ≠ b.1.docId :=
      List.pairwise_map.mp historicalPlaces_ids
    refine hids.filterMap _ fun place place' hne => ?_
    intro memory hmemory memory' hmemory' heq
    have hid := (historicalRow_some (Option.filter_eq_some_iff.mp hmemory).1).1
    have hid' := (historicalRow_some (Option.filter_eq_some_iff.mp hmemory').1).1
    exact hne (hid.symm.trans (heq.trans hid'))

/-- No two rows of the list have one id. -/
theorem shown_ids : ((shown store request now).map (·.id)).Nodup := by
  have hne : ∀ {origin other : ListOrigin}, origin ≠ other →
      ∀ memory ∈ shownBy store request now origin, ∀ memory' ∈ shownBy store request now other,
        memory.id ≠ memory'.id := by
    intro origin other hother memory hmemory memory' hmemory' hid
    exact hother (origin_unique hmemory hmemory' hid)
  rw [List.Nodup, List.pairwise_map, shown, List.pairwise_append, List.pairwise_append]
  refine ⟨shownBy_ids _, ⟨shownBy_ids _, shownBy_ids _, hne (by simp)⟩, ?_⟩
  intro memory hmemory memory' hmemory'
  obtain hupdated | hcreated := List.mem_append.mp hmemory'
  · exact hne (by simp) memory hmemory memory' hupdated
  · exact hne (by simp) memory hmemory memory' hcreated

/-- No document shows more than one row. -/
theorem length_shown : (shown store request now).length ≤
    store.canonical.length + store.historical.length := by
  have hsub : (shown store request now).map (·.id) ⊆
      store.canonical.map (·.docId) ++ store.historical.map (·.docId) := by
    intro id hid
    obtain ⟨memory, hmemory, rfl⟩ := List.mem_map.mp hid
    rw [shown, List.mem_append, List.mem_append] at hmemory
    rw [List.mem_append, List.mem_map, List.mem_map]
    obtain h | h | h := hmemory
    · obtain ⟨doc, hdoc, hdocId, -⟩ := shownBy_canonical_doc h
      exact .inl ⟨doc, hdoc, hdocId⟩
    · obtain ⟨doc, hdoc, hdocId, -⟩ := shownBy_historical_doc h
      exact .inr ⟨doc, hdoc, hdocId⟩
    · obtain ⟨doc, hdoc, hdocId, -⟩ := shownBy_historical_doc h
      exact .inr ⟨doc, hdoc, hdocId⟩
  have hlength := (List.subperm_of_subset shown_ids hsub).length_le
  simpa using hlength

/-! ### The first page -/

/-- The rows of a scan, and what its slots show. -/
def PageRows.rowsOf (rows : PageRows) : ListOrigin → List ScanSlot
  | .canonical => rows.canonical
  | .historical .updated => rows.updated
  | .historical .created => rows.created

def PageRows.showsOf (rows : PageRows) : ListOrigin → ScanSlot → Option MemoryDB
  | .canonical => rows.canonicalShows
  | .historical _ => rows.historicalShows

/-- The slots of a scan show what its documents do. -/
theorem rowsOf_shown (origin : ListOrigin) :
    (((pageRows store request now).rowsOf origin).filterMap
      ((pageRows store request now).showsOf origin)).Perm (shownBy store request now origin) := by
  have hhistorical : ∀ kind, ((historicalRows store request kind).filterMap historicalShows).Perm
      (shownBy store request now (.historical kind)) := by
    intro kind
    rw [historicalRows, placesOf, List.filterMap_map, shownBy]
    refine ((sortBy_perm _ _).filterMap _).trans (.of_eq ?_)
    refine List.filterMap_congr fun place _ => ?_
    cases hrow : historicalRow request kind place.1 with
    | none => simp [historicalShows, historicalPlace, hrow]
    | some memory =>
      have hreason : (historicalSuppressionReason (statusBeside store place.1.docId)).isSome =
          (statusBeside store place.1.docId).isSome := by
        cases statusBeside store place.1.docId with
        | none => rfl
        | some status => cases status <;> rfl
      simp only [Function.comp_apply, historicalShows, historicalPlace, hrow, Option.bind_some,
        hreason, Option.not_isSome]
  cases origin with
  | canonical =>
    change ((canonicalPlaces store request.scanned now).filterMap ScanSlot.memory).Perm _
    rw [canonicalPlaces, placesOf, List.filterMap_map]
    exact (sortBy_perm _ _).filterMap _
  | historical kind =>
    cases kind with
    | updated => exact hhistorical .updated
    | created => exact hhistorical .created

/-- All the slots show what the list does. -/
theorem rows_shown :
    ((pageRows store request now).canonical.filterMap (pageRows store request now).canonicalShows ++
      ((pageRows store request now).updated.filterMap (pageRows store request now).historicalShows ++
        (pageRows store request now).created.filterMap
          (pageRows store request now).historicalShows)).Perm (shown store request now) :=
  (rowsOf_shown .canonical).append
    ((rowsOf_shown (.historical .updated)).append (rowsOf_shown (.historical .created)))

theorem pageSources_readsOf (store : ListStore) (request : ListRequest) (now : ℤ)
    (origin : ListOrigin) :
    ∃ source : SlotSource, source.Reads ((pageRows store request now).rowsOf origin)
      ((pageRows store request now).showsOf origin) := by
  match origin with
  | .canonical => exact ⟨_, canonicalSource_reads {}⟩
  | .historical .updated => exact ⟨_, historicalSource_reads {}⟩
  | .historical .created => exact ⟨_, historicalSource_reads {}⟩

/-- What a scan shows is in order. -/
theorem SlotSource.Reads.ordered {source : SlotSource} {rows : List ScanSlot}
    {shows : ScanSlot → Option MemoryDB} (h : source.Reads rows shows) :
    (rows.filterMap shows).Pairwise fun a b => memoryCursorSortKey a ≤ memoryCursorSortKey b := by
  have hsorted : rows.Pairwise fun a b => a ∈ rows ∧ b ∈ rows ∧ a.key < b.key :=
    List.Pairwise.and_mem.mp h.sorted
  refine hsorted.filterMap shows ?_
  rintro slot slot' ⟨hslot, hslot', hlt⟩ memory hmemory memory' hmemory'
  rw [memoryCursorSortKey, memoryCursorSortKey, h.keyed slot hslot memory hmemory,
    h.keyed slot' hslot' memory' hmemory']
  exact hlt.le

/-- The first page is cut from all that is shown, in order. -/
theorem firstState_listing : request.firstState.listing (pageRows store request now) =
    sortBy memoryCursorSortKey (shown store request now) := by
  set rows := pageRows store request now with hrows
  have hlisting : request.firstState.listing rows =
      mergeBy memoryCursorSortKey (rows.canonical.filterMap rows.canonicalShows)
        (mergeBy memoryCursorSortKey (rows.updated.filterMap rows.historicalShows)
          (rows.created.filterMap rows.historicalShows)) := by
    simp [UniversalListCursorState.listing, PageState.listing, HistoricalCursorStream.listing,
      SlotStream.listing, SlotStream.left, slotsAfter, UniversalListCursorState.streams,
      ListRequest.firstState]
  have hperm : (request.firstState.listing rows).Perm (shown store request now) := by
    rw [hlisting]
    exact (mergeBy_perm.trans ((List.Perm.refl _).append mergeBy_perm)).trans rows_shown
  have hordered : (request.firstState.listing rows).Pairwise fun a b =>
      memoryCursorSortKey a ≤ memoryCursorSortKey b := by
    rw [hlisting]
    have hreads := pageSources_reads request ⟨store, now, 0, {}, 0, 0, 0⟩
    exact mergeBy_pairwise hreads.canonical.ordered
      (mergeBy_pairwise hreads.updated.ordered hreads.created.ordered)
  refine List.Perm.eq_of_pairwise ?_ hordered (sortBy_pairwise _ _)
    (hperm.trans (sortBy_perm _ _).symm)
  intro memory memory' hmemory hmemory' hle hge
  have hkey : memoryCursorSortKey memory = memoryCursorSortKey memory' := le_antisymm hle hge
  have hid : memory.id = memory'.id := congrArg (fun key => (ofLex key).2) hkey
  exact List.inj_on_of_nodup_map shown_ids (hperm.mem_iff.mp hmemory) (mem_sortBy.mp hmemory') hid

end

end Omi.MemoryList
