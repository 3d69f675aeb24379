import Omi.MemoryList.Resume
import Omi.MemoryList.Shown

/-! Reading the whole mixed list through its cursors: from documents that stay as they are the pages
are the front of the list in its order, and all of it once the reading ends; while other documents
change between the pages, a row that stays shown in its place is read once. -/
namespace Omi.MemoryList
open Omi.Foundation Omi.Memory

/-- What comes after a page: more behind its cursor, or nothing unless its budget ended it. -/
def UniversalMemoryListPage.next (page : UniversalMemoryListPage) : Next (Option ListCursor) :=
  match page.nextCursor with
  | some cursor => .more (some cursor)
  | none => if page.truncated then .cut else .done

/-- The pages of the mixed list for a request, each behind the cursor of the one before. -/
def listPager (request : ListRequest) :
    Pager ReadFailure (Option ListCursor) PageRead MemoryDB where
  read := fun read cursor => do
    let page ← readPage request read cursor
    pure (page.memories, page.next)

/-- The state that a cursor has the request go on from. -/
def ListRequest.stateBehind (request : ListRequest) (cursor : Option ListCursor) :
    UniversalListCursorState :=
  cursor.elim request.firstState ListCursor.state

section
variable {request : ListRequest} {read : PageRead} {reads : List PageRead}
  {cursor : Option ListCursor} {state : UniversalListCursorState} {pages : List (List MemoryDB)}
  {page : List MemoryDB} {next last : Next (Option ListCursor)} {now : ℤ}

/-- The rows that a read lists behind a cursor. -/
def listingBehind (request : ListRequest) (read : PageRead) (cursor : Option ListCursor) :
    List MemoryDB :=
  (request.stateBehind cursor).listing (pageRows read.store request read.now)

def CursorSound (cursor : Option ListCursor) : Prop :=
  ∀ behind ∈ cursor, behind.state.Sound

theorem decodeUniversalListCursor_ok {behind : ListCursor}
    (h : decodeUniversalListCursor request now behind = .ok state) : state = behind.state := by
  simp only [decodeUniversalListCursor, bind_eq_ok_iff] at h
  obtain ⟨_, -, _, -, _, -, _, -, _, -, _, -, _, -, hresult⟩ := h
  exact (Except.ok.inj hresult).symm

theorem cursorState_ok (h : cursorState request now cursor = .ok state) :
    state = request.stateBehind cursor := by
  cases cursor with
  | none => exact (Except.ok.inj h).symm
  | some behind => exact decodeUniversalListCursor_ok (mapError_eq_ok_iff.mp h)

theorem CursorSound.stateBehind (h : CursorSound cursor) : (request.stateBehind cursor).Sound := by
  cases cursor with
  | none => exact firstState_sound request
  | some behind => exact h behind rfl

/-- The cursor that is handed out for the state behind a page. -/
def PageRead.issue (read : PageRead) (state : UniversalListCursorState) : Option ListCursor :=
  some (encodeUniversalListCursor state read.encodedAt read.ttl)

theorem listPager_read_iff : (listPager request).read read cursor = .ok (page, next) ↔
    ∃ state after, cursorState request read.decodedAt cursor = .ok state ∧
      pageFrom (pageSources request read) request read.limit state = .ok (page, after) ∧
      next = after.map read.issue := by
  simp only [listPager, readPage, bind_eq_ok_iff]
  constructor
  · rintro ⟨result, ⟨state, hstate, ⟨memories, after⟩, hpage, hresult⟩, hnext⟩
    cases hnext
    refine ⟨state, after, hstate, ?_⟩
    cases after <;> cases hresult <;> exact ⟨hpage, rfl⟩
  · rintro ⟨state, after, hstate, hpage, rfl⟩
    cases after <;> exact ⟨_, ⟨state, hstate, _, hpage, rfl⟩, rfl⟩

/-- A page is the front of what its cursor has left, and its next cursor has the rest. -/
theorem listPager_lists (request : ListRequest) :
    (listPager request).Lists (listingBehind request) CursorSound := by
  constructor
  · intro read cursor page next hsound hread
    obtain ⟨state, after, hstate, hpage, rfl⟩ := listPager_read_iff.mp hread
    obtain rfl := cursorState_ok hstate
    obtain ⟨⟨rest, hlisted, hrest⟩, -⟩ :=
      pageFrom_ok (pageSources_reads request read) hsound.stateBehind hpage
    exact ⟨rest, hlisted, Next.leaves_map.mpr hrest⟩
  · intro read cursor page next hsound hread
    obtain ⟨state, after, hstate, hpage, hnext⟩ := listPager_read_iff.mp hread
    obtain rfl := cursorState_ok hstate
    obtain ⟨-, -, hafter⟩ :=
      pageFrom_ok (pageSources_reads request read) hsound.stateBehind hpage
    cases after with
    | more state =>
      cases hnext
      rintro _ ⟨⟩
      exact (hafter state rfl).1
    | done => cases hnext
    | cut => cases hnext

/-! ### Documents that can be read -/

/-- The canonical rows are those of the user, and the canonical status of each historical id can be
told. -/
structure ListStore.Readable (store : ListStore) (request : ListRequest) : Prop where
  canonical : ∀ doc ∈ store.canonical, ∀ item ∈ doc.item, item.uid = request.uid
  historical : ∀ doc ∈ store.historical, ∃ status, canonicalStatus store doc.docId = .ok status

section scan
variable {δ : Type} {time : δ → ℤ} {docId : δ → String} {docs : List δ}
  {slot : δ → Except String ScanSlot} {place : δ → ScanSlot}

theorem mapM_total (h : ∀ doc ∈ docs, ∃ row, slot doc = .ok row) :
    ∃ rows, docs.mapM slot = .ok rows := by
  induction docs with
  | nil => exact ⟨[], rfl⟩
  | cons doc docs ih =>
    obtain ⟨hfirst, hrest⟩ := List.forall_mem_cons.mp h
    obtain ⟨row, hrow⟩ := hfirst
    obtain ⟨rows, hrows⟩ := ih hrest
    refine ⟨row :: rows, ?_⟩
    rw [List.mapM_cons, hrow]
    dsimp only [bind, Except.bind]
    rw [hrows]
    rfl

theorem scanPage_total (h : ∀ doc ∈ docs, ∃ row, slot doc = .ok row) (scan : Option StreamKeyset) :
    ∃ page, scanPage time docId docs slot scan = .ok page := by
  have hquery : ∀ doc ∈ queryPage time docId docs scanChunkSize
      (scan.map streamKeysetToScanCursor), ∃ row, slot doc = .ok row := by
    intro doc hdoc
    rw [queryPage_eq] at hdoc
    exact h doc (mem_sortBy.mp (mem_rowsAfter.mp (List.mem_of_mem_take hdoc)).1)
  obtain ⟨rows, hrows⟩ := mapM_total hquery
  refine ⟨_, bind_eq_ok_iff.mpr ⟨rows, hrows, rfl⟩⟩

theorem PlacedBy.parses (h : PlacedBy time docId place docs)
    (hblank : ∀ doc ∈ docs, isBlank (docId doc) = false) :
    ∀ row ∈ placesOf time docId place docs, keysetParses (some row.scan) = true := by
  intro row hrow
  obtain ⟨doc, hdoc, rfl⟩ := mem_placesOf.mp hrow
  rw [h.scan doc hdoc]
  simp [keysetParses, h.epoch doc hdoc, hblank doc hdoc]

end scan

/-- No budget stops the read. -/
structure ReadBudget.Lasts (budget : ReadBudget) : Prop where
  check : ∀ origin scan, budget.check origin scan = .ok ()
  charge : ∀ origin scan, budget.charge origin scan = .ok ()

theorem canonicalSource_answers {store : ListStore} {budget : ReadBudget}
    (h : store.Readable request) (hbudget : budget.Lasts) :
    (canonicalSource store request now budget).Answers
      (canonicalPlaces store request.scanned now) := by
  constructor
  · intro scan
    have hslot : ∀ doc ∈ store.canonical,
        ∃ row, canonicalSlot store request.scanned now doc = .ok row := by
      intro doc hdoc
      unfold canonicalSlot
      cases hitem : doc.item with
      | none => exact ⟨_, rfl⟩
      | some item =>
        have huid : item.uid = request.scanned.uid := h.canonical doc hdoc item hitem
        simp [check, huid, bind, Except.bind, pure, Except.pure]
    obtain ⟨page, hpage⟩ := scanPage_total hslot scan
    exact ⟨page, bind_eq_ok_iff.mpr ⟨(), hbudget.check _ _, mapError_eq_ok_iff.mpr hpage⟩⟩
  · exact hbudget.charge _
  · have hlength : (canonicalPlaces store request.scanned now).length = store.canonical.length := by
      rw [canonicalPlaces, placesOf, List.length_map, (sortBy_perm _ _).length_eq]
    rw [hlength]
    exact Nat.lt_succ_self _
  · exact canonicalPlace_placedBy.parses fun doc _ => doc.nonblank

theorem historicalSource_answers {store : ListStore} {kind : HistoricalKind} {budget : ReadBudget}
    (h : store.Readable request) (hbudget : budget.Lasts) :
    (historicalSource store request budget kind).Answers (historicalRows store request kind) := by
  constructor
  · intro scan
    have hslot : ∀ place ∈ historicalPlaces store kind,
        ∃ row, historicalSlot store request kind place = .ok row := by
      intro place hplace
      obtain ⟨status, hstatus⟩ := h.historical place.1 (mem_historicalPlaces.mp hplace).1
      unfold historicalSlot
      cases historicalRow request kind place.1 with
      | none => exact ⟨_, rfl⟩
      | some memory => simp [hstatus, bind, Except.bind, pure, Except.pure]
    obtain ⟨page, hpage⟩ := scanPage_total hslot scan
    exact ⟨page, bind_eq_ok_iff.mpr ⟨(), hbudget.check _ _, mapError_eq_ok_iff.mpr hpage⟩⟩
  · exact hbudget.charge _
  · have hlength : (historicalRows store request kind).length ≤ store.historical.length := by
      rw [historicalRows, placesOf, List.length_map, (sortBy_perm _ _).length_eq]
      exact List.length_filterMap_le _ _
    exact Nat.lt_succ_of_le hlength
  · exact historicalPlace_placedBy.parses fun place _ => place.1.nonblank

theorem pageSources_answers (h : read.store.Readable request) (hbudget : read.budget.Lasts) :
    (pageSources request read).Answers (pageRows read.store request read.now) :=
  ⟨canonicalSource_answers h hbudget, historicalSource_answers h hbudget,
    historicalSource_answers h hbudget⟩

/-! ### Documents that stay as they are -/

/-- A read accepts a cursor. -/
def Accepted (request : ListRequest) (read : PageRead) (cursor : Option ListCursor) : Prop :=
  ∀ behind ∈ cursor, decodeUniversalListCursor request read.decodedAt behind = .ok behind.state

/-- A read decodes the cursor of the one before no later than it expires. -/
def PageRead.InTime (read later : PageRead) : Prop :=
  later.decodedAt ≤ read.encodedAt + max 1 read.ttl

theorem firstState_resumes (request : ListRequest) : request.firstState.streams.Resumes :=
  ⟨⟨rfl, rfl⟩, rfl, ⟨rfl, rfl⟩, rfl, rfl⟩

theorem resumes_of_decode {behind : ListCursor}
    (h : decodeUniversalListCursor request now behind = .ok state) :
    behind.state.streams.Resumes := by
  obtain ⟨_, hparses, -⟩ := bind_eq_ok_iff.mp h
  simp only [check_eq_ok_iff, Bool.and_eq_true] at hparses
  obtain ⟨⟨⟨⟨hcanonical, hcanonicalScan⟩, hhistorical⟩, hupdated⟩, hcreated⟩ := hparses
  exact ⟨⟨hcanonical, hcanonicalScan⟩, hhistorical, ⟨rfl, hupdated⟩, rfl, hcreated⟩

/-- A read of documents that can be read gives a page, one with some row if a cursor comes with
it, which a later read accepts that is in time. -/
theorem listPager_total (hreadable : read.store.Readable request) (hbudget : read.budget.Lasts)
    (hsound : CursorSound cursor) (haccepted : Accepted request read cursor) :
    ∃ page next, (listPager request).read read cursor = .ok (page, next) ∧ (next = .done ∨
      ∃ after, next = .more after ∧ page ≠ [] ∧
        ∀ later, read.InTime later → Accepted request later after) := by
  have hstate : cursorState request read.decodedAt cursor = .ok (request.stateBehind cursor) := by
    cases cursor with
    | none => rfl
    | some behind => exact mapError_eq_ok_iff.mpr (haccepted behind rfl)
  have hresumes : (request.stateBehind cursor).streams.Resumes := by
    cases cursor with
    | none => exact firstState_resumes request
    | some behind => exact resumes_of_decode (haccepted behind rfl)
  have hreads := pageSources_reads request read
  obtain ⟨page, after, hpage, hafter⟩ :
      ∃ page after, pageFrom (pageSources request read) request read.limit
          (request.stateBehind cursor) = .ok (page, after) ∧
        (after = .done ∨ ∃ next, after = .more next ∧ request.Accepts next) :=
    pageFrom_total hreads (pageSources_answers hreadable hbudget) hsound.stateBehind hresumes
  refine ⟨page, after.map read.issue, listPager_read_iff.mpr ⟨_, after, hstate, hpage, rfl⟩, ?_⟩
  obtain rfl | ⟨state, rfl, haccepts⟩ := hafter
  · exact .inl rfl
  · obtain ⟨-, -, hnext⟩ := pageFrom_ok hreads hsound.stateBehind hpage
    obtain ⟨-, hfull⟩ := hnext state rfl
    have hroom : 1 ≤ boundedLimit read.limit := by
      unfold boundedLimit
      omega
    refine .inr ⟨read.issue state, rfl, List.ne_nil_of_length_pos (hfull ▸ hroom), ?_⟩
    rintro later hlater _ ⟨⟩
    exact haccepts later.decodedAt _ hlater

/-- A read of some documents at a time. -/
theorem listingBehind_now {store : ListStore} (hstore : read.store = store) (now : ℤ)
    (cursor : Option ListCursor) : listingBehind request read cursor =
      (request.stateBehind cursor).listing (pageRows store request now) := by
  rw [listingBehind, hstore, pageRows_now now]

/-- A historical document about a cup, and one about tea that is newer. -/
def cupDoc : HistoricalDoc where
  docId := "cup"
  updatedAt := some 10
  createdAt := some 5
  content := some "A blue cup"
  nonblank := by decide
  updatedEpoch := by decide
  createdEpoch := by decide

def teaDoc : HistoricalDoc where
  docId := "tea"
  updatedAt := some 20
  createdAt := some 5
  content := some "Green tea"
  nonblank := by decide
  updatedEpoch := by decide
  createdEpoch := by decide

/-- The documents of a user without canonical rows. -/
def historicalStore (docs : List HistoricalDoc) (hids : (docs.map (·.docId)).Nodup) : ListStore where
  canonical := []
  historical := docs
  canonicalIds := by simp
  historicalIds := hids

def teaStore : ListStore := historicalStore [cupDoc, teaDoc] (by decide)

/-- A read of one row at a second. -/
def oneRowRead (store : ListStore) (second : ℤ) : PageRead where
  store := store
  now := 1000000 * second
  limit := 1
  decodedAt := second
  encodedAt := second

/-- The stream of a scan. -/
def PageState.streamOf (state : PageState) : ListOrigin → SlotStream
  | .canonical => state.canonical
  | .historical .updated => state.historical.updated
  | .historical .created => state.historical.created

/-- Whether a stream has yet to come to a keyset. -/
def SlotStream.due (stream : SlotStream) (keyset : StreamKeyset) : Bool :=
  !stream.exhausted && stream.scan.all fun scan => scanPosition scan < keysetSortKey keyset

/-- Every row is due behind no cursor. -/
theorem due_first {origin : ListOrigin} {keyset : StreamKeyset} :
    (request.firstState.streams.streamOf origin).due keyset = true := by
  match origin with
  | .canonical => rfl
  | .historical .updated => rfl
  | .historical .created => rfl

variable {store : ListStore} {now : ℤ} {rows : PageRows} {memory : MemoryDB} {origin : ListOrigin}

theorem mem_listing : memory ∈ state.listing rows ↔
    ∃ origin, memory ∈ (state.streams.streamOf origin).listing (rows.rowsOf origin)
      (rows.showsOf origin) := by
  rw [UniversalListCursorState.listing, PageState.listing, mem_mergeBy,
    HistoricalCursorStream.listing, mem_mergeBy]
  constructor
  · rintro (h | h | h)
    · exact ⟨.canonical, h⟩
    · exact ⟨.historical .updated, h⟩
    · exact ⟨.historical .created, h⟩
  · rintro ⟨origin, h⟩
    cases origin with
    | canonical => exact .inl h
    | historical kind =>
      cases kind with
      | updated => exact .inr (.inl h)
      | created => exact .inr (.inr h)

/-- A stream has a row left that its scan shows as long as it has yet to come to it. -/
theorem mem_stream_listing {source : SlotSource} {slots : List ScanSlot}
    {shows : ScanSlot → Option MemoryDB} {stream : SlotStream} (hreads : source.Reads slots shows)
    (hmemory : memory ∈ slots.filterMap shows) :
    memory ∈ stream.listing slots shows ↔ stream.due (memoryKeyset memory) = true := by
  constructor
  · intro h
    obtain ⟨slot, hleft, hshows⟩ := List.mem_filterMap.mp h
    obtain ⟨hslot, hbehind⟩ := SlotStream.mem_rows_of_left hleft
    have hlive : stream.exhausted = false := by
      unfold SlotStream.left at hleft
      split_ifs at hleft with hdone
      · cases hleft
      · simpa using hdone
    have hkey := hreads.keyed slot hslot memory hshows
    rw [SlotStream.due, hlive, hkey]
    cases hscan : stream.scan with
    | none => rfl
    | some scan => exact decide_eq_true (hbehind scan hscan)
  · intro hdue
    obtain ⟨slot, hslot, hshows⟩ := List.mem_filterMap.mp hmemory
    have hkey := hreads.keyed slot hslot memory hshows
    rw [SlotStream.due, hkey, Bool.and_eq_true, Bool.not_eq_true'] at hdue
    refine List.mem_filterMap.mpr ⟨slot, ?_, hshows⟩
    rw [SlotStream.left, hdue.1, if_neg (by simp), slotsAfter, mem_rowsAfter]
    refine ⟨hslot, fun position hposition => ?_⟩
    obtain ⟨scan, hscan, rfl⟩ := Option.map_eq_some_iff.mp hposition
    have hbehind := hdue.2
    rw [hscan] at hbehind
    exact of_decide_eq_true hbehind

theorem listing_sublist {slots : List ScanSlot} {shows : ScanSlot → Option MemoryDB}
    (stream : SlotStream) : (stream.listing slots shows).Sublist (slots.filterMap shows) := by
  apply List.Sublist.filterMap
  unfold SlotStream.left
  split_ifs
  · exact List.nil_sublist _
  · exact List.filter_sublist

/-- Behind any cursor no two rows have one id. -/
theorem listing_ids : ((state.listing (pageRows store request now)).map (·.id)).Nodup := by
  set rows := pageRows store request now
  have hperm : (state.listing rows).Perm
      (state.streams.canonical.listing rows.canonical rows.canonicalShows ++
        (state.streams.historical.updated.listing rows.updated rows.historicalShows ++
          state.streams.historical.created.listing rows.created rows.historicalShows)) :=
    mergeBy_perm.trans ((List.Perm.refl _).append mergeBy_perm)
  have hsub : (state.streams.canonical.listing rows.canonical rows.canonicalShows ++
        (state.streams.historical.updated.listing rows.updated rows.historicalShows ++
          state.streams.historical.created.listing rows.created rows.historicalShows)).Sublist
      (rows.canonical.filterMap rows.canonicalShows ++
        (rows.updated.filterMap rows.historicalShows ++
          rows.created.filterMap rows.historicalShows)) :=
    (listing_sublist _).append ((listing_sublist _).append (listing_sublist _))
  have hids : ((shown store request now).map (·.id)).Nodup := shown_ids
  have hall := (rows_shown.map (·.id)).nodup_iff.mpr hids
  exact (hperm.map (·.id)).nodup_iff.mpr (hall.sublist (hsub.map _))

/-- Behind a cursor, a row that is shown is listed by its scan alone. -/
theorem count_listing (state : UniversalListCursorState)
    (hmemory : memory ∈ shownBy store request now origin) :
    ((state.listing (pageRows store request now)).map (·.id)).count memory.id =
      if (state.streams.streamOf origin).due (memoryKeyset memory) then 1 else 0 := by
  have hshows : ∀ {other : ListOrigin} {row : MemoryDB},
      row ∈ shownBy store request now other → (row ∈ (state.streams.streamOf other).listing
        ((pageRows store request now).rowsOf other) ((pageRows store request now).showsOf other) ↔
          (state.streams.streamOf other).due (memoryKeyset row) = true) := by
    intro other row hrow
    obtain ⟨source, hreads⟩ := pageSources_readsOf store request now other
    exact mem_stream_listing hreads ((rowsOf_shown other).mem_iff.mpr hrow)
  have hiff : memory.id ∈ (state.listing (pageRows store request now)).map (·.id) ↔
      (state.streams.streamOf origin).due (memoryKeyset memory) = true := by
    rw [List.mem_map]
    constructor
    · rintro ⟨row, hrow, hid⟩
      obtain ⟨other, hother⟩ := mem_listing.mp hrow
      have hrow := (rowsOf_shown other).mem_iff.mp ((listing_sublist _).subset hother)
      obtain rfl := origin_unique hrow hmemory hid
      have hsame : row = memory :=
        List.inj_on_of_nodup_map (List.pairwise_map.mpr (shownBy_ids _)) hrow hmemory hid
      rw [← hsame]
      exact (hshows hrow).mp hother
    · intro hdue
      exact ⟨memory, mem_listing.mpr ⟨origin, (hshows hmemory).mpr hdue⟩, rfl⟩
  rw [listing_ids.count]
  simp only [hiff]

def potDoc : HistoricalDoc where
  docId := "pot"
  updatedAt := some 30
  createdAt := some 25
  content := some "A red pot"
  nonblank := by decide
  updatedEpoch := by decide
  createdEpoch := by decide

/-- The documents after the one about tea has gone and another has come. -/
def potStore : ListStore := historicalStore [potDoc, cupDoc] (by decide)

def cupRow : MemoryDB := ⟨"cup", "joy", "A blue cup", 5, 10, some "public", false, .longTerm⟩

def teaRow : MemoryDB := ⟨"tea", "joy", "Green tea", 5, 20, some "public", false, .longTerm⟩

/-- The budget of a request that has none left. -/
def spentBudget : ReadBudget where
  check := fun _ _ => .error .exhausted

end

end Omi.MemoryList
