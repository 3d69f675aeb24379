import Omi.MemoryList.StreamSpec

/-! A page of the mixed list is the front of what its streams have left, merged; the cursor behind it
has the rest. -/
namespace Omi.MemoryList
open Omi.Foundation Omi.Memory

/-- The rows of the scans of a page, and what each slot shows. -/
structure PageRows where
  canonical : List ScanSlot
  updated : List ScanSlot
  created : List ScanSlot
  canonicalShows : ScanSlot → Option MemoryDB
  historicalShows : ScanSlot → Option MemoryDB

structure PageSources.Reads (sources : PageSources) (rows : PageRows) : Prop where
  canonical : sources.canonical.Reads rows.canonical rows.canonicalShows
  updated : sources.updated.Reads rows.updated rows.historicalShows
  created : sources.created.Reads rows.created rows.historicalShows

section
variable {sources : PageSources} {rows : PageRows} {memory : MemoryDB} {peeked : Option MemoryDB}

/-! ### The historical stream -/

namespace HistoricalCursorStream

/-- The rows that the stream shows from now on. -/
def listing (stream : HistoricalCursorStream) (rows : PageRows) : List MemoryDB :=
  mergeBy memoryCursorSortKey (stream.updated.listing rows.updated rows.historicalShows)
    (stream.created.listing rows.created rows.historicalShows)

structure Sound (stream : HistoricalCursorStream) (rows : PageRows) : Prop where
  updated : stream.updated.Sound rows.updated rows.historicalShows
  created : stream.created.Sound rows.created rows.historicalShows

/-- The stream has peeked a row. -/
structure Peeked (stream : HistoricalCursorStream) (rows : PageRows) (memory : Option MemoryDB) :
    Prop where
  sound : stream.Sound rows
  updated : stream.updated.peeked.map Prod.fst =
    (stream.updated.listing rows.updated rows.historicalShows).head?
  created : stream.created.peeked.map Prod.fst =
    (stream.created.listing rows.created rows.historicalShows).head?
  source : stream.peekSource =
    nextSource (stream.updated.peeked.map Prod.fst) (stream.created.peeked.map Prod.fst)
  head : memory = (stream.listing rows).head?

theorem nextSource_updated {updated created : Option MemoryDB}
    (h : nextSource updated created = some .updated) : ∃ memory, updated = some memory ∧
      ∀ other ∈ created, memoryCursorSortKey memory ≤ memoryCursorSortKey other := by
  cases updated with
  | none => cases created <;> cases h
  | some memory =>
    refine ⟨memory, rfl, ?_⟩
    rintro other ⟨⟩
    simp only [nextSource] at h
    split_ifs at h with hle
    · exact hle
    · cases h

theorem nextSource_created {updated created : Option MemoryDB}
    (h : nextSource updated created = some .created) : ∃ memory, created = some memory ∧
      ∀ other ∈ updated, memoryCursorSortKey memory < memoryCursorSortKey other := by
  cases created with
  | none => cases updated <;> cases h
  | some memory =>
    refine ⟨memory, rfl, ?_⟩
    rintro other ⟨⟩
    simp only [nextSource] at h
    split_ifs at h with hle
    · cases h
    · exact not_le.mp hle

theorem nextSource_none {updated created : Option MemoryDB}
    (h : nextSource updated created = none) : updated = none ∧ created = none := by
  cases updated with
  | none =>
    cases created with
    | none => exact ⟨rfl, rfl⟩
    | some _ => cases h
  | some _ =>
    cases created with
    | none => cases h
    | some _ =>
      simp only [nextSource] at h
      split_ifs at h

variable {stream next : HistoricalCursorStream}

/-- A list with a head. -/
theorem eq_cons_of_head {list : List MemoryDB} (h : list.head? = some memory) :
    ∃ rest, list = memory :: rest := by
  cases list with
  | nil => cases h
  | cons first rest => exact ⟨rest, congrArg (· :: rest) (Option.some.inj h)⟩

/-- The head of the merge is the one that is next. -/
theorem head_listing (stream : HistoricalCursorStream) (rows : PageRows) :
    let updated := (stream.updated.listing rows.updated rows.historicalShows).head?
    let created := (stream.created.listing rows.created rows.historicalShows).head?
    rowOf (nextSource updated created) updated created = (stream.listing rows).head? := by
  intro updated created
  have hupdated : (stream.updated.listing rows.updated rows.historicalShows).head? = updated := rfl
  have hcreated : (stream.created.listing rows.created rows.historicalShows).head? = created := rfl
  rw [listing]
  cases hsource : nextSource updated created with
  | none =>
    obtain ⟨hnone, hnone'⟩ := nextSource_none hsource
    rw [hnone, List.head?_eq_none_iff] at hupdated
    rw [hnone', List.head?_eq_none_iff] at hcreated
    rw [hupdated, hcreated, nil_mergeBy]
    rfl
  | some kind =>
    cases kind with
    | updated =>
      obtain ⟨first, hfirst, hle⟩ := nextSource_updated hsource
      obtain ⟨rest, hrest⟩ := eq_cons_of_head (hupdated.trans hfirst)
      rw [hrest, mergeBy_cons_left (by rw [hcreated]; exact hle), hfirst]
      rfl
    | created =>
      obtain ⟨first, hfirst, hlt⟩ := nextSource_created hsource
      obtain ⟨rest, hrest⟩ := eq_cons_of_head (hcreated.trans hfirst)
      rw [hrest, mergeBy_cons_right (by rw [hupdated]; exact hlt), hfirst]
      rfl

theorem Sound.peek_ok (h : stream.Sound rows) (hreads : sources.Reads rows)
    (hpeek : stream.peek sources = .ok (next, peeked)) :
    next.Peeked rows peeked ∧ next.listing rows = stream.listing rows := by
  obtain ⟨⟨updated, updatedMemory⟩, hupdated, hpeek⟩ := bind_eq_ok_iff.mp hpeek
  obtain ⟨⟨created, createdMemory⟩, hcreated, hresult⟩ := bind_eq_ok_iff.mp hpeek
  cases hresult
  obtain ⟨husound, hulisting, huhead, -, hukept⟩ := h.updated.peek_ok hreads.updated hupdated
  obtain ⟨hcsound, hclisting, hchead, -, hckept⟩ := h.created.peek_ok hreads.created hcreated
  rw [← hulisting] at huhead
  rw [← hclisting] at hchead
  refine ⟨⟨⟨husound, hcsound⟩, hukept.trans huhead, hckept.trans hchead, ?_, ?_⟩, ?_⟩
  · rw [hukept, hckept]
  · rw [← head_listing]
    dsimp only
    rw [huhead, hchead]
  · rw [listing, listing, hulisting, hclisting]

theorem Peeked.consume_ok (h : stream.Peeked rows (some memory)) (hreads : sources.Reads rows)
    (hconsume : stream.consume = .ok next) :
    next.Sound rows ∧ stream.listing rows = memory :: next.listing rows := by
  have hhead := h.head
  rw [← head_listing, ← h.updated, ← h.created, ← h.source] at hhead
  have hsource := h.source
  unfold consume at hconsume
  cases hkind : stream.peekSource with
  | none =>
    rw [hkind] at hhead
    cases hhead
  | some kind =>
    rw [hkind] at hconsume hhead hsource
    cases kind with
    | updated =>
      obtain ⟨updated, hupdated, hresult⟩ := bind_eq_ok_iff.mp hconsume
      cases hresult
      obtain ⟨first, hfirst, hle⟩ := nextSource_updated hsource.symm
      obtain ⟨hsound, hrest, -⟩ := h.sound.updated.consume_ok hreads.updated hhead.symm hupdated
      refine ⟨⟨hsound, h.sound.created⟩, ?_⟩
      rw [hfirst] at hhead
      obtain rfl := Option.some.inj hhead
      rw [h.created] at hle
      rw [listing, listing, hrest]
      exact mergeBy_cons_left hle
    | created =>
      obtain ⟨created, hcreated, hresult⟩ := bind_eq_ok_iff.mp hconsume
      cases hresult
      obtain ⟨first, hfirst, hlt⟩ := nextSource_created hsource.symm
      obtain ⟨hsound, hrest, -⟩ := h.sound.created.consume_ok hreads.created hhead.symm hcreated
      refine ⟨⟨h.sound.updated, hsound⟩, ?_⟩
      rw [hfirst] at hhead
      obtain rfl := Option.some.inj hhead
      rw [h.updated] at hlt
      rw [listing, listing, hrest]
      exact mergeBy_cons_right hlt

end HistoricalCursorStream

/-! ### Pages -/

namespace PageState

/-- The rows that the streams of a page show from now on. -/
def listing (state : PageState) (rows : PageRows) : List MemoryDB :=
  mergeBy memoryCursorSortKey (state.canonical.listing rows.canonical rows.canonicalShows)
    (state.historical.listing rows)

structure Sound (state : PageState) (rows : PageRows) : Prop where
  canonical : state.canonical.Sound rows.canonical rows.canonicalShows
  historical : state.historical.Sound rows

variable {state next : PageState}

theorem takesCanonical_true {canonical historical : Option MemoryDB}
    (h : takesCanonical canonical historical = true) :
    (∃ memory, canonical = some memory ∧
      ∀ other ∈ historical, memoryCursorSortKey memory ≤ memoryCursorSortKey other) ∨
    canonical = none ∧ historical = none := by
  cases canonical with
  | none =>
    cases historical with
    | none => exact .inr ⟨rfl, rfl⟩
    | some _ => cases h
  | some memory =>
    refine .inl ⟨memory, rfl, ?_⟩
    rintro other ⟨⟩
    simpa [takesCanonical] using h

theorem takesCanonical_false {canonical historical : Option MemoryDB}
    (h : takesCanonical canonical historical = false) :
    ∃ memory, historical = some memory ∧
      ∀ other ∈ canonical, memoryCursorSortKey memory < memoryCursorSortKey other := by
  cases historical with
  | none => cases h
  | some memory =>
    refine ⟨memory, rfl, ?_⟩
    rintro other ⟨⟩
    simpa [takesCanonical] using h

/-- Both streams of a page have peeked. -/
structure Peeked (state : PageState) (rows : PageRows) (canonical historical : Option MemoryDB) :
    Prop where
  sound : state.canonical.Sound rows.canonical rows.canonicalShows
  kept : state.canonical.peeked.map Prod.fst = canonical
  head : canonical = (state.canonical.listing rows.canonical rows.canonicalShows).head?
  historical : state.historical.Peeked rows historical

/-- Peeking both streams changes nothing of what is left. -/
theorem Sound.peekBoth_ok {canonical historical : Option MemoryDB} (h : state.Sound rows)
    (hreads : sources.Reads rows)
    (hpeek : peekBoth sources state = .ok (next, canonical, historical)) :
    next.Peeked rows canonical historical ∧ next.listing rows = state.listing rows ∧
      next.page = state.page := by
  obtain ⟨⟨stream, memory⟩, hcanonical, hpeek⟩ := bind_eq_ok_iff.mp hpeek
  obtain ⟨⟨stream', memory'⟩, hhistorical, hresult⟩ := bind_eq_ok_iff.mp hpeek
  cases hresult
  obtain ⟨hsound, hlisting, hhead, -, hkept⟩ := h.canonical.peek_ok hreads.canonical hcanonical
  obtain ⟨hpeeked, hsame⟩ := h.historical.peek_ok hreads hhistorical
  rw [← hlisting] at hhead
  refine ⟨⟨hsound, hkept, hhead, hpeeked⟩, ?_, rfl⟩
  rw [listing, listing, hlisting, hsame]

/-- The row that is taken is the first of those that are left. -/
theorem Peeked.takeRow_ok {canonical historical : Option MemoryDB}
    (h : state.Peeked rows canonical historical) (hreads : sources.Reads rows)
    (hsome : (canonical.isNone && historical.isNone) = false)
    (htake : takeRow state canonical historical = .ok next) :
    next.Sound rows ∧ ∃ memory, next.page = state.page ++ [memory] ∧
      state.listing rows = memory :: next.listing rows := by
  unfold takeRow at htake
  cases htakes : takesCanonical canonical historical with
  | true =>
    rw [htakes, if_pos rfl] at htake
    obtain ⟨stream, hconsume, hresult⟩ := bind_eq_ok_iff.mp htake
    cases hresult
    obtain ⟨memory, rfl, hle⟩ | ⟨rfl, rfl⟩ := takesCanonical_true htakes
    swap
    · cases hsome
    obtain ⟨hsound, hrest, -⟩ := h.sound.consume_ok hreads.canonical h.kept hconsume
    refine ⟨⟨hsound, h.historical.sound⟩, memory, rfl, ?_⟩
    rw [h.historical.head] at hle
    rw [listing, listing, hrest]
    exact mergeBy_cons_left hle
  | false =>
    rw [htakes, if_neg (by simp)] at htake
    obtain ⟨stream, hconsume, hresult⟩ := bind_eq_ok_iff.mp htake
    cases hresult
    obtain ⟨memory, rfl, hlt⟩ := takesCanonical_false htakes
    obtain ⟨hsound, hrest⟩ := h.historical.consume_ok hreads hconsume
    refine ⟨⟨h.sound, hsound⟩, memory, rfl, ?_⟩
    rw [h.head] at hlt
    rw [listing, listing, hrest]
    exact mergeBy_cons_right hlt

theorem listing_eq_nil (hcanonical : state.canonical.listing rows.canonical rows.canonicalShows = [])
    (hhistorical : state.historical.listing rows = []) : state.listing rows = [] := by
  rw [listing, hcanonical, hhistorical, nil_mergeBy]

/-- Filling a page takes the first of the rows that are left, as many as there is room for unless
the budget ends it before. -/
theorem Sound.fillPage_ok {room : ℕ} {truncated : Bool} (h : state.Sound rows)
    (hreads : sources.Reads rows)
    (hfill : fillPage sources room state = .ok (next, truncated)) :
    next.Sound rows ∧ ∃ taken, next.page = state.page ++ taken ∧
      state.listing rows = taken ++ next.listing rows ∧ taken.length ≤ room ∧
      (truncated = false → taken.length = room ∨ next.listing rows = []) := by
  induction room generalizing state with
  | zero =>
    cases hfill
    exact ⟨h, [], by simp, rfl, le_rfl, fun _ => .inl rfl⟩
  | succ room ih =>
    rw [fillPage] at hfill
    cases hpeek : peekBoth sources state with
    | error failure =>
      rw [hpeek] at hfill
      cases failure with
      | failed detail => cases hfill
      | exhausted =>
        cases hfill
        exact ⟨h, [], by simp, rfl, Nat.zero_le _, by simp⟩
    | ok peeks =>
      obtain ⟨peeked, canonical, historical⟩ := peeks
      obtain ⟨hboth, hlisting, hpage⟩ := h.peekBoth_ok hreads hpeek
      rw [hpeek] at hfill
      dsimp only at hfill
      cases hnone : canonical.isNone && historical.isNone with
      | true =>
        rw [hnone, if_pos rfl] at hfill
        cases hfill
        rw [Bool.and_eq_true, Option.isNone_iff_eq_none, Option.isNone_iff_eq_none] at hnone
        have hcnil := hboth.head.symm.trans hnone.1
        have hhnil := hboth.historical.head.symm.trans hnone.2
        rw [List.head?_eq_none_iff] at hcnil hhnil
        have hnil : next.listing rows = [] := listing_eq_nil hcnil hhnil
        refine ⟨⟨hboth.sound, hboth.historical.sound⟩, [], by simp [hpage], ?_, Nat.zero_le _,
          fun _ => .inr hnil⟩
        rw [← hlisting]
        rfl
      | false =>
        rw [hnone, if_neg (by simp)] at hfill
        obtain ⟨taken, htake, hrest⟩ := bind_eq_ok_iff.mp hfill
        obtain ⟨hsound, memory, hpage', hfirst⟩ := hboth.takeRow_ok hreads hnone htake
        obtain ⟨hnext, more, hmore, hleft, hle, hroom⟩ := ih hsound hrest
        refine ⟨hnext, memory :: more, ?_, ?_, Nat.succ_le_succ hle, fun hwhole => ?_⟩
        · rw [hmore, hpage', hpage]
          simp
        · rw [← hlisting, hfirst, hleft]
          rfl
        · exact (hroom hwhole).imp_left (congrArg (· + 1))

theorem Sound.hasMore_ok {more : Bool} (h : state.Sound rows) (hreads : sources.Reads rows)
    (hmore : hasMore sources state = .ok (next, more)) :
    next.Sound rows ∧ next.listing rows = state.listing rows ∧ next.page = state.page ∧
      (more = false → state.listing rows = []) ∧ (more = true → state.listing rows ≠ []) := by
  obtain ⟨⟨canonical, canonicalMemory⟩, hcanonical, hmore⟩ := bind_eq_ok_iff.mp hmore
  obtain ⟨hcsound, hclisting, hchead, -, -⟩ := h.canonical.peek_ok hreads.canonical hcanonical
  dsimp only at hmore
  split_ifs at hmore with hsome
  · cases hmore
    refine ⟨⟨hcsound, h.historical⟩, by rw [listing, listing, hclisting], rfl, by simp, ?_⟩
    intro _ hnil
    have hempty : state.canonical.listing rows.canonical rows.canonicalShows = [] := by
      rw [List.eq_nil_iff_forall_not_mem]
      intro memory hmem
      have hleft : memory ∈ state.listing rows := mem_mergeBy.mpr (.inl hmem)
      rw [hnil] at hleft
      cases hleft
    rw [hempty] at hchead
    rw [hchead] at hsome
    cases hsome
  · obtain ⟨⟨historical, historicalMemory⟩, hhistorical, hresult⟩ := bind_eq_ok_iff.mp hmore
    cases hresult
    obtain ⟨hpeeked, hhlisting⟩ := h.historical.peek_ok hreads hhistorical
    have hcnil : state.canonical.listing rows.canonical rows.canonicalShows = [] := by
      rw [← List.head?_eq_none_iff, ← hchead]
      simpa using hsome
    have hhead := hpeeked.head
    rw [hhlisting] at hhead
    refine ⟨⟨hcsound, hpeeked.sound⟩, by rw [listing, listing, hclisting, hhlisting], rfl, ?_, ?_⟩
    · intro hnone
      have hhnil : state.historical.listing rows = [] := by
        rw [← List.head?_eq_none_iff, ← hhead]
        simpa using hnone
      exact listing_eq_nil hcnil hhnil
    · intro hrow hnil
      rw [listing, hcnil, nil_mergeBy] at hnil
      rw [hhead, hnil] at hrow
      cases hrow

end PageState

/-! ### Cursors -/

section cursor
variable {request : ListRequest} {state next : UniversalListCursorState} {limit : ℤ}
  {page : List MemoryDB} {after : Next UniversalListCursorState}

/-- Nothing was emitted beyond the position of the scan. -/
def UniversalListCursorState.Sound (state : UniversalListCursorState) : Prop :=
  ∀ keyset ∈ state.canonical, ∃ scan ∈ state.canonicalScan,
    keysetSortKey keyset ≤ scanPosition scan

/-- The rows that the streams show behind a cursor. -/
def UniversalListCursorState.listing (state : UniversalListCursorState) (rows : PageRows) :
    List MemoryDB :=
  state.streams.listing rows

theorem firstState_sound (request : ListRequest) : request.firstState.Sound := by
  rintro _ ⟨⟩

theorem sound_of_start {stream : SlotStream} {slots : List ScanSlot}
    {shows : ScanSlot → Option MemoryDB} (hslots : stream.slots = [])
    (hpeeked : stream.peeked = none) (hemitted : ∀ keyset ∈ stream.emitted,
      ∃ scan ∈ stream.scan, keysetSortKey keyset ≤ scanPosition scan) :
    stream.Sound slots shows := by
  constructor
  · intro _
    rw [hslots]
    exact ⟨slotsAfter stream.scan slots, rfl, by simp⟩
  · intro _
    exact hslots
  · intro memory keyset h
    rw [hpeeked] at h
    cases h
  · exact hemitted

theorem UniversalListCursorState.Sound.streams (h : state.Sound) (rows : PageRows) :
    state.streams.Sound rows := by
  refine ⟨sound_of_start rfl rfl h, sound_of_start rfl rfl ?_, sound_of_start rfl rfl ?_⟩
  · rintro _ ⟨⟩
  · rintro _ ⟨⟩

/-- Freezing the streams of a page keeps what they have left. -/
theorem PageState.Sound.freeze_ok {pageState : PageState} (h : pageState.Sound rows)
    (hfreeze : freeze sources request pageState = .ok next) :
    next.Sound ∧ next.listing rows = pageState.listing rows := by
  obtain ⟨canonical, hcanonical, hfreeze⟩ := bind_eq_ok_iff.mp hfreeze
  obtain ⟨updated, hupdated, hfreeze⟩ := bind_eq_ok_iff.mp hfreeze
  obtain ⟨created, hcreated, hresult⟩ := bind_eq_ok_iff.mp hfreeze
  cases hresult
  rw [h.canonical.isExhausted_ok hcanonical, h.historical.updated.isExhausted_ok hupdated,
    h.historical.created.isExhausted_ok hcreated]
  exact ⟨h.canonical.emitted, rfl⟩

/-- A page is the front of what is listed behind its cursor, and the next cursor has the rest; it is
full where there is such a cursor, and there is none only if nothing is left or the budget ended the
page. -/
theorem pageFrom_ok (hreads : sources.Reads rows) (h : state.Sound)
    (hpage : pageFrom sources request limit state = .ok (page, after)) :
    (∃ rest, page ++ rest = state.listing rows ∧ after.Leaves (·.listing rows) [] rest) ∧
      page.length ≤ boundedLimit limit ∧
      ∀ next, after = .more next → next.Sound ∧ page.length = boundedLimit limit := by
  obtain ⟨⟨filled, truncated⟩, hfill, hpage⟩ := bind_eq_ok_iff.mp hpage
  obtain ⟨hfilled, taken, htaken, hlisting, hle, hroom⟩ :=
    (h.streams rows).fillPage_ok hreads hfill
  have hstart : filled.page = taken := htaken
  have hlisted : state.listing rows = taken ++ filled.listing rows := hlisting
  rw [← hstart] at hlisted hle hroom
  cases truncated with
  | true =>
    cases hpage
    exact ⟨⟨_, hlisted.symm, trivial⟩, hle, by simp⟩
  | false =>
    obtain ⟨⟨left, more⟩, hmore, hpage⟩ := bind_eq_ok_iff.mp hpage
    obtain ⟨hleft, hsame, -, hdone, hrest⟩ := hfilled.hasMore_ok hreads hmore
    cases more with
    | false =>
      cases hpage
      exact ⟨⟨_, hlisted.symm, hdone rfl⟩, hle, by simp⟩
    | true =>
      obtain ⟨next, hfreeze, hresult⟩ := bind_eq_ok_iff.mp hpage
      cases hresult
      obtain ⟨hnext, hkept⟩ := hleft.freeze_ok hfreeze
      refine ⟨⟨_, hlisted.symm, ?_⟩, hle, ?_⟩
      · exact (hkept.trans hsame).symm
      · rintro _ ⟨⟩
        exact ⟨hnext, (hroom rfl).resolve_right (hrest rfl)⟩

end cursor

end

end Omi.MemoryList
