import Mathlib.Data.List.Lex
import Omi.Finalization.Jobs
import Omi.Foundation.Paging

/-! The sweeps over documents that no job leads to: conversations left in bare processing, jobs whose
user keys are gone, and old meetings without receipts. A sweep pages through its query from a cursor
on, and stops at its limit or after a bounded number of rows. -/
namespace Omi.Finalization
open Omi.Foundation

/-- The names between the slashes of a document path, in whose order a query gives its documents. -/
abbrev DocPath := List String

/-- What a sweep makes of the documents of its query: where each lies, and the candidate that it is,
if it is one. -/
structure SweepQuery (ρ α : Type) where
  path : ρ → DocPath
  candidate : ρ → Option α

/-- The variables of the loop. -/
structure SweepProgress (α : Type) where
  scanned : ℕ := 0
  lastPath : Option DocPath := none
  collected : List α := []

structure Sweep (α : Type) where
  candidates : List α
  resumeAfterPath : Option DocPath
  exhausted : Bool
  deriving DecidableEq

/-- `max_scan`, which no caller gives. -/
def sweepMaxScan : ℕ := 2000

def sweepPageSize (limit : ℤ) : ℕ := (max 1 (min limit 100)).toNat

section
variable {ρ α : Type} (query : SweepQuery ρ α) (limit : ℤ)

/-- The rows of a page, up to the one that exceeds the bound or fills the sweep. -/
def scanRows (progress : SweepProgress α) : List ρ → SweepProgress α
  | [] => progress
  | row :: rows =>
    let scanned := progress.scanned + 1
    if sweepMaxScan < scanned then { progress with scanned := scanned }
    else
      let next : SweepProgress α :=
        { scanned := scanned
          lastPath := some (query.path row)
          collected := progress.collected ++ (query.candidate row).toList }
      if (query.candidate row).isSome ∧ limit ≤ next.collected.length then next
      else scanRows next rows

/-- The sweep ends; the next one starts from the front if this one came to the end. -/
def SweepProgress.stop (progress : SweepProgress α) (exhausted : Bool) : Sweep α where
  candidates := progress.collected
  resumeAfterPath := if exhausted then none else progress.lastPath
  exhausted := exhausted

/-- The page behind a cursor. -/
def sweepPage (rows : List ρ) (cursor : Option DocPath) : List ρ :=
  (rowsAfter query.path cursor (sortBy query.path rows)).take (sweepPageSize limit)

/-- The loop over the pages. The query is sent anew for each of them, and gives the documents that
are there by then; a turn that goes on has scanned some row. -/
def sweepLoop (rows : ℕ → List ρ) : ℕ → ℕ → Option DocPath → SweepProgress α → Sweep α
  | 0, _, _, progress => progress.stop false
  | turns + 1, pages, cursor, progress =>
    if progress.collected.length < limit ∧ progress.scanned < sweepMaxScan then
      let page := sweepPage query limit (rows pages) cursor
      if page.isEmpty then progress.stop true
      else
        let next := scanRows query limit progress page
        if sweepMaxScan < next.scanned then next.stop false
        else if page.length < sweepPageSize limit then next.stop true
        else sweepLoop rows turns (pages + 1) (page.getLast?.map query.path) next
    else progress.stop false

/-- A sweep from a cursor on, or from the front if the document at the cursor has gone. -/
def sweep (rows : ℕ → List ρ) (resumeAfterPath : Option DocPath) (resumeExists : Bool) : Sweep α :=
  sweepLoop query limit rows sweepMaxScan 0 (if resumeExists then resumeAfterPath else none) {}

end

/-! ### The three sweeps -/

/-- `_uid_from_conversation_path`. -/
def uidFromConversationPath : DocPath → Option String
  | ["users", uid, "conversations", _] => some uid
  | _ => none

/-- What the sweep over processing conversations reads of one. -/
structure ProcessingRow where
  path : DocPath
  deferred : Bool := false
  finalizationJobId : Option String := none
  processingAdmittedAt : Option ℤ := none
  deriving DecidableEq

structure OrphanCandidate where
  uid : String
  conversationId : String
  processingAdmittedAt : Option ℤ
  legacy : Bool
  deriving DecidableEq

/-- The candidate of `get_stale_processing_orphan_candidates`. -/
def orphanCandidate (cutoff : ℤ) (row : ProcessingRow) : Option OrphanCandidate :=
  match uidFromConversationPath row.path with
  | none => none
  | some uid =>
    let conversationId := row.path.getLastD ""
    if row.deferred ∨ row.finalizationJobId.getD "" ≠ "" then none
    else
      match row.processingAdmittedAt with
      | none => some ⟨uid, conversationId, none, true⟩
      | some admittedAt =>
        if cutoff < admittedAt then none
        else some ⟨uid, conversationId, some admittedAt, false⟩

def orphanSweep (staleAfter now : ℤ) : SweepQuery ProcessingRow OrphanCandidate where
  path := ProcessingRow.path
  candidate := orphanCandidate (now - staleAfter)

structure AbandonedJob where
  jobId : String
  job : FinalizationJob
  lastActivityAt : ℤ
  deriving DecidableEq

/-- The candidate of `get_abandoned_byok_job_candidates`. -/
def abandonedJobCandidate (cutoff now : ℤ) (row : String × FinalizationJob) : Option AbandonedJob :=
  if row.2.status ≠ some .queued ∧ row.2.status ≠ some .leased then none
  else if row.2.status = some .leased ∧ row.2.leaseLive now then none
  else
    match row.2.lastActivityAt with
    | none => none
    | some lastActivity =>
      if cutoff < lastActivity then none else some ⟨row.1, row.2, lastActivity⟩

def abandonedJobSweep (abandonedAfter now : ℤ) :
    SweepQuery (String × FinalizationJob) AbandonedJob where
  path := fun row => ["conversation_finalization_jobs", row.1]
  candidate := abandonedJobCandidate (now - abandonedAfter) now

/-- What the sweep over completed conversations reads of one; the role is that in its external data,
if these are a mapping. -/
structure CompletedRow where
  path : DocPath
  source : Option String := none
  conversationRole : Option String := none
  meetingTreatmentReason : Option String := none
  deriving DecidableEq

/-- The candidate of `get_meeting_receipt_backfill_candidates`: its user, its id and its data. -/
def meetingCandidate (row : CompletedRow) : Option (String × String × CompletedRow) :=
  match uidFromConversationPath row.path with
  | none => none
  | some uid =>
    if row.source ≠ some "desktop" ∨ row.conversationRole ≠ some "meeting" ∨
        row.meetingTreatmentReason.getD "" ≠ "" then none
    else some (uid, row.path.getLastD "", row)

def meetingSweep : SweepQuery CompletedRow (String × String × CompletedRow) where
  path := CompletedRow.path
  candidate := meetingCandidate

/-! ### What a sweep finds -/

section finds
variable {ρ α : Type} {query : SweepQuery ρ α} {limit : ℤ} {progress : SweepProgress α}
  {page : List ρ} {rows : ℕ → List ρ} {row : ρ} {candidate : α} {turns pages : ℕ}
  {cursor : Option DocPath}

theorem filterMap_cons_toList (f : ρ → Option α) (row : ρ) (page : List ρ) :
    (row :: page).filterMap f = (f row).toList ++ page.filterMap f := by
  cases hrow : f row <;> simp [hrow]

/-- The front of a page is scanned: all of it, unless the sweep is full or has scanned too much. -/
theorem scanRows_ok (query : SweepQuery ρ α) (limit : ℤ) (progress : SweepProgress α)
    (page : List ρ) :
    ∃ done rest, page = done ++ rest ∧
      (scanRows query limit progress page).collected =
        progress.collected ++ done.filterMap query.candidate ∧
      (scanRows query limit progress page).lastPath =
        (done.getLast?.map query.path).or progress.lastPath ∧
      (rest ≠ [] → limit ≤ (scanRows query limit progress page).collected.length ∨
        sweepMaxScan < (scanRows query limit progress page).scanned) ∧
      (progress.scanned < sweepMaxScan → page ≠ [] → done ≠ []) := by
  induction page generalizing progress with
  | nil => exact ⟨[], [], rfl, by simp [scanRows], by simp [scanRows], by simp, by simp⟩
  | cons row page ih =>
    simp only [scanRows]
    split_ifs with hbound hfull
    · refine ⟨[], row :: page, rfl, by simp, by simp, fun _ => .inr hbound, ?_⟩
      intro hroom
      omega
    · refine ⟨[row], page, rfl, ?_, by simp, fun _ => .inl hfull.2, by simp⟩
      rw [filterMap_cons_toList, List.filterMap_nil, List.append_nil]
    · obtain ⟨done, rest, hpage, hcollected, hlast, hrest, -⟩ := ih
        { scanned := progress.scanned + 1
          lastPath := some (query.path row)
          collected := progress.collected ++ (query.candidate row).toList }
      refine ⟨row :: done, rest, by rw [hpage]; rfl, ?_, ?_, hrest, by simp⟩
      · rw [hcollected, filterMap_cons_toList, List.append_assoc]
      · rw [hlast]
        cases done with
        | nil => rfl
        | cons first done =>
          rw [List.getLast?_cons_cons]
          cases hdone : (first :: done).getLast? with
          | none => simp at hdone
          | some last => rfl

theorem le_scanned (query : SweepQuery ρ α) (limit : ℤ) (progress : SweepProgress α)
    (page : List ρ) : progress.scanned ≤ (scanRows query limit progress page).scanned := by
  induction page generalizing progress with
  | nil => exact Nat.le_refl _
  | cons row page ih =>
    simp only [scanRows]
    split_ifs
    · exact Nat.le_succ _
    · exact Nat.le_succ _
    · have hrest := ih
        { scanned := progress.scanned + 1
          lastPath := some (query.path row)
          collected := progress.collected ++ (query.candidate row).toList }
      exact Nat.le_trans (Nat.le_succ _) hrest

theorem lt_scanned (h : page ≠ []) :
    progress.scanned < (scanRows query limit progress page).scanned := by
  cases page with
  | nil => exact absurd rfl h
  | cons row page =>
    simp only [scanRows]
    split_ifs
    · exact Nat.lt_succ_self _
    · exact Nat.lt_succ_self _
    · have hrest := le_scanned query limit
        { scanned := progress.scanned + 1
          lastPath := some (query.path row)
          collected := progress.collected ++ (query.candidate row).toList } page
      exact Nat.lt_of_lt_of_le (Nat.lt_succ_self _) hrest

theorem sweepLoop_keeps (h : candidate ∈ progress.collected) :
    candidate ∈ (sweepLoop query limit rows turns pages cursor progress).candidates := by
  induction turns generalizing pages cursor progress with
  | zero => exact h
  | succ turns ih =>
    have hnext : candidate ∈ (scanRows query limit progress
        (sweepPage query limit (rows pages) cursor)).collected := by
      obtain ⟨done, rest, -, hcollected, -⟩ := scanRows_ok query limit progress
        (sweepPage query limit (rows pages) cursor)
      rw [hcollected]
      exact List.mem_append_left _ h
    simp only [sweepLoop]
    split_ifs
    · exact h
    · exact hnext
    · exact hnext
    · exact ih hnext
    · exact h

theorem sweepLoop_full (h : limit ≤ progress.collected.length) :
    sweepLoop query limit rows turns pages cursor progress = progress.stop false := by
  cases turns with
  | zero => rfl
  | succ turns =>
    rw [sweepLoop, if_neg]
    omega

/-- What a turn does about a candidate that is ahead of its cursor: the candidate is on this page or
behind it, and found on this page unless the turn stops short of it. -/
structure TurnOf (query : SweepQuery ρ α) (limit : ℤ) (row : ρ) (candidate : α) (page : List ρ)
    (next : SweepProgress α) : Prop where
  some_page : page ≠ []
  passed : ∃ last, next.lastPath = some last ∧
    (query.path row ≤ last → candidate ∈ next.collected)
  tail : next.collected.length < limit → next.scanned ≤ sweepMaxScan →
    page.length < sweepPageSize limit → candidate ∈ next.collected
  goes_on : next.collected.length < limit → next.scanned ≤ sweepMaxScan →
    page.getLast?.map query.path = next.lastPath

theorem sweepPageSize_pos (limit : ℤ) : 0 < sweepPageSize limit := by
  unfold sweepPageSize
  omega

theorem turnOf {docs : List ρ} (hrow : row ∈ docs) (hpaths : (docs.map query.path).Nodup)
    (hcandidate : query.candidate row = some candidate)
    (hahead : ∀ path ∈ cursor, path < query.path row) (hscanned : progress.scanned < sweepMaxScan) :
    TurnOf query limit row candidate (sweepPage query limit docs cursor)
      (scanRows query limit progress (sweepPage query limit docs cursor)) := by
  set left := rowsAfter query.path cursor (sortBy query.path docs) with hleft
  have hmem : row ∈ left := mem_rowsAfter.mpr ⟨mem_sortBy.mpr hrow, hahead⟩
  have hsorted : left.Pairwise fun a b => query.path a < query.path b :=
    (sortBy_strict hpaths).sublist List.filter_sublist
  have hpage : sweepPage query limit docs cursor = left.take (sweepPageSize limit) := rfl
  have hsome : sweepPage query limit docs cursor ≠ [] := by
    rw [hpage]
    intro hnil
    obtain hsize | hnil := List.take_eq_nil_iff.mp hnil
    · exact (sweepPageSize_pos limit).ne' hsize
    · rw [hnil] at hmem
      cases hmem
  obtain ⟨done, rest, hsplit, hcollected, hlast, hrest, hdone⟩ :=
    scanRows_ok query limit progress (sweepPage query limit docs cursor)
  have hfound : row ∈ done → candidate ∈ (scanRows query limit progress
      (sweepPage query limit docs cursor)).collected := by
    intro h
    rw [hcollected]
    exact List.mem_append_right _ (List.mem_filterMap.mpr ⟨row, h, hcandidate⟩)
  have hall : ∀ {next : SweepProgress α},
      next = scanRows query limit progress (sweepPage query limit docs cursor) →
      next.collected.length < limit → next.scanned ≤ sweepMaxScan → rest = [] := by
    intro next hnext hroom hbound
    rw [hnext] at hroom hbound
    by_contra hsomething
    obtain hfull | hmuch := hrest hsomething
    · omega
    · omega
  have hdone := hdone hscanned hsome
  refine ⟨hsome, ?_, ?_, ?_⟩
  · obtain ⟨last, hend⟩ := Option.isSome_iff_exists.mp (List.getLast?_isSome.mpr hdone)
    refine ⟨query.path last, by rw [hlast, hend]; rfl, fun hle => hfound ?_⟩
    have hleft : left = done ++ (rest ++ left.drop (sweepPageSize limit)) := by
      rw [← List.append_assoc, ← hsplit, hpage, List.take_append_drop]
    rw [hleft] at hmem hsorted
    obtain hmem | hlater := List.mem_append.mp hmem
    · exact hmem
    · have hlt := (List.pairwise_append.mp hsorted).2.2 last (List.mem_of_getLast? hend) row hlater
      exact absurd hle (not_le.mpr hlt)
  · intro hroom hbound hshort
    have hnil := hall rfl hroom hbound
    rw [hpage, List.length_take] at hshort
    rw [hpage, List.take_of_length_le (by omega), hnil, List.append_nil] at hsplit
    exact hfound (hsplit ▸ hmem)
  · intro hroom hbound
    have hnil := hall rfl hroom hbound
    rw [hlast, hsplit, hnil, List.append_nil]
    cases hend : done.getLast? with
    | none => exact absurd (List.getLast?_eq_none_iff.mp hend) hdone
    | some last => rfl

/-- A sweep that stops on its way has found what it passed. -/
theorem stop_finds
    (hlast : ∀ path ∈ progress.lastPath, query.path row ≤ path → candidate ∈ progress.collected)
    (hnone : progress.lastPath = none → limit ≤ progress.collected.length)
    (hpass : ∀ next ∈ (progress.stop false).resumeAfterPath, query.path row ≤ next)
    (hroom : (progress.stop false).resumeAfterPath = none →
      (progress.stop false).candidates.length < limit) :
    candidate ∈ (progress.stop false).candidates := by
  cases hpath : progress.lastPath with
  | some path => exact hlast path hpath (hpass path hpath)
  | none =>
    have hfull := hnone hpath
    have hshort : progress.collected.length < limit := hroom hpath
    omega

/-- A sweep finds a candidate that stays in its query from ahead of its cursor until the sweep has
passed it, or has come to the end with room for more. -/
theorem sweepLoop_finds (hrows : ∀ pages, row ∈ rows pages)
    (hpaths : ∀ pages, ((rows pages).map query.path).Nodup)
    (hcandidate : query.candidate row = some candidate)
    (hahead : candidate ∈ progress.collected ∨ (∀ path ∈ cursor, path < query.path row) ∧
      ∀ path ∈ progress.lastPath, path < query.path row)
    (hfresh : progress.lastPath = none → progress.collected = [] ∧ progress.scanned = 0)
    (hturns : sweepMaxScan ≤ progress.scanned + turns)
    (hpass : ∀ next ∈ (sweepLoop query limit rows turns pages cursor progress).resumeAfterPath,
      query.path row ≤ next)
    (hroom : (sweepLoop query limit rows turns pages cursor progress).resumeAfterPath = none →
      (sweepLoop query limit rows turns pages cursor progress).candidates.length < limit) :
    candidate ∈ (sweepLoop query limit rows turns pages cursor progress).candidates := by
  have hmax : 0 < sweepMaxScan := by decide
  induction turns generalizing pages cursor progress with
  | zero =>
    refine stop_finds ?_ ?_ hpass hroom
    · intro path hpath hle
      obtain hfound | ⟨-, hlast⟩ := hahead
      · exact hfound
      · exact absurd hle (not_le.mpr (hlast path hpath))
    · intro hnone
      have hscanned := (hfresh hnone).2
      omega
  | succ turns ih =>
    by_cases hfound : candidate ∈ progress.collected
    · exact sweepLoop_keeps hfound
    obtain ⟨hcursor, hlast⟩ := hahead.resolve_left hfound
    by_cases hloop : progress.collected.length < limit ∧ progress.scanned < sweepMaxScan
    swap
    · -- the sweep was full when the turn began
      rw [sweepLoop, if_neg hloop] at hpass hroom ⊢
      refine stop_finds ?_ ?_ hpass hroom
      · exact fun path hpath hle => absurd hle (not_le.mpr (hlast path hpath))
      · intro hnone
        obtain ⟨hcollected, hscanned⟩ := hfresh hnone
        rw [hcollected, hscanned] at hloop
        rw [hcollected]
        simp only [hmax, and_true, not_lt] at hloop
        exact hloop
    have hturn : TurnOf query limit row candidate (sweepPage query limit (rows pages) cursor)
        (scanRows query limit progress (sweepPage query limit (rows pages) cursor)) :=
      turnOf (hrows pages) (hpaths pages) hcandidate hcursor hloop.2
    rw [sweepLoop, if_pos hloop] at hpass hroom ⊢
    set page := sweepPage query limit (rows pages) cursor
    set next := scanRows query limit progress page
    obtain ⟨last, hnext, hpassed⟩ := hturn.passed
    have hlater : ∀ path ∈ next.lastPath, query.path row ≤ path → candidate ∈ next.collected := by
      intro path hpath hle
      rw [hnext, Option.mem_some_iff] at hpath
      exact hpassed (hpath ▸ hle)
    have hsomewhere : next.lastPath = none → limit ≤ next.collected.length := by
      rw [hnext]
      exact fun h => absurd h (by simp)
    have hempty : page.isEmpty = false := by
      rw [List.isEmpty_eq_false_iff]
      exact hturn.some_page
    simp only [hempty, Bool.false_eq_true, if_false] at hpass hroom ⊢
    split_ifs at hpass hroom ⊢ with hmuch hshort
    · exact stop_finds hlater hsomewhere hpass hroom
    · exact hturn.tail (hroom rfl) (not_lt.mp hmuch) hshort
    · by_cases hfull : limit ≤ next.collected.length
      · rw [sweepLoop_full hfull] at hpass hroom ⊢
        exact stop_finds hlater hsomewhere hpass hroom
      · have hcursor' := hturn.goes_on (not_le.mp hfull) (not_lt.mp hmuch)
        refine ih ?_ ?_ ?_ hpass hroom
        · by_cases hfound' : candidate ∈ next.collected
          · exact .inl hfound'
          · have hbefore : ∀ path ∈ next.lastPath, path < query.path row := by
              intro path hpath
              exact not_le.mp fun hle => hfound' (hlater path hpath hle)
            rw [hcursor']
            exact .inr ⟨hbefore, hbefore⟩
        · rw [hnext]
          exact fun h => absurd h (by simp)
        · have hmore : progress.scanned < next.scanned := lt_scanned hturn.some_page
          change sweepMaxScan ≤ next.scanned + turns
          omega

/-- A sweep finds a candidate that stays in its query, from ahead of where it goes on. -/
theorem sweep_finds {resumeAfterPath : Option DocPath} {resumeExists : Bool}
    (hrows : ∀ pages, row ∈ rows pages)
    (hpaths : ∀ pages, ((rows pages).map query.path).Nodup)
    (hcandidate : query.candidate row = some candidate)
    (hahead : ∀ path ∈ resumeAfterPath, path < query.path row)
    (hpass : ∀ next ∈ (sweep query limit rows resumeAfterPath resumeExists).resumeAfterPath,
      query.path row ≤ next)
    (hroom : (sweep query limit rows resumeAfterPath resumeExists).resumeAfterPath = none →
      (sweep query limit rows resumeAfterPath resumeExists).candidates.length < limit) :
    candidate ∈ (sweep query limit rows resumeAfterPath resumeExists).candidates := by
  refine sweepLoop_finds hrows hpaths hcandidate (.inr ⟨?_, by simp⟩) (by simp) (by simp) hpass hroom
  split_ifs
  · exact hahead
  · simp

/-- A sweep that fills up within its last page counts as one that came to the end, and the next one
begins at the front: it is not certain to come to "e". -/
example :
    sweep (orphanSweep 300 1000) 3 (fun _ => ["a", "b", "c", "d", "e"].map fun id =>
        { path := ["users", "joy", "conversations", id], deferred := id = "b"
          processingAdmittedAt := some 0 }) none true =
      ⟨["a", "c", "d"].map (⟨"joy", ·, some 0, false⟩), none, true⟩ := by
  decide +kernel

end finds

end Omi.Finalization
