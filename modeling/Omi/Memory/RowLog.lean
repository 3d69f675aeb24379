import Omi.Foundation.VersionLog
import Omi.Memory.GraphRuns

/-! The rows of a store as what is left of a log of commits, and the commits of an apply and of a
privacy tombstone. -/
namespace Omi.Memory
open Omi.Foundation

/-- A tombstone without the identity of a source: what a privacy deletion leaves. -/
def MemoryItem.Scrubbed (item : MemoryItem) : Prop :=
  item.status = .tombstoned ∧
    ∀ evidence ∈ item.evidence, evidence.sourceId = none ∧ evidence.conversationId = none

/-- A commit with its number, the rows it wrote, and the ids its operation is journaled with. -/
structure LoggedCommit where
  commitId : String
  sequence : ℤ
  rows : List MemoryItem
  journaled : List String

/-- The current row of an id. -/
def latestRow (log : List LoggedCommit) (memoryId : String) : Option MemoryItem :=
  latest (·.memoryId) (log.map (·.rows)) memoryId

/-- A row may be written over the one of its id that is there. -/
def RowSucceeds (current : Option MemoryItem) (row : MemoryItem) : Prop :=
  Succeeds (·.itemRevision) MemoryItem.Scrubbed current row

/-- The next commit of a log: it has the next number, its rows name it and are in its journal, and
each of them is a later revision of the current row, which no privacy deletion left. -/
structure LoggedCommit.Fits (start : MemoryControlState) (before : List LoggedCommit)
    (commit : LoggedCommit) : Prop where
  sequence : commit.sequence = start.commitSequence + before.length + 1
  stamped : ∀ row ∈ commit.rows,
    row.ledgerCommitId = some commit.commitId ∧ row.ledgerSequence = some commit.sequence
  journaled : ∀ row ∈ commit.rows, row.memoryId ∈ commit.journaled
  succeeds : ∀ row ∈ commit.rows, RowSucceeds (latestRow before row.memoryId) row

/-- The store is what the commits of the log left, from a control state and no rows. -/
structure Logged (start : MemoryControlState) (store : MemoryStore) (log : List LoggedCommit) :
    Prop where
  lawful : Lawful (LoggedCommit.Fits start) log
  rows : ∀ memoryId, store.items.get memoryId = latestRow log memoryId
  sequence : store.control.commitSequence = start.commitSequence + log.length
  head : store.control.headCommitId =
    (log.getLast?.map (·.commitId)).getD start.headCommitId

/-- The commit that a result makes. -/
def ApplyResult.logged (result : ApplyResult) : LoggedCommit where
  commitId := result.controlState.headCommitId
  sequence := result.controlState.commitSequence
  rows := result.memoryItems
  journaled := result.operation.committedMemoryItemIds

/-- A committed result goes on from the control state and the rows of a store. -/
structure CommitFits (control : MemoryControlState) (rowOf : String → Option MemoryItem)
    (result : ApplyResult) : Prop where
  sequence : result.controlState.commitSequence = control.commitSequence + 1
  stamped : ∀ row ∈ result.memoryItems,
    row.ledgerCommitId = some result.controlState.headCommitId ∧
      row.ledgerSequence = some result.controlState.commitSequence
  journaled : ∀ row ∈ result.memoryItems, row.memoryId ∈ result.operation.committedMemoryItemIds
  succeeds : ∀ row ∈ result.memoryItems, RowSucceeds (rowOf row.memoryId) row

section log
variable {start : MemoryControlState} {store next : MemoryStore} {log : List LoggedCommit}
  {commit : LoggedCommit} {memoryId : String} {item row : MemoryItem} {result : ApplyResult}

theorem logged_empty (start : MemoryControlState) : Logged start (.empty start) [] := by
  constructor
  · exact lawful_nil
  · intro memoryId
    rfl
  · simp [MemoryStore.empty]
  · rfl

theorem Logged.keyed (h : Logged start store log) (hitem : store.items.get memoryId = some item) :
    item.memoryId = memoryId := by
  rw [h.rows] at hitem
  exact key_of_latest hitem

theorem get_writeItems_eq (items : Table MemoryItem) (rows : List MemoryItem) :
    (writeItems items rows).get memoryId =
      (rows.reverse.find? fun row => row.memoryId = memoryId).or (items.get memoryId) := by
  induction rows generalizing items with
  | nil => rfl
  | cons row rows ih =>
    rw [writeItems_cons, ih, Table.get_set, List.reverse_cons, List.find?_append]
    by_cases hid : memoryId = row.memoryId
    · simp [hid]
    · simp [hid, Ne.symm hid]

/-- A commit is logged: its rows are written, and it is the new head. -/
theorem Logged.extend (h : Logged start store log)
    (hrows : next.items = writeItems store.items commit.rows)
    (hhead : next.control.headCommitId = commit.commitId)
    (hnext : next.control.commitSequence = commit.sequence)
    (hsequence : commit.sequence = store.control.commitSequence + 1)
    (hstamped : ∀ row ∈ commit.rows, row.ledgerCommitId = some commit.commitId ∧
      row.ledgerSequence = some commit.sequence)
    (hjournaled : ∀ row ∈ commit.rows, row.memoryId ∈ commit.journaled)
    (hsucceeds : ∀ row ∈ commit.rows, RowSucceeds (store.items.get row.memoryId) row) :
    Logged start next (log ++ [commit]) := by
  rw [h.sequence] at hsequence
  constructor
  · refine h.lawful.concat ⟨hsequence, hstamped, hjournaled, fun row hrow => ?_⟩
    rw [← h.rows]
    exact hsucceeds row hrow
  · intro memoryId
    rw [hrows, get_writeItems_eq, h.rows, latestRow, latestRow, List.map_append, List.map_cons,
      List.map_nil, latest_concat]
  · rw [hnext, hsequence, List.length_append, List.length_singleton]
    push_cast
    ring
  · rw [hhead, List.getLast?_concat]
    rfl

theorem Logged.writeApplyResult (h : Logged start store log) (hstatus : result.status = .committed)
    (hfits : CommitFits store.control store.items.get result) :
    Logged start (store.writeApplyResult result) (log ++ [result.logged]) := by
  have hbook := writeApplyResult_book store result
  rw [MemoryBook.fed, if_pos hstatus] at hbook
  refine h.extend ?_ ?_ ?_ hfits.sequence hfits.stamped hfits.journaled hfits.succeeds
  · exact congrArg (·.items) hbook
  · exact congrArg (·.control.headCommitId) hbook
  · exact congrArg (·.control.commitSequence) hbook

theorem writeApplyResult_uncommitted (hstatus : result.status ≠ .committed) :
    store.writeApplyResult result = store := if_pos hstatus

/-- One revision on from the row that is there, which is live. -/
theorem rowSucceeds_of_read (hitem : store.items.get memoryId = some item)
    (hid : row.memoryId = memoryId) (hlive : item.status ≠ .tombstoned)
    (hrevision : item.itemRevision < row.itemRevision) :
    RowSucceeds (store.items.get row.memoryId) row := by
  intro old hold
  rw [hid, hitem] at hold
  obtain rfl := Option.some.inj hold
  exact ⟨hrevision, fun hscrubbed => hlive hscrubbed.1⟩

end log

/-! ### Applies -/

section apply
variable {env : MemoryEnv} {control : MemoryControlState} {operation : MemoryOperation}
  {payload : PatchPayload} {clock : ApplyClock} {flag : Bool} {result : ApplyResult}
  {evidence : List MemoryEvidence} {point : CommitPoint} {now : ℤ} {existing item : MemoryItem}
  {changes : List (Option MemoryItem)} {items : List MemoryItem}
  {assertions : List MemoryGraphAssertion}

theorem commitResult_journal
    (h : commitResult env control operation clock items assertions changes = .ok result) :
    result.operation.committedMemoryItemIds = items.map (·.memoryId) := by
  simp only [commitResult, bind_eq_ok_iff, liftModel_eq_ok_iff] at h
  obtain ⟨_, -, _, -, marked, hmarked, hresult⟩ := h
  cases hresult
  rw [MemoryOperation.markCommitted_ok hmarked]
  rfl

theorem updatedMemoryItem_stamped :
    (updatedMemoryItem env existing payload evidence point now).ledgerCommitId =
        some point.commitId ∧
      (updatedMemoryItem env existing payload evidence point now).ledgerSequence =
        some point.sequence := by
  unfold updatedMemoryItem
  split_ifs <;> exact ⟨rfl, rfl⟩

theorem materializeMemoryItem_stamped
    (h : materializeMemoryItem env control operation payload evidence point now = .ok item) :
    item.ledgerCommitId = some point.commitId ∧ item.ledgerSequence = some point.sequence := by
  simp only [materializeMemoryItem, bind_eq_ok_iff, liftModel_eq_ok_iff,
    MemoryItem.construct_eq_ok_iff] at h
  obtain ⟨_, -, row, ⟨-, rfl⟩, hitem⟩ := h
  split_ifs at hitem
  · cases hitem
    exact ⟨rfl, rfl⟩
  · rw [liftModel_eq_ok_iff, MemoryItem.construct_eq_ok_iff] at hitem
    obtain ⟨-, rfl⟩ := hitem
    exact ⟨rfl, rfl⟩

/-- Where a row of a commit comes from: the row an update names, an active row it supersedes, or no
row at all. -/
inductive RowOrigin (payload : PatchPayload) (newId : String) (row : MemoryItem) : Prop
  | updated (existing : MemoryItem) (hexisting : payload.existingItem = some existing)
      (hid : row.memoryId = existing.memoryId)
      (hrevision : row.itemRevision = existing.itemRevision + 1)
  | superseded (existing : MemoryItem) (hexisting : existing ∈ payload.supersededItems.getD [])
      (hactive : existing.status = .active) (hid : row.memoryId = existing.memoryId)
      (hrevision : row.itemRevision = existing.itemRevision + 1)
  | added (hdecision : payload.patch.decision ≠ .update) (hid : row.memoryId = newId)
      (hrevision : row.itemRevision = 1) (hready : row.graphReady = false)

theorem changedItem_origin {changed : MemoryItem × Bool}
    (h : changedItem env control operation payload evidence point now flag = .ok changed) :
    RowOrigin payload (materializedMemoryId env operation.uid payload.patch point.commitId)
        changed.1 ∧
      changed.1.ledgerCommitId = some point.commitId ∧
      changed.1.ledgerSequence = some point.sequence := by
  obtain ⟨-, existing, hcheck, -, hcopy, -⟩ | ⟨hbuilt, hmade, -⟩ := changedItem_ok h
  · have hrevision := (updatedMemoryItem_revision env payload evidence point now existing).2
    rw [hcopy]
    refine ⟨.updated existing (checkUpdate_ok hcheck).1 ?_ hrevision, updatedMemoryItem_stamped⟩
    exact updatedMemoryItem_memoryId ..
  · obtain ⟨hid, -, hready, -⟩ := materializeMemoryItem_ok hmade
    have hrevision := (materializeMemoryItem_fresh hmade).2.1
    exact ⟨.added hbuilt hid hrevision hready, materializeMemoryItem_stamped hmade⟩

/-- What a commit writes. -/
theorem runApply_rows (h : runApply env control operation payload clock flag = .ok result) :
    result.controlState.commitSequence = control.commitSequence + 1 ∧
      ∀ row ∈ result.memoryItems,
        (row.ledgerCommitId = some result.controlState.headCommitId ∧
          row.ledgerSequence = some result.controlState.commitSequence) ∧
        row.memoryId ∈ result.operation.committedMemoryItemIds ∧
        payload.patch.decision ≠ .skipDuplicate ∧
        RowOrigin payload (materializedMemoryId env operation.uid payload.patch
          (commitPoint env control operation).commitId) row := by
  obtain ⟨evidence, -, -, -, ⟨-, hcommit⟩ | ⟨hskip, items, assertions, hitems, hcommit⟩⟩ :=
    runApply_ok h
  · obtain ⟨-, hcontrol, hrows, -⟩ := commitResult_ok hcommit
    rw [hcontrol, hrows]
    exact ⟨rfl, by simp⟩
  · obtain ⟨-, hcontrol, hrows, -⟩ := commitResult_ok hcommit
    rw [hcontrol, hrows, commitResult_journal hcommit]
    refine ⟨rfl, fun row hrow => ?_⟩
    have hjournaled : row.memoryId ∈ items.map (·.memoryId) := List.mem_map_of_mem hrow
    obtain ⟨changed, attached, superseded, hchanged, hattached, hsuperseded, rfl⟩ :=
      appliedItems_ok hitems
    obtain ⟨horigin, hstamped⟩ := changedItem_origin hchanged
    obtain ⟨ready, assertionId, planHash, extracted, misfits, hgraph⟩ := attached_eq hattached
    suffices hrow : (row.ledgerCommitId = some (commitPoint env control operation).commitId ∧
        row.ledgerSequence = some (commitPoint env control operation).sequence) ∧
        RowOrigin payload (materializedMemoryId env operation.uid payload.patch
          (commitPoint env control operation).commitId) row from
      ⟨hrow.1, hjournaled, hskip, hrow.2⟩
    rcases List.mem_cons.mp hrow with rfl | hlater
    · refine ⟨by rw [hgraph]; exact hstamped, ?_⟩
      cases horigin with
      | updated existing hexisting hid hrevision =>
        rw [hgraph]
        exact .updated existing hexisting hid hrevision
      | superseded existing hexisting hactive hid hrevision =>
        rw [hgraph]
        exact .superseded existing hexisting hactive hid hrevision
      | added hdecision hid hrevision hready =>
        -- an assertion is attached to a row of the graph only
        obtain ⟨hdue, -⟩ | ⟨-, rfl, -⟩ := hattached
        · obtain ⟨hupdate, -⟩ | ⟨-, -, hrefresh⟩ := changedItem_ok hchanged
          · exact absurd hupdate hdecision
          · rw [hrefresh] at hdue
            simp [refreshesGraphAssertion, hready] at hdue
        · exact .added hdecision hid hrevision hready
    · obtain ⟨supersededId, -, existing, hexisting, -, -, hactive, rfl⟩ :=
        exists_left_of_forall₂ (supersedeItems_ok hsuperseded) hlater
      exact ⟨⟨rfl, rfl⟩, .superseded existing hexisting hactive rfl rfl⟩

end apply

/-- A row that the call adds is under an id of its own choice, which the transaction looks up, or
under a derived one that no row has. -/
def PatchCall.AddsApart (env : MemoryEnv) (store : MemoryStore) (call : PatchCall) : Prop :=
  let newId := call.changedId env store.control
  call.payload.patch.decision = .update ∨ call.payload.patch.decision = .skipDuplicate ∨
    (call.operation.logicalPayload.decision = DurablePatchDecision.add.text ∧
      call.payload.patch.newMemoryId = some newId ∧ isBlank newId = false) ∨
    store.items.get newId = none

section transactions
variable {env : MemoryEnv} {start : MemoryControlState} {store next : MemoryStore}
  {log : List LoggedCommit} {result applied : ApplyResult} {items : List MemoryItem}

theorem countMigration_logged (call : PatchCall) (result : ApplyResult) :
    (countMigration call result).logged = result.logged := by
  unfold countMigration
  dsimp only
  split_ifs <;> rfl

theorem PatchCall.AddsApart.free {call : PatchCall} (h : call.AddsApart env store)
    (hkept : refuseTakenId store call applied = applied) (hstatus : applied.status = .committed)
    (hadds : call.payload.patch.decision ≠ .update)
    (hnew : call.payload.patch.decision ≠ .skipDuplicate) :
    store.items.get (call.changedId env store.control) = none := by
  obtain hupdate | hskip | ⟨hdecision, hid, hblank⟩ | hfree := h
  · exact absurd hupdate hadds
  · exact absurd hskip hnew
  · by_contra htaken
    have hsome : (store.items.get (call.changedId env store.control)).isSome = true :=
      Option.isSome_iff_ne_none.mpr htaken
    have hrefused : (refuseTakenId store call applied).status = .invalidPatch := by
      simp [refuseTakenId, hstatus, hdecision, hid, hblank, hsome]
    rw [hkept, hstatus] at hrefused
    cases hrefused
  · exact hfree

/-- A row that the transaction supersedes is read from its id. -/
theorem read_of_superseded {operation : MemoryOperation} {existing : MemoryItem}
    (h : readAuthoritativeSupersededItems env store.items operation = .ok items)
    (hmem : existing ∈ items) : ∃ memoryId, readItem env store.items memoryId =
      .ok (some existing) := by
  simp only [readAuthoritativeSupersededItems, bind_eq_ok_iff, mapM_eq_ok_iff] at h
  obtain ⟨read, hread, hrows⟩ := h
  cases hrows
  obtain ⟨found, hfound, hsome⟩ := List.mem_filterMap.mp hmem
  obtain ⟨memoryId, -, hitem⟩ := exists_left_of_forall₂ hread hfound
  rw [id_eq] at hsome
  rw [hsome] at hitem
  exact ⟨memoryId, hitem⟩

/-- A row one revision on from an active one that was read. -/
theorem Logged.succeeds_of_read (h : Logged start store log) {memoryId : String}
    {existing row : MemoryItem} (hread : readItem env store.items memoryId = .ok (some existing))
    (hlive : existing.status ≠ .tombstoned) (hid : row.memoryId = existing.memoryId)
    (hrevision : existing.itemRevision < row.itemRevision) :
    RowSucceeds (store.items.get row.memoryId) row := by
  obtain ⟨item, hitem, rfl⟩ := readItem_ok hread
  have hkey := h.keyed hitem
  exact rowSucceeds_of_read hitem (hid.trans hkey) hlive hrevision

/-- An apply is one commit of the log, or none. -/
theorem applyPatchTransaction_logged {call : PatchCall} (h : Logged start store log)
    (hrun : applyPatchTransaction env store call = .ok (next, result))
    (hapart : result.status = .committed → call.AddsApart env store) :
    ∃ commits, Logged start next (log ++ commits) := by
  simp only [applyPatchTransaction, bind_eq_ok_iff] at hrun
  obtain ⟨replay, -, hrun⟩ := hrun
  split_ifs at hrun with hskip
  · cases hrun
    exact ⟨[], by simpa using h⟩
  obtain ⟨answer, hanswer, hresult⟩ := bind_eq_ok_iff.mp hrun
  cases hresult
  by_cases hstatus : result.status = .committed
  swap
  · rw [writeApplyResult_uncommitted hstatus]
    exact ⟨[], by simpa using h⟩
  obtain ⟨existing, superseded, applied, htargets, hexisting, hsuperseded, happly, hkept, rfl⟩ :=
    applyToTargets_result hanswer hstatus
  obtain ⟨hsequence, hrows⟩ := runApply_rows happly
  have hlogged := countMigration_logged call applied
  refine ⟨[(countMigration call applied).logged], h.writeApplyResult hstatus ?_⟩
  have hsame : (countMigration call applied).controlState.commitSequence =
      applied.controlState.commitSequence := congrArg LoggedCommit.sequence hlogged
  have hhead : (countMigration call applied).controlState.headCommitId =
      applied.controlState.headCommitId := congrArg LoggedCommit.commitId hlogged
  have hitems : (countMigration call applied).memoryItems = applied.memoryItems :=
    congrArg LoggedCommit.rows hlogged
  have hjournal : (countMigration call applied).operation.committedMemoryItemIds =
      applied.operation.committedMemoryItemIds := congrArg LoggedCommit.journaled hlogged
  constructor
  · rw [hsame, hsequence]
  · rw [hitems, hsame, hhead]
    exact fun row hrow => (hrows row hrow).1
  · rw [hitems, hjournal]
    exact fun row hrow => (hrows row hrow).2.1
  · rw [hitems]
    intro row hrow
    obtain ⟨-, -, hskip, horigin⟩ := hrows row hrow
    cases horigin with
    | updated existing' hpayload hid hrevision =>
      have hsome : existing = some existing' := hpayload
      rw [hsome] at hexisting
      obtain ⟨hactive, memoryId, hread⟩ := target_active htargets hexisting
      exact h.succeeds_of_read hread (by simp [hactive]) hid (by omega)
    | superseded existing' hpayload hactive hid hrevision =>
      have hmem : existing' ∈ superseded := by
        simp only [PatchPayload.authoritative] at hpayload
        split_ifs at hpayload
        · cases hpayload
        · exact hpayload
      obtain ⟨memoryId, hread⟩ := read_of_superseded hsuperseded hmem
      exact h.succeeds_of_read hread (by simp [hactive]) hid (by omega)
    | added hdecision hid hrevision _ =>
      have hfree := (hapart hstatus).free hkept (runApply_committed happly) hdecision hskip
      intro old hold
      rw [hid] at hold
      rw [ApplyCall.changedId] at hfree
      have hnone : store.items.get (materializedMemoryId env call.operation.uid
          call.payload.patch (commitPoint env store.control call.operation).commitId) = none :=
        hfree
      have hsome : store.items.get (materializedMemoryId env call.operation.uid
          call.payload.patch (commitPoint env store.control call.operation).commitId) =
            some old := hold
      rw [hnone] at hsome
      cases hsome

/-! ### Privacy tombstones -/

theorem privacyTombstonedEvidence_scrubbed (evidence : MemoryEvidence) :
    (privacyTombstonedEvidence evidence).sourceId = none ∧
      (privacyTombstonedEvidence evidence).conversationId = none := ⟨rfl, rfl⟩

/-- The rows of a tombstone: each row the caller expects, scrubbed and without content. -/
theorem tombstoneResult_rows {call : TombstoneCall}
    (h : tombstoneResult env store call = .ok result) :
    result.status = .committed ∧
      result.controlState.commitSequence = store.control.commitSequence + 1 ∧
      (∀ row ∈ result.memoryItems, (row.ledgerCommitId = some result.controlState.headCommitId ∧
          row.ledgerSequence = some result.controlState.commitSequence) ∧
        row.memoryId ∈ result.operation.committedMemoryItemIds ∧ row.Scrubbed ∧
        row.content = none ∧ ∃ memoryId item, readItem env store.items memoryId = .ok (some item) ∧
          item.status ≠ .tombstoned ∧ row.memoryId = item.memoryId ∧
          row.itemRevision = item.itemRevision + 1) ∧
      ∀ expected ∈ call.expectedItems, ∃ item, readItem env store.items expected.memoryId =
          .ok (some item) ∧ ∃ row ∈ result.memoryItems, row.memoryId = item.memoryId := by
  simp only [tombstoneResult, bind_eq_ok_iff, mapM_eq_ok_iff] at h
  obtain ⟨_, -, _, -, _, -, rows, hrows, operation, -, tombstones, htombstones, _, -, marked,
    hmarked, hresult⟩ := h
  cases hresult
  have hread : ∀ {memoryId item}, expectedRow env store call memoryId = .ok item →
      readItem env store.items memoryId = .ok (some item) ∧ item.status ≠ .tombstoned := by
    intro memoryId item hexpected
    obtain ⟨found, hfound, hchecked⟩ := bind_eq_ok_iff.mp hexpected
    cases found with
    | none => cases hchecked
    | some found =>
      simp only [bind_eq_ok_iff, check_eq_ok_iff, Bool.and_eq_true, decide_eq_true_eq] at hchecked
      obtain ⟨_, ⟨⟨-, hlive⟩, -⟩, hsame⟩ := hchecked
      cases hsame
      exact ⟨hfound, hlive⟩
  have hjournal : marked.committedMemoryItemIds = tombstones.map (·.memoryId) := by
    rw [MemoryOperation.markCommitted_ok hmarked]
    rfl
  refine ⟨rfl, rfl, fun row hrow => ?_, fun expected hexpected => ?_⟩
  · obtain ⟨read, hmem, htombstone⟩ := exists_left_of_forall₂ htombstones hrow
    obtain ⟨evidence, hevidence, hmade⟩ := bind_eq_ok_iff.mp htombstone
    cases hmade
    obtain ⟨memoryId, -, hexpected⟩ := exists_left_of_forall₂ hrows hmem
    obtain ⟨hfound, hlive⟩ := hread hexpected
    refine ⟨⟨rfl, rfl⟩, ?_, ⟨rfl, fun record hrecord => ?_⟩, rfl, memoryId, read, hfound, hlive,
      rfl, rfl⟩
    · rw [hjournal]
      exact List.mem_map_of_mem hrow
    · rw [embeddedEvidence, mapM_eq_ok_iff] at hevidence
      obtain ⟨embedded, -, hdocument⟩ := exists_left_of_forall₂ hevidence hrecord
      split at hdocument
      · cases hdocument
      · cases hdocument
        exact privacyTombstonedEvidence_scrubbed _
  · have hid : expected.memoryId ∈ sortedIds (call.expectedItems.map (·.memoryId)) := by
      simp only [sortedIds, List.mem_insertionSort, List.mem_dedup]
      exact List.mem_map_of_mem hexpected
    obtain ⟨read, hmem, hfound⟩ := exists_right_of_forall₂ hrows hid
    obtain ⟨row, hrow, htombstone⟩ := exists_right_of_forall₂ htombstones hmem
    obtain ⟨evidence, -, hmade⟩ := bind_eq_ok_iff.mp htombstone
    cases hmade
    exact ⟨read, (hread hfound).1, _, hrow, rfl⟩

/-- A tombstone is one commit of the log. -/
theorem tombstoneTransaction_logged {call : TombstoneCall} (h : Logged start store log)
    (hrun : tombstoneTransaction env store call = .ok (next, result)) :
    ∃ commits, Logged start next (log ++ commits) := by
  obtain ⟨answer, hanswer, hresult⟩ := bind_eq_ok_iff.mp hrun
  cases hresult
  obtain ⟨hstatus, hsequence, hrows, -⟩ := tombstoneResult_rows hanswer
  refine ⟨[result.logged], h.writeApplyResult hstatus ⟨hsequence, ?_, ?_, ?_⟩⟩
  · exact fun row hrow => (hrows row hrow).1
  · exact fun row hrow => (hrows row hrow).2.1
  · intro row hrow
    obtain ⟨-, -, -, -, memoryId, item, hread, hlive, hid, hrevision⟩ := hrows row hrow
    exact h.succeeds_of_read hread hlive hid (by omega)

end transactions

end Omi.Memory
