import Omi.Memory.ReplacementPlan

/-! The commits of a replacement: the first one retracts rows and brings others back, and each write
adds its row in a commit of its own. -/
namespace Omi.Memory
open Omi.Foundation

/-- The row that a write adds: it is the write's, names the commit it is in, and is a later revision
of the row whose place it takes. -/
structure AddedRow (plan : ReplacementPlan) (write : CanonicalApplyWrite) (result : ApplyResult)
    (row : MemoryItem) : Prop where
  only : result.memoryItems = [row]
  memoryId : row.memoryId = write.memoryId
  stamped : row.ledgerCommitId = some result.controlState.headCommitId ∧
    row.ledgerSequence = some result.controlState.commitSequence
  journaled : row.memoryId ∈ result.operation.committedMemoryItemIds
  active : row.status = .active
  content : row.content = write.payload.patch.memoryText
  evidence : proposedEvidence write.payload = .ok row.evidence
  outside : row.graphReady = false
  trimmed : ∀ contentHash ∈ row.contentHash, strip contentHash = contentHash
  later : ∀ prior ∈ (plan.prior write.memoryId).1, prior.itemRevision < row.itemRevision

/-- The results of some writes: each is a commit that adds the row of its write, on the control
state that the one before it left. -/
def AddedInTurn (plan : ReplacementPlan) :
    MemoryControlState → List CanonicalApplyWrite → List ApplyResult → Prop
  | _, [], results => results = []
  | control, write :: writes, results => ∃ result rest, results = result :: rest ∧
      result.status = .committed ∧ result.graphAssertions = [] ∧
      result.controlState.commitSequence = control.commitSequence + 1 ∧
      (∃ row, AddedRow plan write result row) ∧ AddedInTurn plan result.controlState writes rest

section
variable {env : MemoryEnv} {plan : ReplacementPlan} {write : CanonicalApplyWrite}
  {control : MemoryControlState} {applied result : ApplyResult} {row item : MemoryItem}
  {clock : ApplyClock}

/-! ### The writes -/

/-- A plain write that is committed adds one new row, and nothing else. -/
theorem runApply_plain (hplain : write.Plain)
    (hnonblank : isBlank (write.payload.patch.newMemoryId.getD "") = false)
    (h : runApply env control write.operation write.payload clock false = .ok applied) :
    ∃ row, applied.memoryItems = [row] ∧ applied.graphAssertions = [] ∧
      row.memoryId = write.memoryId ∧ row.status = .active ∧
      row.content = write.payload.patch.memoryText ∧
      proposedEvidence write.payload = .ok row.evidence ∧ row.graphReady = false ∧
      (∀ contentHash ∈ row.contentHash, strip contentHash = contentHash) := by
  obtain ⟨evidence, hevidence, -, -, ⟨hskip, -⟩ | ⟨-, items, assertions, hitems, hcommit⟩⟩ :=
    runApply_ok h
  · rw [hplain.adds] at hskip
    cases hskip
  obtain ⟨-, -, hrows, hassertions, -⟩ := commitResult_ok hcommit
  obtain ⟨changed, attached, superseded, hchanged, hattached, hsuperseded, rfl⟩ :=
    appliedItems_ok hitems
  obtain ⟨hupdate, -⟩ | ⟨-, hmade, hrefresh⟩ := changedItem_ok hchanged
  · rw [hplain.adds] at hupdate
    cases hupdate
  obtain ⟨hid, hactive, hready, -⟩ := materializeMemoryItem_ok hmade
  obtain ⟨-, -, -, hcontent, hrecords, hhash⟩ := materializeMemoryItem_fresh hmade
  have hsame : attached = changed.1 ∧ assertions = [] := by
    obtain ⟨hdue, -⟩ | ⟨-, hsame, hnone⟩ := hattached
    · rw [hrefresh] at hdue
      simp [refreshesGraphAssertion, hready] at hdue
    · exact ⟨hsame, hnone⟩
  have hnone : superseded = [] := by
    rw [List.eq_nil_iff_forall_not_mem]
    intro other hother
    obtain ⟨supersededId, -, existing, hexisting, -⟩ :=
      exists_left_of_forall₂ (supersedeItems_ok hsuperseded) hother
    rw [hplain.bare] at hexisting
    cases hexisting
  refine ⟨changed.1, ?_, ?_, ?_, hactive, hcontent, ?_, hready, ?_⟩
  · rw [hrows, hsame.1, hnone]
  · rw [hassertions, hsame.2]
  · have hpresent : present write.payload.patch.newMemoryId = true := by
      rw [hplain.named] at hnonblank ⊢
      rw [present, Option.any_some, decide_eq_true_eq]
      intro hempty
      rw [Option.getD_some, hempty] at hnonblank
      cases hnonblank
    rw [hid, materializedMemoryId, hplain.untargeted, hpresent, hplain.named]
    rfl
  · rw [hrecords]
    exact hevidence
  · intro contentHash hmem
    rw [hhash] at hmem
    rw [← Option.some.inj hmem]
    exact contractId_trimmed _ _ _

/-- A row that takes the place of another keeps all but its revision. -/
theorem refreshReplacementResult_eq (prior : Option MemoryItem) (wasSource : Bool)
    (hitems : applied.memoryItems = [row]) :
    ∃ version revision updatedAt events,
      refreshReplacementResult applied prior wasSource =
        { applied with
          memoryItems :=
            [{ row with version := version, itemRevision := revision, updatedAt := updatedAt }]
          outboxEvents := events } ∧
      ∀ old ∈ prior, old.itemRevision < revision := by
  cases prior with
  | none =>
    refine ⟨row.version, row.itemRevision, row.updatedAt, applied.outboxEvents, ?_, by simp⟩
    rw [← hitems]
    rfl
  | some old =>
    simp only [refreshReplacementResult, hitems]
    refine ⟨_, _, _, _, rfl, fun other hother => ?_⟩
    obtain rfl := Option.some.inj hother
    split_ifs <;> omega

/-- What the results of the applied writes are, as long as the writes are plain. -/
theorem applyWrites_ok {writes : List CanonicalApplyWrite} {results : List ApplyResult}
    (hplain : ∀ write ∈ writes, write.Plain ∧
      isBlank (write.payload.patch.newMemoryId.getD "") = false)
    (h : applyWrites env plan control (writes.zip (writes.map (·.memoryId))) = .ok results) :
    AddedInTurn plan control writes results := by
  induction writes generalizing control results with
  | nil =>
    cases h
    rfl
  | cons write writes ih =>
    rw [List.map_cons, List.zip_cons_cons] at h
    simp only [applyWrites, bind_eq_ok_iff, check_eq_ok_iff, decide_eq_true_eq] at h
    obtain ⟨applied, happlied, _, hstatus, rest, hrest, hresult⟩ := h
    cases hresult
    obtain ⟨⟨hfirst, hnonblank⟩, hlater⟩ := List.forall_mem_cons.mp hplain
    have hrun := runApply_of_committed happlied hstatus
    obtain ⟨hsequence, hrows⟩ := runApply_rows hrun
    obtain ⟨row, hitems, hassertions, hid, hactive, hcontent, hevidence, hready, htrimmed⟩ :=
      runApply_plain hfirst hnonblank hrun
    obtain ⟨hstamped, hjournaled, -⟩ := hrows row (by simp [hitems])
    obtain ⟨version, revision, updatedAt, events, hrefreshed, hrevision⟩ :=
      refreshReplacementResult_eq (plan.prior write.memoryId).1 (plan.prior write.memoryId).2 hitems
    refine ⟨_, rest, rfl, ?_, ?_, ?_, ?_, ?_⟩
    · rw [hrefreshed]
      exact hstatus
    · rw [hrefreshed]
      exact hassertions
    · rw [hrefreshed]
      exact hsequence
    · refine ⟨{ row with
        version := version
        itemRevision := revision
        updatedAt := updatedAt }, ?_⟩
      rw [hrefreshed]
      exact ⟨rfl, hid, hstamped, hjournaled, hactive, hcontent, hevidence, hready, htrimmed,
        hrevision⟩
    · rw [hrefreshed]
      exact ih hlater hrest

/-! ### The rows that come back -/

/-- A row that comes back is active, one revision on, and has an assertion of that revision. -/
theorem reactivateLineageItem_ok {point : CommitPoint} {accountGeneration now : ℤ}
    {assertion : MemoryGraphAssertion}
    (h : reactivateLineageItem env point accountGeneration now item = .ok (row, assertion)) :
    row.memoryId = item.memoryId ∧ row.itemRevision = item.itemRevision + 1 ∧
      (row.ledgerCommitId = some point.commitId ∧ row.ledgerSequence = some point.sequence) ∧
      row.evidence = item.evidence ∧ row.status = .active ∧ row.graphReady = true ∧
      row.contentHash = item.contentHash ∧ assertion.memoryId = strip item.memoryId ∧
      assertion.itemRevision = item.itemRevision + 1 ∧
      ∃ contentHash, item.contentHash = some contentHash ∧
        assertion.contentHash = strip contentHash := by
  unfold reactivateLineageItem at h
  split at h
  · cases h
  split at h
  · cases h
  simp only [bind_eq_ok_iff, check_eq_ok_iff] at h
  obtain ⟨_, hpresent, h⟩ := h
  split at h
  · cases h
  next built hbuild =>
    obtain ⟨made, hmade, hresult⟩ := bind_eq_ok_iff.mp h
    cases hresult
    obtain ⟨-, rfl⟩ := MemoryItem.construct_eq_ok_iff.mp hmade
    obtain ⟨hid, hrevision, hhash, -⟩ := buildMemoryGraphAssertion_ok hbuild
    obtain ⟨contentHash, hsome⟩ : ∃ contentHash, item.contentHash = some contentHash := by
      cases hcontent : item.contentHash with
      | none => simp [hcontent, present] at hpresent
      | some contentHash => exact ⟨contentHash, rfl⟩
    rw [hsome] at hhash
    exact ⟨rfl, rfl, ⟨rfl, rfl⟩, rfl, rfl, rfl, rfl, hid, hrevision, contentHash, hsome, hhash⟩

/-! ### The commits -/

/-- What a replacement writes: retracted rows, rows that come back with their assertions, and the
rows of the writes. -/
structure ReplacementCommits.Made (env : MemoryEnv) (store : MemoryStore) (call : ReplacementCall)
    (plan : ReplacementPlan) (commits : ReplacementCommits) (replacement : ApplyResult)
    (back : List (MemoryItem × MemoryGraphAssertion)) (added : List ApplyResult) : Prop where
  results : commits.results = replacement :: added
  status : replacement.status = .committed
  control : replacement.controlState = replacementControl env store.control call
  items : replacement.memoryItems = back.map Prod.fst
  assertions : replacement.graphAssertions = back.map Prod.snd
  retracted : commits.retracted = plan.sources.map (retractedItem call
    (replacementPoint env store.control call) replacement.controlState.accountGeneration)
  reactivated : List.Forall₂ (fun item back => reactivateLineageItem env
      (replacementPoint env store.control call) replacement.controlState.accountGeneration
      call.now item = .ok back)
    (plan.lineage.filter (·.canonicalTarget ∉ plan.staged.memoryIds)) back
  journaled : ∀ row ∈ commits.retracted ++ replacement.memoryItems,
    row.memoryId ∈ replacement.operation.committedMemoryItemIds
  added : AddedInTurn plan replacement.controlState call.writes added

theorem replacementCommits_ok {store : MemoryStore} {call : ReplacementCall}
    {commits : ReplacementCommits} (hsound : plan.Sound env store call)
    (hplain : ∀ write ∈ call.writes, write.Plain)
    (h : replacementCommits env store call plan = .ok commits) :
    ∃ replacement back added, commits.Made env store call plan replacement back added := by
  simp only [replacementCommits, bind_eq_ok_iff, check_eq_ok_iff, mapM_eq_ok_iff] at h
  obtain ⟨results, hresults, back, hback, committed, hcommitted, _, -, hmade⟩ := h
  cases hmade
  refine ⟨_, back, results, rfl, rfl, rfl, rfl, rfl, rfl, hback, ?_, ?_⟩
  · intro row hrow
    rw [MemoryOperation.markCommitted_ok hcommitted]
    apply mem_sortedIds.mpr
    rcases List.mem_append.mp hrow with hretracted | hmem
    · exact List.mem_append_left _ (List.mem_append_left _ (List.mem_map_of_mem hretracted))
    · obtain ⟨one, hone, rfl⟩ := List.mem_map.mp hmem
      exact List.mem_append_right _ (List.mem_map_of_mem hone)
  · rw [hsound.memoryIds] at hresults
    exact applyWrites_ok (fun write hwrite => ⟨hplain write hwrite,
      (hsound.checked write hwrite).nonblank⟩) hresults

/-! ### The log -/

theorem not_scrubbed_of_source {conversationId : String}
    (h : itemHasConversationSource item conversationId = true) : ¬ item.Scrubbed := by
  intro hscrubbed
  obtain ⟨evidence, hmem, hsource⟩ := List.any_eq_true.mp h
  obtain ⟨hnone, hnone'⟩ := hscrubbed.2 evidence hmem
  simp [hnone, hnone'] at hsource

variable {start : MemoryControlState} {store next : MemoryStore} {log : List LoggedCommit}
  {call : ReplacementCall} {commits : ReplacementCommits} {replacement : ApplyResult}
  {back : List (MemoryItem × MemoryGraphAssertion)} {added results : List ApplyResult}
  {memoryId : String} {old : MemoryItem}

theorem readItem_get {found : Option MemoryItem} (hget : store.items.get memoryId = some old)
    (hread : readItem env store.items memoryId = .ok found) : found = some (old.normalized env) := by
  simp only [readItem, hget, MemoryItem.construct] at hread
  split_ifs at hread
  · cases hread
    rfl
  · cases hread

/-- A row that is under the id of a write is one that the write's row goes on from. -/
theorem ReplacementPlan.Sound.room (hsound : plan.Sound env store call)
    (hid : memoryId ∈ plan.staged.memoryIds) (hold : store.items.get memoryId = some old) :
    ¬ old.Scrubbed ∧ ∃ prior ∈ (plan.prior memoryId).1, old.itemRevision = prior.itemRevision := by
  unfold ReplacementPlan.prior
  cases hfind : plan.sources.find? (·.1.memoryId = memoryId) with
  | some source =>
    obtain ⟨hread, hlive, -⟩ := hsound.sources source (List.mem_of_find?_eq_some hfind)
    have hkey := List.find?_some hfind
    rw [of_decide_eq_true hkey] at hread
    have hsource : source.1 = old.normalized env := Option.some.inj (readItem_get hold hread)
    rw [hsource] at hlive
    exact ⟨fun hscrubbed => hlive hscrubbed.1, source.1, rfl, by rw [hsource]; rfl⟩
  | none =>
    have houtside : memoryId ∉ plan.sourceIds := by
      intro hmem
      obtain ⟨source, hsource, hkey⟩ := List.mem_map.mp hmem
      have hnone := List.find?_eq_none.mp hfind source hsource
      simp [hkey] at hnone
    obtain ⟨hread, hconversation⟩ := hsound.staged.found memoryId hid houtside
    have hprior := readItem_get hold hread
    have hsource := hconversation (old.normalized env) hprior
    have hlive : ¬ old.Scrubbed := not_scrubbed_of_source hsource
    exact ⟨hlive, old.normalized env, hprior, rfl⟩

theorem foldl_retract (rows : List MemoryItem) (store : MemoryStore) :
    (rows.foldl MemoryStore.retract store).items = writeItems store.items rows ∧
      (rows.foldl MemoryStore.retract store).control = store.control := by
  induction rows generalizing store with
  | nil => exact ⟨rfl, rfl⟩
  | cons row rows ih => exact ih (store.retract row)

theorem writeApplyResult_committed (hstatus : result.status = .committed) :
    (store.writeApplyResult result).items = writeItems store.items result.memoryItems ∧
      (store.writeApplyResult result).control = result.controlState := by
  have hbook := writeApplyResult_book store result
  rw [MemoryBook.fed, if_pos hstatus] at hbook
  exact ⟨congrArg (·.items) hbook, congrArg (·.control) hbook⟩

/-- The commits of the writes are logged one after another. -/
theorem AddedInTurn.logged {writes : List CanonicalApplyWrite} (h : Logged start store log)
    (hturn : AddedInTurn plan store.control writes results)
    (hdistinct : (writes.map (·.memoryId)).Nodup)
    (hroom : ∀ write ∈ writes, ∀ old, store.items.get write.memoryId = some old →
      ¬ old.Scrubbed ∧ ∃ prior ∈ (plan.prior write.memoryId).1,
        old.itemRevision = prior.itemRevision) :
    ∃ commits, Logged start (results.foldl MemoryStore.writeApplyResult store)
      (log ++ commits) := by
  induction writes generalizing store log results with
  | nil =>
    obtain rfl : results = [] := hturn
    exact ⟨[], by simpa using h⟩
  | cons write writes ih =>
    obtain ⟨result, rest, rfl, hstatus, -, hsequence, ⟨row, hrow⟩, hrest⟩ := hturn
    obtain ⟨hfirst, hroom⟩ := List.forall_mem_cons.mp hroom
    obtain ⟨hother, hdistinct⟩ := List.nodup_cons.mp hdistinct
    have hfits : CommitFits store.control store.items.get result := by
      constructor
      · exact hsequence
      · simpa [hrow.only] using hrow.stamped
      · simpa [hrow.only] using hrow.journaled
      · rw [hrow.only, List.forall_mem_singleton]
        intro old hold
        rw [hrow.memoryId] at hold
        obtain ⟨hopen, prior, hprior, hsame⟩ := hfirst old hold
        have hlater := hrow.later prior hprior
        rw [← hsame] at hlater
        exact ⟨hlater, hopen⟩
    obtain ⟨hitems, hcontrol⟩ : (store.writeApplyResult result).items =
          writeItems store.items result.memoryItems ∧
        (store.writeApplyResult result).control = result.controlState :=
      writeApplyResult_committed hstatus
    rw [← hcontrol] at hrest
    have hkept : ∀ later ∈ writes, ∀ old,
        (store.writeApplyResult result).items.get later.memoryId = some old →
          ¬ old.Scrubbed ∧ ∃ prior ∈ (plan.prior later.memoryId).1,
            old.itemRevision = prior.itemRevision := by
      intro later hlater old hold
      have hapart : later.memoryId ∉ result.memoryItems.map (·.memoryId) := by
        rw [hrow.only, List.map_singleton, List.mem_singleton, hrow.memoryId]
        intro hsame
        exact hother (List.mem_map.mpr ⟨later, hlater, hsame⟩)
      rw [hitems, get_writeItems_other hapart] at hold
      exact hroom later hlater old hold
    obtain ⟨commits, hlogged⟩ := ih (h.writeApplyResult hstatus hfits) hrest hdistinct hkept
    exact ⟨result.logged :: commits, by simpa using hlogged⟩

/-- A row that comes back is none of those the writes add. -/
theorem ReplacementPlan.Sound.lineage_apart (hsound : plan.Sound env store call)
    (hitem : item ∈ plan.lineage) : item.memoryId ∉ plan.staged.memoryIds := by
  intro hmem
  obtain ⟨hread, -, hconversation, houtside⟩ := hsound.lineage item hitem
  obtain ⟨hfound, hsource⟩ := hsound.staged.found _ hmem houtside
  rw [hread] at hfound
  rw [hsource item (Except.ok.inj hfound).symm] at hconversation
  cases hconversation

/-- The rows of the first commit. -/
theorem ReplacementCommits.Made.first_row (hmade : commits.Made env store call plan replacement
      back added) (hsound : plan.Sound env store call)
    (hrow : row ∈ commits.retracted.filter (·.memoryId ∉ plan.staged.memoryIds) ++
      replacement.memoryItems) :
    row.memoryId ∉ plan.staged.memoryIds ∧
      (row.ledgerCommitId = some replacement.controlState.headCommitId ∧
        row.ledgerSequence = some replacement.controlState.commitSequence) ∧
      ∃ existing, readItem env store.items row.memoryId = .ok (some existing) ∧
        existing.memoryId = row.memoryId ∧ existing.status ≠ .tombstoned ∧
        row.itemRevision = existing.itemRevision + 1 := by
  have hpoint : replacement.controlState.headCommitId =
        (replacementPoint env store.control call).commitId ∧
      replacement.controlState.commitSequence =
        (replacementPoint env store.control call).sequence := by
    rw [hmade.control, replacementControl]
    split_ifs <;> exact ⟨rfl, rfl⟩
  rcases List.mem_append.mp hrow with hretracted | hback
  · obtain ⟨hretracted, hnew⟩ := List.mem_filter.mp hretracted
    rw [hmade.retracted] at hretracted
    obtain ⟨source, hsource, rfl⟩ := List.mem_map.mp hretracted
    obtain ⟨hread, hlive, -⟩ := hsound.sources source hsource
    rw [hpoint.1, hpoint.2]
    exact ⟨of_decide_eq_true hnew, ⟨rfl, rfl⟩, source.1, hread, rfl, hlive, rfl⟩
  · rw [hmade.items] at hback
    obtain ⟨pair, hpair, rfl⟩ := List.mem_map.mp hback
    obtain ⟨item, hitem, hmadeBack⟩ := exists_left_of_forall₂ hmade.reactivated hpair
    have hlineage := (List.mem_filter.mp hitem).1
    obtain ⟨hread, hsuperseded, -⟩ := hsound.lineage item hlineage
    obtain ⟨hid, hrevision, hstamped, -⟩ := reactivateLineageItem_ok hmadeBack
    rw [hpoint.1, hpoint.2, hid]
    exact ⟨hsound.lineage_apart hlineage, hstamped, item, hread, rfl, by simp [hsuperseded],
      hrevision⟩

/-- The first commit of a replacement is logged, and leaves the rows under the ids of the writes as
they are. -/
theorem ReplacementCommits.Made.first (hmade : commits.Made env store call plan replacement
      back added) (hsound : plan.Sound env store call) (h : Logged start store log) :
    let written := (commits.retracted.filter (·.memoryId ∉ plan.staged.memoryIds)).foldl
      MemoryStore.retract store
    (∃ commit, Logged start (written.writeApplyResult replacement) (log ++ [commit])) ∧
      (written.writeApplyResult replacement).control = replacement.controlState ∧
      ∀ memoryId ∈ plan.staged.memoryIds,
        (written.writeApplyResult replacement).items.get memoryId =
          store.items.get memoryId := by
  intro written
  obtain ⟨hitems, hcontrol⟩ := foldl_retract
    (commits.retracted.filter (·.memoryId ∉ plan.staged.memoryIds)) store
  obtain ⟨hitems', hcontrol'⟩ : (written.writeApplyResult replacement).items =
        writeItems written.items replacement.memoryItems ∧
      (written.writeApplyResult replacement).control = replacement.controlState :=
    writeApplyResult_committed hmade.status
  set rows := commits.retracted.filter (·.memoryId ∉ plan.staged.memoryIds) ++
    replacement.memoryItems with hrows
  have hwritten : (written.writeApplyResult replacement).items = writeItems store.items rows := by
    rw [hitems', hitems, hrows, writeItems, writeItems, writeItems, List.foldl_append]
  refine ⟨⟨{ commitId := replacement.controlState.headCommitId
             sequence := replacement.controlState.commitSequence
             rows := rows
             journaled := replacement.operation.committedMemoryItemIds }, ?_⟩, hcontrol', ?_⟩
  · refine h.extend hwritten (congrArg (·.headCommitId) hcontrol')
      (congrArg (·.commitSequence) hcontrol') ?_ ?_ ?_ ?_
    · show replacement.controlState.commitSequence = store.control.commitSequence + 1
      rw [hmade.control, replacementControl]
      split_ifs <;> rfl
    · exact fun row hrow => (hmade.first_row hsound hrow).2.1
    · intro row hrow
      rcases List.mem_append.mp hrow with hretracted | hback
      · exact hmade.journaled row (List.mem_append_left _ (List.mem_filter.mp hretracted).1)
      · exact hmade.journaled row (List.mem_append_right _ hback)
    · intro row hrow
      obtain ⟨-, -, existing, hread, hid, hlive, hrevision⟩ := hmade.first_row hsound hrow
      exact h.succeeds_of_read hread hlive hid.symm (by omega)
  · intro memoryId hmem
    rw [hwritten, get_writeItems_other]
    intro hrow
    obtain ⟨row, hwrittenRow, rfl⟩ := List.mem_map.mp hrow
    exact (hmade.first_row hsound hwrittenRow).1 hmem

/-- A replacement that is no replay commits its plan. -/
theorem replaceConversationSource_ok {result : ConversationSourceReplacementResult}
    (hkeyed : KeyedRows store.items) (hplain : ∀ write ∈ call.writes, write.Plain)
    (hrun : replaceConversationSource env store call = .ok (next, result, results)) :
    (next = store ∧ results = []) ∨
      ∃ plan commits replacement back added, checkReplacement store.control call = .ok () ∧
        plan.Sound env store call ∧ commits.Made env store call plan replacement back added ∧
        results = commits.results ∧ next = store.writeReplacement plan.staged.memoryIds commits ∧
        result.committedMemoryIds = plan.staged.memoryIds := by
  simp only [replaceConversationSource, bind_eq_ok_iff] at hrun
  obtain ⟨_, -, replay, -, hrun⟩ := hrun
  cases replay with
  | some replay =>
    cases hrun
    exact .inl ⟨rfl, rfl⟩
  | none =>
    simp only [bind_eq_ok_iff] at hrun
    obtain ⟨_, hchecked, plan, hplan, commits, hcommits, hresult⟩ := hrun
    cases hresult
    have hsound := planReplacement_ok hkeyed hplan
    obtain ⟨replacement, back, added, hmade⟩ := replacementCommits_ok hsound hplain hcommits
    exact .inr ⟨plan, commits, replacement, back, added, hchecked, hsound, hmade, rfl, rfl, rfl⟩

/-- A replacement is some commits of the log. -/
theorem replaceConversationSource_logged {result : ConversationSourceReplacementResult}
    (h : Logged start store log) (hplain : ∀ write ∈ call.writes, write.Plain)
    (hrun : replaceConversationSource env store call = .ok (next, result, results)) :
    ∃ commits, Logged start next (log ++ commits) := by
  have hkeyed : KeyedRows store.items := fun _ _ hitem => h.keyed hitem
  obtain ⟨rfl, -⟩ | ⟨plan, commits, replacement, back, added, -, hsound, hmade, -, rfl, -⟩ :=
    replaceConversationSource_ok hkeyed hplain hrun
  · exact ⟨[], by simpa using h⟩
  obtain ⟨⟨commit, hfirst⟩, hcontrol, hkept⟩ := hmade.first hsound h
  have hturn := hmade.added
  rw [← hcontrol] at hturn
  have hdistinct := hsound.staged.distinct
  rw [hsound.memoryIds] at hdistinct
  obtain ⟨rest, hlogged⟩ := hturn.logged hfirst hdistinct (by
    intro write hwrite old hold
    have hid : write.memoryId ∈ plan.staged.memoryIds := by
      rw [hsound.memoryIds]
      exact List.mem_map_of_mem hwrite
    rw [hkept _ hid] at hold
    exact hsound.room hid hold)
  refine ⟨commit :: rest, ?_⟩
  rw [MemoryStore.writeReplacement, hmade.results, List.foldl_cons]
  simpa using hlogged

end

end Omi.Memory
