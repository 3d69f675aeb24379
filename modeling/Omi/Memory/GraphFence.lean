import Omi.Memory.GraphStore

/-! The fence between memory rows and their graph assertions: what a store keeps of it, what writing
rows keeps of it, and which rows a commit writes. -/
namespace Omi.Memory
open Omi.Foundation

/-- The assertion document of a row is there exactly if the row is active and one of the graph, and
is of the row's revision and content. -/
structure AssertionCurrent (item : MemoryItem) (document : Option MemoryGraphAssertion) : Prop where
  present_iff : document.isSome = true ↔ item.status = .active ∧ item.graphReady = true
  revision : ∀ assertion ∈ document, assertion.itemRevision = item.itemRevision
  content : ∀ assertion ∈ document, item.contentHash = some assertion.contentHash

/-- The fence as every row would have it. -/
structure GraphFenced (store : MemoryStore) : Prop where
  owned : ∀ memoryId assertion, store.assertions.get memoryId = some assertion →
    ∃ item, store.items.get memoryId = some item
  rows : ∀ memoryId item, store.items.get memoryId = some item →
    AssertionCurrent item (store.assertions.get memoryId)

/-- What the transactions keep of a row: a tombstone may still have the assertion of the revision
before it. -/
def RowFenced (item : MemoryItem) (document : Option MemoryGraphAssertion) : Prop :=
  if item.status = .tombstoned then
    ∀ assertion ∈ document, assertion.itemRevision + 1 = item.itemRevision
  else AssertionCurrent item document

/-- The fence with tombstones in it. -/
structure GraphFencedToTombstones (store : MemoryStore) : Prop where
  owned : ∀ memoryId assertion, store.assertions.get memoryId = some assertion →
    ∃ item, store.items.get memoryId = some item
  rows : ∀ memoryId item, store.items.get memoryId = some item →
    RowFenced item (store.assertions.get memoryId)

/-- What an assertion of a row is compared by: it trims the texts it is built from. -/
structure MemoryItem.Trimmed (item : MemoryItem) : Prop where
  contentHash : ∀ contentHash ∈ item.contentHash, strip contentHash = contentHash
  memoryId : item.graphReady = true → strip item.memoryId = item.memoryId

/-- The fence, and what the transactions rely on to keep it. -/
structure StoreSound (store : MemoryStore) : Prop extends GraphFencedToTombstones store where
  keyed : ∀ memoryId item, store.items.get memoryId = some item → item.memoryId = memoryId
  trimmed : ∀ memoryId item, store.items.get memoryId = some item → item.Trimmed

/-- The document of a row after the row is written. -/
def documentAfter (assertions : List MemoryGraphAssertion) (item : MemoryItem)
    (document : Option MemoryGraphAssertion) : Option MemoryGraphAssertion :=
  (matchingAssertion assertions item).or
    (if item.status ≠ .tombstoned && (item.status ≠ .active || !item.graphReady) then none
      else document)

/-- The row can be written over any document. -/
structure WritesFenced (assertions : List MemoryGraphAssertion) (item : MemoryItem) : Prop where
  trimmed : item.Trimmed
  fenced : ∀ document, RowFenced item (documentAfter assertions item document)

section
variable {env : MemoryEnv} {store : MemoryStore} {assertions : List MemoryGraphAssertion}
  {item row : MemoryItem} {items : List MemoryItem} {memoryId : String} {result : ApplyResult}

@[simp] theorem writeItem_items :
    (store.writeItem assertions item).items = store.items.set item.memoryId item := rfl

@[simp] theorem get_writeItem_assertions :
    (store.writeItem assertions item).assertions.get memoryId =
      if memoryId = item.memoryId then
        documentAfter assertions item (store.assertions.get memoryId)
      else store.assertions.get memoryId := by
  unfold MemoryStore.writeItem documentAfter
  cases matchingAssertion assertions item with
  | some assertion => simp
  | none =>
    dsimp only
    by_cases hdeletes : (item.status ≠ .tombstoned && (item.status ≠ .active || !item.graphReady)) =
        true
    · rw [if_pos hdeletes, if_pos hdeletes, Table.get_erase]
      rfl
    · rw [if_neg hdeletes, if_neg hdeletes]
      simp

/-- Writing a row that fits the document it leaves keeps the store sound. -/
theorem StoreSound.writeItem (h : StoreSound store) (htrimmed : item.Trimmed)
    (hfenced : RowFenced item
      (documentAfter assertions item (store.assertions.get item.memoryId))) :
    StoreSound (store.writeItem assertions item) := by
  refine ⟨⟨?_, ?_⟩, ?_, ?_⟩
  · intro memoryId assertion hassertion
    rw [get_writeItem_assertions] at hassertion
    rw [writeItem_items, Table.get_set]
    split_ifs at hassertion ⊢ with hid
    · exact ⟨item, rfl⟩
    · exact h.owned memoryId assertion hassertion
  all_goals
    intro memoryId row hrow
    rw [writeItem_items, Table.get_set] at hrow
    split_ifs at hrow with hid
  · obtain rfl := Option.some.inj hrow
    rw [get_writeItem_assertions, if_pos hid, hid]
    exact hfenced
  · rw [get_writeItem_assertions, if_neg hid]
    exact h.rows memoryId row hrow
  · obtain rfl := Option.some.inj hrow
    exact hid.symm
  · exact h.keyed memoryId row hrow
  · obtain rfl := Option.some.inj hrow
    exact htrimmed
  · exact h.trimmed memoryId row hrow

/-- The control state is no part of the fence. -/
theorem StoreSound.withControl (h : StoreSound store) (control : MemoryControlState) :
    StoreSound { store with control := control } :=
  ⟨⟨h.owned, h.rows⟩, h.keyed, h.trimmed⟩

theorem StoreSound.writeItems (h : StoreSound store)
    (hitems : ∀ item ∈ items, WritesFenced assertions item) :
    StoreSound (items.foldl (MemoryStore.writeItem assertions) store) := by
  induction items generalizing store with
  | nil => exact h
  | cons item items ih =>
    obtain ⟨hfirst, hrest⟩ := List.forall_mem_cons.mp hitems
    exact ih (h.writeItem hfirst.trimmed (hfirst.fenced _)) hrest

/-- Tombstones are written beside the assertions that are there. -/
theorem StoreSound.writeTombstones (h : StoreSound store)
    (hitems : ∀ item ∈ items, item.status = .tombstoned ∧ item.Trimmed ∧
      ∀ assertion ∈ store.assertions.get item.memoryId,
        assertion.itemRevision + 1 = item.itemRevision) :
    StoreSound (items.foldl (MemoryStore.writeItem []) store) := by
  induction items generalizing store with
  | nil => exact h
  | cons item items ih =>
    obtain ⟨⟨hstatus, htrimmed, hbefore⟩, hrest⟩ := List.forall_mem_cons.mp hitems
    have hkept : (store.writeItem [] item).assertions = store.assertions := by
      simp [MemoryStore.writeItem, matchingAssertion, hstatus]
    have hfenced : RowFenced item
        (documentAfter [] item (store.assertions.get item.memoryId)) := by
      simpa [RowFenced, documentAfter, matchingAssertion, hstatus] using hbefore
    refine ih (h.writeItem htrimmed hfenced) ?_
    rw [hkept]
    exact hrest

/-- Writing a result changes the store by the rows of a commit only. -/
theorem StoreSound.writeApplyResult (h : StoreSound store)
    (hcommit : result.status = .committed →
      StoreSound (result.memoryItems.foldl (MemoryStore.writeItem result.graphAssertions)
        { store with control := result.controlState })) :
    StoreSound (store.writeApplyResult result) := by
  unfold MemoryStore.writeApplyResult
  by_cases hstatus : result.status = .committed
  · rw [if_neg (not_not.mpr hstatus)]
    exact hcommit hstatus
  · rw [if_pos hstatus]
    exact h

/-! ### The rows of a commit -/

/-- A row that is not in the graph, and not a tombstone, can be written without an assertion. -/
theorem writesFenced_outside (htrimmed : item.Trimmed)
    (hnone : matchingAssertion assertions item = none) (hstatus : item.status ≠ .tombstoned)
    (houtside : item.status = .active → item.graphReady = false) :
    WritesFenced assertions item := by
  refine ⟨htrimmed, fun document => ?_⟩
  have hdeletes : documentAfter assertions item document = none := by
    by_cases hactive : item.status = .active
    · simp [documentAfter, hnone, hstatus, houtside hactive]
    · simp [documentAfter, hnone, hstatus, hactive]
  rw [RowFenced, if_neg hstatus, hdeletes]
  constructor
  · constructor
    · intro h
      cases h
    · rintro ⟨hactive, hready⟩
      rw [houtside hactive] at hready
      cases hready
  · intro assertion h
    cases h
  · intro assertion h
    cases h

theorem writesFenced_inside {assertion : MemoryGraphAssertion} (htrimmed : item.Trimmed)
    (hmatch : matchingAssertion assertions item = some assertion) (hactive : item.status = .active)
    (hready : item.graphReady = true) (hrevision : assertion.itemRevision = item.itemRevision)
    (hcontent : item.contentHash = some assertion.contentHash) :
    WritesFenced assertions item := by
  refine ⟨htrimmed, fun document => ?_⟩
  have hwritten : documentAfter assertions item document = some assertion := by
    rw [documentAfter, hmatch, Option.some_or]
  have hstatus : item.status ≠ .tombstoned := by simp [hactive]
  rw [RowFenced, if_neg hstatus, hwritten]
  refine ⟨by simp [hactive, hready], ?_, ?_⟩
  · rintro _ ⟨⟩
    exact hrevision
  · rintro _ ⟨⟩
    exact hcontent

section update
variable {control : MemoryControlState} {operation : MemoryOperation} {payload : PatchPayload}
  {evidence : List MemoryEvidence} {point : CommitPoint} {existing attached : MemoryItem}
  {now : ℤ}

/-- An assertion that is attached to a row with trimmed texts is current. -/
theorem writesFenced_attached {changed : MemoryItem}
    (htrimmed : ∀ contentHash ∈ changed.contentHash, strip contentHash = contentHash)
    (hid : strip changed.memoryId = changed.memoryId) (hactive : changed.status = .active)
    (h : attachGraphAssertion env operation point changed = .ok (attached, assertions)) :
    WritesFenced assertions attached ∧
      ∀ assertion ∈ assertions, assertion.memoryId = changed.memoryId := by
  obtain ⟨plan, assertion, ⟨createdAt, -, hbuild⟩, rfl, rfl⟩ := attachGraphAssertion_ok h
  obtain ⟨hmemory, hrevision, hcontent, hne, -⟩ := buildMemoryGraphAssertion_ok hbuild
  rw [hid] at hmemory
  obtain ⟨contentHash, hsome⟩ : ∃ contentHash, changed.contentHash = some contentHash := by
    cases hhash : changed.contentHash with
    | none => simp [hhash] at hne
    | some contentHash => exact ⟨contentHash, rfl⟩
  have hcurrent : changed.contentHash = some assertion.contentHash := by
    rw [hcontent, hsome, Option.getD_some, htrimmed contentHash hsome]
  have hmatch : matchingAssertion [assertion]
      { changed with
        graphReady := true
        graphAssertionId := some assertion.assertionId
        graphPlanHash := some plan.planHash
        kgExtracted := true } = some assertion := by
    simp [matchingAssertion, hmemory]
  constructor
  · exact writesFenced_inside ⟨htrimmed, fun _ => hid⟩ hmatch hactive rfl hrevision hcurrent
  · intro other hother
    rw [List.mem_singleton.mp hother]
    exact hmemory

/-- The admission of a promotion names a trimmed id, which is not among the rows superseded. -/
theorem validPromotionAdmission_ids {promoted : PromotionSubject} {promotion : PyDict}
    (h : validPromotionAdmission env promoted promotion = true) :
    strip promoted.memoryId = promoted.memoryId ∧ promoted.memoryId ∉ promoted.supersedes := by
  obtain ⟨⟨plan, receipt, arguments⟩, hparsed, hchecks⟩ := (Option.any_eq_true _ _).mp h
  simp only [Option.bind_eq_bind, Option.bind_eq_some_iff] at hparsed
  obtain ⟨_, -, parsed, ⟨raw, -, hreceipt⟩, _, -, hresult⟩ := hparsed
  cases hresult
  simp only [Bool.and_eq_true, decide_eq_true_eq] at hchecks
  obtain ⟨⟨⟨⟨⟨⟨⟨⟨⟨hid, -⟩, -⟩, -⟩, -⟩, -⟩, -⟩, -⟩, hsupersedes⟩, hnot⟩ := hchecks
  constructor
  · simp only [PromotionAdmissionReceipt.parse, Option.bind_eq_bind, Option.bind_eq_some_iff]
      at hreceipt
    obtain ⟨_, -, _, -, memoryId, ⟨rawId, -, htext⟩, hrest⟩ := hreceipt
    have hmemory : receipt.memoryId = memoryId := by
      obtain ⟨_, -, _, -, _, -, _, -, _, -, _, -, _, -, hmade⟩ := hrest
      cases hmade
      rfl
    unfold requiredText at htext
    split_ifs at htext
    rw [← hid, hmemory, ← Option.some.inj htext, strip_strip]
  · intro hmem
    rw [hsupersedes] at hnot
    exact hnot (by simpa [sortedIds] using hmem)

theorem updatedMemoryItem_trimmed (h : existing.Trimmed) :
    (updatedMemoryItem env existing payload evidence point now).Trimmed := by
  constructor
  · intro contentHash hhash
    rw [updatedMemoryItem_contentHash] at hhash
    split_ifs at hhash
    · exact h.contentHash contentHash hhash
    · rw [← Option.some.inj hhash]
      exact contractId_trimmed _ _ _
  · intro hready
    rw [updatedMemoryItem_graphReady, Bool.and_eq_true] at hready
    rw [updatedMemoryItem_memoryId]
    exact h.memoryId hready.1

/-- What every caller keeps of an update and the apply does not check: a promotion leaves its row
active, an enrichment names its row by a trimmed id, and a row of the graph is not superseded by its
own update, and leaves the long-term layer, if it stays active, with its assertion cleared. -/
structure UpdateKeepsGraph (operation : MemoryOperation) (patch : DurableMemoryPatch)
    (existing : MemoryItem) : Prop where
  promoted : transitionsToLongTerm existing patch = true → updatedStatus existing patch = .active
  enriched : operation.operationType = .graphEnrichment →
    strip existing.memoryId = existing.memoryId
  apart : existing.graphReady = true → existing.memoryId ∉ patch.supersedes
  cleared : existing.graphReady = true → updatedStatus existing patch = .active →
    updatedTier existing patch ≠ .longTerm → patch.clearGraphAssertion = true

theorem enrichmentAllowed_patch
    (h : graphEnrichmentAllowed env control operation payload existing evidence = true) :
    payload.patch.resultStatus = .active ∧ payload.patch.supersedes = [] := by
  simp only [graphEnrichmentAllowed, Bool.and_eq_true] at h
  obtain ⟨plan, -, hplan⟩ := (Option.any_eq_true _ _).mp h.2
  simp only [Bool.and_eq_true, decide_eq_true_eq, List.isEmpty_iff] at hplan
  tauto

/-- An update that writes an assertion leaves its row active under a trimmed id, and does not
supersede it. -/
theorem update_asserted {flag : Bool} {changed : MemoryItem × Bool} (htrimmed : existing.Trimmed)
    (hcheck : checkUpdate env control operation payload evidence flag = .ok existing)
    (hcopy : changed.1 = updatedMemoryItem env existing payload evidence point now)
    (hrefresh : changed.2 = (transitionsToLongTerm existing payload.patch ||
      operation.operationType = .graphEnrichment ||
      refreshesGraphAssertion payload.patch changed.1))
    (hkept : UpdateKeepsGraph operation payload.patch existing) (hdue : changed.2 = true) :
    updatedStatus existing payload.patch = .active ∧
      strip existing.memoryId = existing.memoryId ∧
      existing.memoryId ∉ payload.patch.supersedes := by
  obtain ⟨-, -, -, henrich, -, hpromote⟩ := checkUpdate_ok hcheck
  rw [hrefresh] at hdue
  simp only [Bool.or_eq_true, decide_eq_true_eq] at hdue
  obtain (hpromoted | henriched) | hrefreshed := hdue
  · have hpromotion := hpromote hpromoted
    simp only [checkPromotion, bind_eq_ok_iff, check_eq_ok_iff, Bool.and_eq_true] at hpromotion
    obtain ⟨_, -, hadmission, -⟩ := hpromotion
    obtain ⟨hid, hnot⟩ := validPromotionAdmission_ids hadmission
    exact ⟨hkept.promoted hpromoted, hid, hnot⟩
  · obtain ⟨hstatus, hnone⟩ := enrichmentAllowed_patch (henrich henriched)
    refine ⟨by simp [updatedStatus, hstatus], hkept.enriched henriched, ?_⟩
    simp [hnone]
  · simp only [refreshesGraphAssertion, hcopy, updatedMemoryItem_tier, updatedMemoryItem_status,
      updatedMemoryItem_graphReady, Bool.and_eq_true, decide_eq_true_eq] at hrefreshed
    obtain ⟨⟨⟨-, hactive⟩, hready, -⟩, -⟩ := hrefreshed
    exact ⟨hactive, htrimmed.memoryId hready, hkept.apart hready⟩

/-- The changed row of a commit can be written, and no superseded row takes its assertion. -/
theorem changed_writesFenced {flag : Bool} {changed : MemoryItem × Bool}
    (hchanged : changedItem env control operation payload evidence point now flag = .ok changed)
    (hattached : (changed.2 = true ∧
        attachGraphAssertion env operation point changed.1 = .ok (attached, assertions)) ∨
      (changed.2 = false ∧ attached = changed.1 ∧ assertions = []))
    (hrow : ∀ existing ∈ payload.existingItem, existing.status ≠ .tombstoned ∧ existing.Trimmed ∧
      UpdateKeepsGraph operation payload.patch existing) :
    WritesFenced assertions attached ∧
      ∀ assertion ∈ assertions, assertion.memoryId ∉ payload.patch.supersedes := by
  obtain ⟨-, existing, hcheck, -, hcopy, hrefresh⟩ | ⟨-, hmade, hrefresh⟩ := changedItem_ok hchanged
  · obtain ⟨hlive, htrimmed, hkept⟩ := hrow existing (checkUpdate_ok hcheck).1
    have hcopied : changed.1.Trimmed := by
      rw [hcopy]
      exact updatedMemoryItem_trimmed htrimmed
    obtain ⟨hdue, hattached⟩ | ⟨hplain, rfl, rfl⟩ := hattached
    · obtain ⟨hactive, hid, hnot⟩ := update_asserted htrimmed hcheck hcopy hrefresh hkept hdue
      have hsame : changed.1.memoryId = existing.memoryId := by
        rw [hcopy, updatedMemoryItem_memoryId]
      have hstatus : changed.1.status = .active := by
        rw [hcopy, updatedMemoryItem_status, hactive]
      rw [← hsame] at hid hnot
      obtain ⟨hwrites, hids⟩ := writesFenced_attached hcopied.contentHash hid hstatus hattached
      refine ⟨hwrites, fun assertion hassertion => ?_⟩
      rw [hids assertion hassertion]
      exact hnot
    · refine ⟨writesFenced_outside hcopied rfl ?_ ?_, by simp⟩
      · rw [hcopy, updatedMemoryItem_status, updatedStatus]
        cases payload.patch.resultStatus <;> simp [hlive]
      · -- a row of the graph that stays active without a new assertion has left the layer
        intro hactive
        rw [hcopy, updatedMemoryItem_status] at hactive
        rw [hcopy, updatedMemoryItem_graphReady]
        by_contra hready
        simp only [Bool.not_eq_false, Bool.and_eq_true, Bool.not_eq_true'] at hready
        obtain ⟨hready, hclear⟩ := hready
        by_cases htier : updatedTier existing payload.patch = .longTerm
        · rw [hplain] at hrefresh
          simp [refreshesGraphAssertion, hcopy, updatedMemoryItem_graphReady, htier, hactive,
            hready, hclear] at hrefresh
        · rw [hkept.cleared hready hactive htier] at hclear
          cases hclear
  · obtain ⟨-, hactive, hready, -, -⟩ := materializeMemoryItem_ok hmade
    obtain ⟨-, -, -, -, -, hhash⟩ := materializeMemoryItem_fresh hmade
    have hnew : changed.1.Trimmed := by
      constructor
      · intro contentHash hmem
        rw [hhash] at hmem
        rw [← Option.some.inj hmem]
        exact contractId_trimmed _ _ _
      · intro h
        rw [hready] at h
        cases h
    obtain ⟨hdue, -⟩ | ⟨-, rfl, rfl⟩ := hattached
    · rw [hrefresh] at hdue
      simp [refreshesGraphAssertion, hready] at hdue
    · exact ⟨writesFenced_outside hnew rfl (by simp [hactive]) fun _ => hready, by simp⟩

/-- All rows of a commit can be written. -/
theorem commit_writesFenced {clock : ApplyClock} {flag : Bool}
    (hrun : runApply env control operation payload clock flag = .ok result)
    (hrow : ∀ existing ∈ payload.existingItem, existing.status ≠ .tombstoned ∧ existing.Trimmed ∧
      UpdateKeepsGraph operation payload.patch existing)
    (hsuperseded : ∀ existing ∈ payload.supersededItems.getD [], existing.Trimmed) :
    ∀ item ∈ result.memoryItems, WritesFenced result.graphAssertions item := by
  obtain ⟨evidence, -, -, -, ⟨-, hcommit⟩ | ⟨-, items, assertions, hitems, hcommit⟩⟩ :=
    runApply_ok hrun
  · rw [(commitResult_ok hcommit).2.2.1]
    simp
  obtain ⟨changed, attached, superseded, hchanged, hattached, hrows, rfl⟩ :=
    appliedItems_ok hitems
  obtain ⟨-, -, hresult, hassertions, -⟩ := commitResult_ok hcommit
  obtain ⟨hfirst, hapart⟩ := changed_writesFenced hchanged hattached hrow
  rw [hresult, hassertions, List.forall_mem_cons]
  refine ⟨hfirst, fun row hmem => ?_⟩
  obtain ⟨supersededId, hid, existing, hexisting, -, rfl, -, rfl⟩ :=
    exists_left_of_forall₂ (supersedeItems_ok hrows) hmem
  have htrimmed := hsuperseded existing hexisting
  refine writesFenced_outside ⟨htrimmed.contentHash, by simp [supersededMemoryItem]⟩ ?_
    (by simp [supersededMemoryItem]) (by simp [supersededMemoryItem])
  rw [matchingAssertion, List.find?_eq_none]
  intro assertion hassertion hsame
  have hother := hapart assertion hassertion
  rw [of_decide_eq_true hsame] at hother
  exact hother hid

end update

end

end Omi.Memory
