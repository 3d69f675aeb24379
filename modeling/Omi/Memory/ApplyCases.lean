import Omi.Memory.Apply

/-! What each part of an apply says when it answers: one lemma for each function of the apply,
which later proofs use in place of its definition. -/
namespace Omi.Memory
open Omi.Foundation

theorem liftModel_eq_ok_iff {α : Type} {x : Except String α} {a : α} :
    liftModel x = .ok a ↔ x = .ok a := by
  cases x <;> simp [liftModel]

theorem MemoryItem.construct_eq_ok_iff {env : MemoryEnv} {item row : MemoryItem} :
    item.construct env = .ok row ↔ item.valid env = true ∧ row = item.normalized env := by
  unfold construct
  split_ifs with hvalid
  · constructor
    · intro h
      exact ⟨hvalid, (Except.ok.inj h).symm⟩
    · rintro ⟨-, rfl⟩
      rfl
  · simp [hvalid]

theorem assertLegalState_eq_ok_iff {tier : MemoryLayer} {status : MemoryItemStatus}
    {processingState : ProcessingState} {u : Unit} :
    assertLegalState tier status processingState = .ok u ↔
      isLegalStateCombination tier status processingState = true :=
  check_eq_ok_iff

section
variable {env : MemoryEnv} {control : MemoryControlState} {operation : MemoryOperation}
  {payload : PatchPayload} {clock : ApplyClock} {flag : Bool} {evidence : List MemoryEvidence}
  {point : CommitPoint} {now : ℤ} {result : ApplyResult} {item existing : MemoryItem}
  {items rows : List MemoryItem} {assertions : List MemoryGraphAssertion}
  {changes : List (Option MemoryItem)}

/-- A result is a commit the body reached, or one of its refusals over the same control state. -/
theorem apply_cases
    (h : applyLongTermPatchTransaction env control operation payload clock flag = .ok result) :
    runApply env control operation payload clock flag = .ok result ∨
      ∃ refusal : Refusal,
        runApply env control operation payload clock flag = .error (.refused refusal) ∧
        result =
          { status := refusal.status
            controlState := control
            operation := refusal.operation
            reason := refusal.reason } := by
  unfold applyLongTermPatchTransaction at h
  split at h
  next committed hrun =>
    cases h
    exact .inl hrun
  next => cases h
  next refusal hrun =>
    cases h
    exact .inr ⟨refusal, hrun, rfl⟩

/-- A committed result was reached by the body. -/
theorem runApply_of_committed
    (h : applyLongTermPatchTransaction env control operation payload clock flag = .ok result)
    (hstatus : result.status = .committed) :
    runApply env control operation payload clock flag = .ok result := by
  obtain hrun | ⟨refusal, -, hresult⟩ := apply_cases h
  · exact hrun
  · rw [hresult] at hstatus
    exact absurd hstatus refusal.not_committed

theorem apply_of_run (h : runApply env control operation payload clock flag = .ok result) :
    applyLongTermPatchTransaction env control operation payload clock flag = .ok result := by
  unfold applyLongTermPatchTransaction
  rw [h]

theorem apply_of_refused {refusal : Refusal}
    (h : runApply env control operation payload clock flag = .error (.refused refusal)) :
    applyLongTermPatchTransaction env control operation payload clock flag = .ok
      { status := refusal.status
        controlState := control
        operation := refusal.operation
        reason := refusal.reason } := by
  unfold applyLongTermPatchTransaction
  rw [h]

/-- A commit passed every gate, and is the barrier of a duplicate or a change of rows. -/
theorem runApply_ok (h : runApply env control operation payload clock flag = .ok result) :
    ∃ evidence, proposedEvidence payload = .ok evidence ∧
      checkPatch env operation payload = .ok () ∧
      checkOperation env control operation payload evidence clock = .ok () ∧
      ((payload.patch.decision = .skipDuplicate ∧
          commitResult env control operation clock [] [] [none] = .ok result) ∨
        (payload.patch.decision ≠ .skipDuplicate ∧ ∃ items assertions,
          appliedItems env control operation payload evidence clock flag =
            .ok (items, assertions) ∧
          commitResult env control operation clock items assertions (items.map some) =
            .ok result)) := by
  simp only [runApply, bind_eq_ok_iff] at h
  obtain ⟨evidence, hevidence, _, hpatch, _, hoperation, hcommit⟩ := h
  refine ⟨evidence, hevidence, hpatch, hoperation, ?_⟩
  split_ifs at hcommit with hskip
  · exact .inl ⟨hskip, hcommit⟩
  · obtain ⟨⟨items, assertions⟩, hitems, hcommit⟩ := bind_eq_ok_iff.mp hcommit
    exact .inr ⟨hskip, items, assertions, hitems, hcommit⟩

theorem commitResult_ok
    (h : commitResult env control operation clock items assertions changes = .ok result) :
    result.status = .committed ∧
    result.controlState =
      control.advanceHead (commitPoint env control operation).commitId clock.head ∧
    result.memoryItems = items ∧ result.graphAssertions = assertions ∧
    result.outboxEvents =
      outboxEvents env control operation (commitPoint env control operation) clock changes ∧
    ∃ itemIds eventIds, operation.markCommitted env.toContractHash
      (commitPoint env control operation).commitId (commitPoint env control operation).sequence
      itemIds eventIds clock.operation = .ok result.operation := by
  simp only [commitResult, bind_eq_ok_iff, liftModel_eq_ok_iff] at h
  obtain ⟨_, -, _, -, marked, hmarked, hresult⟩ := h
  cases hresult
  exact ⟨rfl, rfl, rfl, rfl, rfl, _, _, hmarked⟩

theorem runApply_committed (h : runApply env control operation payload clock flag = .ok result) :
    result.status = .committed := by
  obtain ⟨evidence, -, -, -, ⟨-, hcommit⟩ | ⟨-, items, assertions, -, hcommit⟩⟩ := runApply_ok h
  · exact (commitResult_ok hcommit).1
  · exact (commitResult_ok hcommit).1

section changes
variable (h : runApply env control operation payload clock flag = .ok result)
  (hevidence : proposedEvidence payload = .ok evidence)
  (hskip : payload.patch.decision ≠ .skipDuplicate)
  (hitems : appliedItems env control operation payload evidence clock flag =
    .ok (items, assertions))
include h hevidence hskip hitems

/-- A commit that is no duplicate is that of its rows. -/
theorem runApply_commit :
    commitResult env control operation clock items assertions (items.map some) = .ok result := by
  obtain ⟨evidence', hevidence', -, -, ⟨hskip', -⟩ | ⟨-, items', assertions', hitems', hcommit⟩⟩ :=
    runApply_ok h
  · exact absurd hskip' hskip
  obtain rfl : evidence = evidence' := Except.ok.inj (hevidence.symm.trans hevidence')
  rw [hitems] at hitems'
  cases hitems'
  exact hcommit

/-- A commit has the rows and the assertions that were applied. -/
theorem runApply_items :
    result.memoryItems = items ∧ result.graphAssertions = assertions ∧
      result.controlState =
        control.advanceHead (commitPoint env control operation).commitId clock.head := by
  obtain ⟨-, hcontrol, hrows, hassertions, -⟩ :=
    commitResult_ok (runApply_commit h hevidence hskip hitems)
  exact ⟨hrows, hassertions, hcontrol⟩

/-- Each of its rows is announced by two events. -/
theorem runApply_events : result.outboxEvents.length = items.length * 2 := by
  obtain ⟨-, -, -, -, hevents, -⟩ := commitResult_ok (runApply_commit h hevidence hskip hitems)
  rw [hevents, outboxEvents, List.length_flatMap]
  simp [Function.comp_def]

end changes

/-- The rows of a commit: the changed one, with its assertion where one is due, and after it
the rows it supersedes. -/
theorem appliedItems_ok
    (h : appliedItems env control operation payload evidence clock flag =
      .ok (items, assertions)) :
    ∃ changed attached superseded,
      changedItem env control operation payload evidence (commitPoint env control operation)
        clock.item flag = .ok changed ∧
      ((changed.2 = true ∧
          attachGraphAssertion env operation (commitPoint env control operation) changed.1 =
            .ok (attached, assertions)) ∨
        (changed.2 = false ∧ attached = changed.1 ∧ assertions = [])) ∧
      supersedeItems operation payload attached (commitPoint env control operation) clock =
        .ok superseded ∧
      items = attached :: superseded := by
  simp only [appliedItems, bind_eq_ok_iff] at h
  obtain ⟨changed, hchanged, ⟨attached, assertions'⟩, hattached, superseded, hsuperseded,
    hresult⟩ := h
  cases hresult
  refine ⟨changed, attached, superseded, hchanged, ?_, hsuperseded, rfl⟩
  unfold refreshGraphAssertion at hattached
  split_ifs at hattached with hrefresh
  · exact .inl ⟨hrefresh, hattached⟩
  · cases hattached
    exact .inr ⟨by simpa using hrefresh, rfl, rfl⟩

/-- An update copies the row it names, in a legal state; every other decision builds a row. -/
theorem changedItem_ok {changed : MemoryItem × Bool}
    (h : changedItem env control operation payload evidence point now flag = .ok changed) :
    (payload.patch.decision = .update ∧ ∃ existing,
        checkUpdate env control operation payload evidence flag = .ok existing ∧
        isLegalStateCombination (updatedTier existing payload.patch)
          (updatedStatus existing payload.patch)
          (updatedProcessingState existing payload) = true ∧
        changed.1 = updatedMemoryItem env existing payload evidence point now ∧
        changed.2 = (transitionsToLongTerm existing payload.patch ||
          operation.operationType = .graphEnrichment ||
          refreshesGraphAssertion payload.patch changed.1)) ∨
      (payload.patch.decision ≠ .update ∧
        materializeMemoryItem env control operation payload evidence point now =
          .ok changed.1 ∧
        changed.2 = refreshesGraphAssertion payload.patch changed.1) := by
  unfold changedItem at h
  split_ifs at h with hupdate
  · simp only [applyUpdateMemoryItem, bind_eq_ok_iff, assertLegalState_eq_ok_iff] at h
    obtain ⟨existing, hexisting, _, ⟨_, -, _, hlegal, hitem⟩, hchanged⟩ := h
    cases hitem
    cases hchanged
    exact .inl ⟨hupdate, existing, hexisting, hlegal, rfl, rfl⟩
  · obtain ⟨item, hitem, hchanged⟩ := bind_eq_ok_iff.mp h
    cases hchanged
    exact .inr ⟨hupdate, hitem, rfl⟩

/-- An update runs on the row its payload brings, which is the row the patch targets. -/
theorem checkUpdate_ok
    (h : checkUpdate env control operation payload evidence flag = .ok existing) :
    payload.existingItem = some existing ∧
    payload.patch.targetMemoryId = some existing.memoryId ∧ existing.memoryId ≠ "" ∧
    (operation.operationType = .graphEnrichment →
      graphEnrichmentAllowed env control operation payload existing evidence = true) ∧
    (existing.tier ≠ .longTerm ∨ existing.status ≠ .active ∨
      semanticChange existing payload.patch evidence = false ∨
      (payload.patch.targetTier = some .shortTerm ∧
        payload.patch.clearGraphAssertion = true) ∨
      operation.operationType = .graphEnrichment ∨ flag = true) ∧
    (transitionsToLongTerm existing payload.patch = true →
      checkPromotion env operation payload existing evidence = .ok ()) := by
  unfold checkUpdate at h
  cases hrow : payload.existingItem with
  | none =>
    rw [hrow] at h
    cases h
  | some row =>
    simp only [hrow, bind_eq_ok_iff, check_eq_ok_iff] at h
    obtain ⟨_, htarget, _, -, _, -, _, henrich, _, hsemantic, _, hpromote, hresult⟩ := h
    cases hresult
    simp only [Bool.and_eq_true, decide_eq_true_eq] at htarget
    obtain ⟨hpresent, htarget⟩ := htarget
    refine ⟨rfl, htarget, ?_, ?_, ?_, ?_⟩
    · simpa [htarget, present] using hpresent
    · intro hgraph
      simpa [hgraph] using henrich
    · simpa [or_assoc] using hsemantic
    · intro htransition
      simpa [checkTransition, htransition] using hpromote

/-- Attaching an assertion parses the plan the row keeps, and marks the row as graph-backed. -/
theorem attachGraphAssertion_ok {attached : MemoryItem}
    (h : attachGraphAssertion env operation point item = .ok (attached, assertions)) :
    ∃ plan assertion,
      (∃ createdAt ∈ item.assertedAt env,
        buildMemoryGraphAssertion env operation.uid item.memoryId item.itemRevision
          (item.contentHash.getD "") (evidenceIdsOf item.evidence) plan point.commitId
          point.sequence createdAt = some assertion) ∧
      assertions = [assertion] ∧
      attached =
        { item with
          graphReady := true
          graphAssertionId := some assertion.assertionId
          graphPlanHash := some plan.planHash
          kgExtracted := true
          misfits := { item.misfits with kgExtracted := none } } := by
  unfold attachGraphAssertion at h
  split at h
  · cases h
  split at h
  · cases h
  split at h
  · cases h
  next hbuilt =>
    cases h
    exact ⟨_, _, Option.bind_eq_some_iff.mp hbuilt, rfl, rfl⟩

/-- The row of a commit is the changed one, up to its graph fields. -/
theorem attached_eq {changed : MemoryItem × Bool} {attached : MemoryItem}
    (h : (changed.2 = true ∧
        attachGraphAssertion env operation point changed.1 = .ok (attached, assertions)) ∨
      (changed.2 = false ∧ attached = changed.1 ∧ assertions = [])) :
    ∃ graphReady graphAssertionId graphPlanHash kgExtracted misfits,
      attached =
        { changed.1 with
          graphReady := graphReady
          graphAssertionId := graphAssertionId
          graphPlanHash := graphPlanHash
          kgExtracted := kgExtracted
          misfits := misfits } := by
  obtain ⟨-, hattached⟩ | ⟨-, rfl, -⟩ := h
  · obtain ⟨plan, assertion, -, -, hmarked⟩ := attachGraphAssertion_ok hattached
    exact ⟨_, _, _, _, _, hmarked⟩
  · exact ⟨_, _, _, _, _, rfl⟩

/-- A superseded row is the active row of its id among those the payload brings. -/
theorem supersedeItem_ok {supersededId : String} {row : MemoryItem}
    (h : supersedeItem operation payload item rows point clock supersededId = .ok row) :
    ∃ existing ∈ rows, rows.reverse.find? (·.memoryId = supersededId) = some existing ∧
      existing.memoryId = supersededId ∧ existing.status = .active ∧
      row = supersededMemoryItem payload item existing point (clock.superseded supersededId) := by
  unfold supersedeItem at h
  split at h
  · cases h
  next existing hfind =>
    simp only [bind_eq_ok_iff, check_eq_ok_iff] at h
    obtain ⟨_, hactive, _, -, _, -, _, -, hrow⟩ := h
    cases hrow
    have hmem := List.mem_of_find?_eq_some hfind
    have hid := List.find?_some hfind
    exact ⟨existing, List.mem_reverse.mp hmem, hfind, of_decide_eq_true hid,
      of_decide_eq_true hactive, rfl⟩

/-- Superseding answers row by row, in the order of the patch. -/
theorem supersedeItems_ok {superseded : List MemoryItem}
    (h : supersedeItems operation payload item point clock = .ok superseded) :
    List.Forall₂ (fun supersededId row => ∃ existing ∈ payload.supersededItems.getD [],
        (payload.supersededItems.getD []).reverse.find? (·.memoryId = supersededId) =
          some existing ∧ existing.memoryId = supersededId ∧ existing.status = .active ∧
        row = supersededMemoryItem payload item existing point (clock.superseded supersededId))
      payload.patch.supersedes superseded := by
  unfold supersedeItems at h
  split_ifs at h with hnone
  · cases h
    rw [List.isEmpty_iff.mp hnone]
    exact .nil
  cases hrows : payload.supersededItems with
  | none =>
    rw [hrows] at h
    cases h
  | some rows =>
    simp only [hrows, bind_eq_ok_iff, mapM_eq_ok_iff] at h
    obtain ⟨_, -, hall⟩ := h
    exact hall.imp fun _ _ hrow => supersedeItem_ok hrow

theorem supersedeItems_ids {superseded : List MemoryItem}
    (h : supersedeItems operation payload item point clock = .ok superseded) :
    superseded.map (·.memoryId) = payload.patch.supersedes := by
  have hids : List.Forall₂ (fun supersededId (row : MemoryItem) => supersededId = row.memoryId)
      payload.patch.supersedes superseded := by
    refine (supersedeItems_ok h).imp ?_
    rintro supersededId row ⟨existing, -, -, rfl, -, rfl⟩
    rfl
  have hmap : List.Forall₂ (· = ·) payload.patch.supersedes (superseded.map (·.memoryId)) :=
    List.forall₂_map_right_iff.mpr hids
  rw [List.forall₂_eq_eq_eq] at hmap
  exact hmap.symm

section Updated
variable (env existing payload evidence point now)

@[simp] theorem updatedMemoryItem_memoryId :
    (updatedMemoryItem env existing payload evidence point now).memoryId =
      existing.memoryId := by
  unfold updatedMemoryItem
  split_ifs <;> rfl

@[simp] theorem updatedMemoryItem_tier :
    (updatedMemoryItem env existing payload evidence point now).tier =
      updatedTier existing payload.patch := by
  unfold updatedMemoryItem
  split_ifs <;> rfl

@[simp] theorem updatedMemoryItem_status :
    (updatedMemoryItem env existing payload evidence point now).status =
      updatedStatus existing payload.patch := by
  unfold updatedMemoryItem
  split_ifs <;> rfl

@[simp] theorem updatedMemoryItem_content :
    (updatedMemoryItem env existing payload evidence point now).content =
      resolvedUpdateContent existing payload.patch := by
  unfold updatedMemoryItem
  split_ifs <;> rfl

@[simp] theorem updatedMemoryItem_evidence :
    (updatedMemoryItem env existing payload evidence point now).evidence =
      evidenceOr evidence existing := by
  unfold updatedMemoryItem
  split_ifs <;> rfl

@[simp] theorem updatedMemoryItem_contentHash :
    (updatedMemoryItem env existing payload evidence point now).contentHash =
      if saysNothing payload.patch.memoryText then existing.contentHash
      else some (memoryContentHash env payload.patch.memoryText
        (evidenceIdsOf (evidenceOr evidence existing))) := by
  unfold updatedMemoryItem
  by_cases hclear : payload.patch.clearGraphAssertion = true
  · rw [if_pos hclear]
    rfl
  · rw [if_neg hclear]
    rfl

@[simp] theorem updatedMemoryItem_supersededBy :
    (updatedMemoryItem env existing payload evidence point now).supersededBy =
      payload.extras.successor existing.supersededBy := by
  unfold updatedMemoryItem
  split_ifs <;> rfl

@[simp] theorem updatedMemoryItem_graphReady :
    (updatedMemoryItem env existing payload evidence point now).graphReady =
      (existing.graphReady && !payload.patch.clearGraphAssertion) := by
  unfold updatedMemoryItem
  split_ifs with hclear
  · simp [MemoryItem.withoutGraph, hclear]
  · simp [hclear]
    rfl

/-- The copy is one version and one revision on. -/
theorem updatedMemoryItem_revision :
    (updatedMemoryItem env existing payload evidence point now).version = existing.version + 1 ∧
      (updatedMemoryItem env existing payload evidence point now).itemRevision =
        existing.itemRevision + 1 := by
  unfold updatedMemoryItem
  split_ifs <;> exact ⟨rfl, rfl⟩

@[simp] theorem updatedMemoryItem_subjectEntityId :
    (updatedMemoryItem env existing payload evidence point now).subjectEntityId =
      if payload.patch.clearGraphAssertion then none
      else payload.patch.subjectEntityId.orElse fun _ => existing.subjectEntityId := by
  unfold updatedMemoryItem
  split_ifs <;> rfl

@[simp] theorem updatedMemoryItem_predicate :
    (updatedMemoryItem env existing payload evidence point now).predicate =
      if payload.patch.clearGraphAssertion then none
      else payload.patch.predicate.orElse fun _ => existing.predicate := by
  unfold updatedMemoryItem
  split_ifs <;> rfl

@[simp] theorem updatedMemoryItem_arguments :
    (updatedMemoryItem env existing payload evidence point now).arguments =
      if payload.patch.clearGraphAssertion then []
      else orFields payload.patch.arguments existing.arguments := by
  unfold updatedMemoryItem
  split_ifs <;> rfl

end Updated

/-- A new row has the id and layer of its patch, is active and plain, and passed its
validators. -/
theorem materializeMemoryItem_ok
    (h : materializeMemoryItem env control operation payload evidence point now = .ok item) :
    item.memoryId = materializedMemoryId env operation.uid payload.patch point.commitId ∧
    item.status = .active ∧ item.graphReady = false ∧ item.valid env = true ∧
    item.legal = true := by
  simp only [materializeMemoryItem, bind_eq_ok_iff, liftModel_eq_ok_iff,
    assertLegalState_eq_ok_iff, MemoryItem.construct_eq_ok_iff] at h
  obtain ⟨_, hlegal, row, ⟨hvalid, rfl⟩, hitem⟩ := h
  split_ifs at hitem with hextras
  · cases hitem
    exact ⟨rfl, rfl, rfl, MemoryItem.valid_normalized hvalid, hlegal⟩
  · rw [liftModel_eq_ok_iff, MemoryItem.construct_eq_ok_iff] at hitem
    obtain ⟨hvalid, rfl⟩ := hitem
    exact ⟨rfl, rfl, rfl, MemoryItem.valid_normalized hvalid, hlegal⟩

/-- A successor that is no text is not read as one later. -/
theorem RawExtras.successor_unread (raw : RawExtras) (reading : FieldReading) :
    ((raw.without (raw.read .own)).read reading).supersededBy = none := by
  change (unread raw.supersededBy (raw.supersededBy.bind _)).bind _ = none
  cases raw.supersededBy with
  | none => rfl
  | some value =>
    rw [Option.bind_some, unread]
    split_ifs with hread
    · rfl
    · simpa using hread

/-- A new row is the first version of what its patch says, under the hash of the patch. -/
theorem materializeMemoryItem_fresh
    (h : materializeMemoryItem env control operation payload evidence point now = .ok item) :
    item.version = 1 ∧ item.itemRevision = 1 ∧
      item.supersededBy = payload.extras.successor none ∧
      item.content = payload.patch.memoryText ∧ item.evidence = evidence ∧
      item.contentHash =
        some (memoryContentHash env payload.patch.memoryText payload.patch.evidenceIds) := by
  simp only [materializeMemoryItem, bind_eq_ok_iff, liftModel_eq_ok_iff,
    MemoryItem.construct_eq_ok_iff] at h
  obtain ⟨_, -, row, ⟨-, rfl⟩, hitem⟩ := h
  split_ifs at hitem with hextras
  · cases hitem
    have hnone : payload.extras.supersededBy = none :=
      congrArg (·.supersededBy) hextras
    have hsuccessor : payload.extras.successor none = none := by
      rw [RawExtras.successor, hnone]
    exact ⟨rfl, rfl, hsuccessor.symm, rfl, rfl, rfl⟩
  · rw [liftModel_eq_ok_iff, MemoryItem.construct_eq_ok_iff] at hitem
    obtain ⟨-, rfl⟩ := hitem
    refine ⟨rfl, rfl, ?_, rfl, rfl, rfl⟩
    have hunread := (payload.extras.coerced env).successor_unread env.reading
    change (RawExtras.read env.reading _).supersededBy.getD _ = _
    rw [MemoryItem.copyWith_misfits, hunread]
    rfl

/-- A valid patch passes the gate of the operation that was made for it. -/
theorem checkPatch_new {fields : MemoryOperation} {created : ℤ}
    (hvalid : payload.patch.valid env = true)
    (hids : payload.patch.evidenceIds = fields.evidenceIds)
    (hledger : payload.patch.isLedger = false)
    (hlogical : patchLogicalPayload env fields payload = fields.logicalPayload) :
    checkPatch env (.new env.toContractHash fields created) payload = .ok () := by
  have hsame : patchLogicalPayload env (.new env.toContractHash fields created) payload =
      fields.logicalPayload := hlogical
  simp only [checkPatch, bind_eq_ok_iff, check_eq_ok_iff]
  refine ⟨(), hvalid, (), decide_eq_true hids, (), ?_, ?_⟩
  · simp [hledger]
  · rw [hsame]
    exact decide_eq_true rfl

/-- A new operation that passes the gates and changes some rows is committed. -/
theorem runApply_new {fields : MemoryOperation} {created : ℤ} (huid : isBlank fields.uid = false)
    (haccount : 0 ≤ fields.accountGeneration) (hsource : 0 ≤ fields.sourceGeneration)
    (hsequence : 0 ≤ control.commitSequence) (hnow : created ≤ clock.operation)
    (hevidence : proposedEvidence payload = .ok evidence)
    (hpatch : checkPatch env (.new env.toContractHash fields created) payload = .ok ())
    (hoperation : checkOperation env control (.new env.toContractHash fields created) payload
      evidence clock = .ok ())
    (hskip : payload.patch.decision ≠ .skipDuplicate)
    (hitems : appliedItems env control (.new env.toContractHash fields created) payload evidence
      clock flag = .ok (items, assertions))
    (hlabels : items.all (·.labelSet.isSome) = true) :
    ∃ result, runApply env control (.new env.toContractHash fields created) payload clock flag =
      .ok result ∧ result.memoryItems = items := by
  have hcommit : isBlank (commitPoint env control
      (.new env.toContractHash fields created)).commitId = false := by
    simp [commitPoint, MemoryControlState.nextCommitId, isBlank, isPySpace]
  have hid := MemoryOperation.operationId_new env.toContractHash fields created
  have hsequence' : 0 ≤ (commitPoint env control
      (.new env.toContractHash fields created)).sequence := by
    simp only [commitPoint]
    omega
  obtain ⟨marked, hmarked⟩ := MemoryOperation.markCommitted_new env.toContractHash
    (items.map (·.memoryId))
    ((outboxEvents env control (.new env.toContractHash fields created)
      (commitPoint env control (.new env.toContractHash fields created)) clock
      (items.map some)).map (·.eventId))
    huid haccount hsource hcommit hsequence' hnow
  obtain ⟨result, hresult⟩ : ∃ result, commitResult env control
      (.new env.toContractHash fields created) clock items assertions (items.map some) =
        .ok result := by
    simp only [commitResult, bind_eq_ok_iff, check_eq_ok_iff, liftModel_eq_ok_iff]
    refine ⟨_, (), hlabels, (), ?_, marked, hmarked, rfl⟩
    rw [hid]
    simp [huid, MemoryOperation.new]
  refine ⟨result, ?_, (commitResult_ok hresult).2.2.1⟩
  simp only [runApply, bind_eq_ok_iff]
  refine ⟨evidence, hevidence, (), hpatch, (), hoperation, ?_⟩
  rw [if_neg hskip]
  exact bind_eq_ok_iff.mpr ⟨_, hitems, hresult⟩

end

/-! ### One stored memory -/

def teaControl : MemoryControlState where
  uid := "u"
  headCommitId := "c0"
  accountGeneration := 0
  sourceGeneration := 0
  updatedAt := 0

/-- Evidence of a stored memory, and its row in some layer. -/
def teaEvidence : MemoryEvidence :=
  { evidenceId := "e", sourceType := "unknown", sourceId := some "source_for_e",
    sourceVersion := some "unknown", artifactPreservation := .preserved }

def teaRow (memoryId : String) (tier : MemoryLayer) (expiresAt : Option ℤ) : MemoryItem :=
  { memoryId := memoryId, uid := "u", version := 1, tier := tier, status := .active,
    processingState := .processed, content := some "tea", evidence := [teaEvidence],
    sourceState := .active, sensitivityLabels := [], visibility := "private",
    userAsserted := false, capturedAt := 0, updatedAt := 0, expiresAt := expiresAt }

end Omi.Memory
