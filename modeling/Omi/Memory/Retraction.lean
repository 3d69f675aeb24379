import Omi.Memory.RowRuns

/-! What is left of a conversation: the rows after a replacement, which are complete although the
planner reads them one by one before the transaction, and the rows after a privacy deletion. -/
namespace Omi.Memory
open Omi.Foundation

section
variable {env : MemoryEnv} {plan : ReplacementPlan} {control start : MemoryControlState}
  {store next : MemoryStore} {log : List LoggedCommit} {call : ReplacementCall}
  {commits : ReplacementCommits} {replacement : ApplyResult}
  {back : List (MemoryItem × MemoryGraphAssertion)} {added results : List ApplyResult}
  {memoryId : String} {row item : MemoryItem} {writes : List CanonicalApplyWrite}

/-! ### The rows after a replacement -/

/-- A row is what a write says. -/
structure RowOfWrite (write : CanonicalApplyWrite) (row : MemoryItem) : Prop where
  memoryId : row.memoryId = write.memoryId
  active : row.status = .active
  content : row.content = write.payload.patch.memoryText
  evidence : row.evidence = write.payload.evidence.map (·.record)

theorem AddedRow.rowOfWrite {result : ApplyResult} {write : CanonicalApplyWrite}
    (h : AddedRow plan write result row) (hsome : write.payload.evidence.isEmpty = false) :
    RowOfWrite write row := by
  refine ⟨h.memoryId, h.active, h.content, ?_⟩
  have hevidence := h.evidence
  rw [proposedEvidence, if_neg (by simp [hsome])] at hevidence
  exact (Except.ok.inj hevidence).symm

theorem rowsOfWrites_ids {rows : List MemoryItem} (h : List.Forall₂ RowOfWrite writes rows) :
    rows.map (·.memoryId) = writes.map (·.memoryId) := by
  induction h with
  | nil => rfl
  | cons hfirst _ ih => rw [List.map_cons, List.map_cons, ih, hfirst.memoryId]

/-- The writes add a row each. -/
theorem AddedInTurn.rows (hturn : AddedInTurn plan control writes results)
    (hsome : ∀ write ∈ writes, write.payload.evidence.isEmpty = false) (store : MemoryStore) :
    ∃ rows, List.Forall₂ RowOfWrite writes rows ∧
      (results.foldl MemoryStore.writeApplyResult store).items = writeItems store.items rows := by
  induction writes generalizing control results store with
  | nil =>
    obtain rfl : results = [] := hturn
    exact ⟨[], .nil, rfl⟩
  | cons write writes ih =>
    obtain ⟨result, rest, rfl, hstatus, -, -, ⟨row, hrow⟩, hrest⟩ := hturn
    obtain ⟨hfirst, hsome⟩ := List.forall_mem_cons.mp hsome
    obtain ⟨rows, hrows, hitems⟩ := ih hrest hsome (store.writeApplyResult result)
    refine ⟨row :: rows, .cons (hrow.rowOfWrite hfirst) hrows, ?_⟩
    rw [List.foldl_cons, hitems, (writeApplyResult_committed hstatus).1, hrow.only]
    rfl

/-- The rows after a replacement: those of the first commit and of the writes over the old ones. -/
theorem ReplacementCommits.Made.rows (hmade : commits.Made env store call plan replacement
      back added) (hsound : plan.Sound env store call) :
    ∃ rows, List.Forall₂ RowOfWrite call.writes rows ∧
      (store.writeReplacement plan.staged.memoryIds commits).items =
        writeItems (writeItems store.items
          (commits.retracted.filter (·.memoryId ∉ plan.staged.memoryIds) ++
            replacement.memoryItems)) rows := by
  obtain ⟨rows, hrows, hitems⟩ := hmade.added.rows
    (fun write hwrite => (hsound.checked write hwrite).some_evidence)
    (((commits.retracted.filter (·.memoryId ∉ plan.staged.memoryIds)).foldl
      MemoryStore.retract store).writeApplyResult replacement)
  refine ⟨rows, hrows, ?_⟩
  rw [MemoryStore.writeReplacement, hmade.results, List.foldl_cons, hitems,
    (writeApplyResult_committed hmade.status).1, (foldl_retract _ _).1]
  simp only [writeItems, List.foldl_append]

/-- A retracted row is a tombstone without content. -/
theorem retractedItem_tombstone {point : CommitPoint} {generation : ℤ}
    (source : MemoryItem × List MemoryEvidence) :
    (retractedItem call point generation source).status = .tombstoned ∧
      (retractedItem call point generation source).content = none := ⟨rfl, rfl⟩

/-- With nothing in its place, no identity of its source is left in it either. -/
theorem retractedItem_scrubbed {point : CommitPoint} {generation : ℤ}
    (hempty : call.writes.isEmpty = true) (source : MemoryItem × List MemoryEvidence) :
    (retractedItem call point generation source).Scrubbed := by
  refine ⟨rfl, fun evidence hmem => ?_⟩
  obtain ⟨record, -, rfl⟩ := List.mem_map.mp hmem
  rw [hempty]
  exact privacyTombstonedEvidence_scrubbed record

/-- Where a row after a replacement comes from. -/
theorem ReplacementCommits.Made.row_cases (hmade : commits.Made env store call plan replacement
      back added) (hsound : plan.Sound env store call)
    (hrow : (store.writeReplacement plan.staged.memoryIds commits).items.get memoryId =
      some row) :
    (∃ write ∈ call.writes, write.memoryId = memoryId ∧ RowOfWrite write row) ∨
      row.status = .tombstoned ∨
      itemHasConversationSource row call.conversationId = false ∨
      (memoryId ∉ plan.staged.memoryIds ∧ memoryId ∉ plan.sourceIds ∧
        store.items.get memoryId = some row) := by
  obtain ⟨rows, hrows, hitems⟩ := hmade.rows hsound
  have hids : rows.map (·.memoryId) = plan.staged.memoryIds := by
    rw [hsound.memoryIds, rowsOfWrites_ids hrows]
  rw [hitems] at hrow
  by_cases hnew : memoryId ∈ plan.staged.memoryIds
  · obtain ⟨added, hadded, rfl⟩ := List.mem_map.mp (hids ▸ hnew)
    have hnodup : (rows.map (·.memoryId)).Nodup := hids ▸ hsound.staged.distinct
    rw [get_writeItems hnodup hadded] at hrow
    obtain rfl := Option.some.inj hrow
    obtain ⟨write, hwrite, hof⟩ := exists_left_of_forall₂ hrows hadded
    exact .inl ⟨write, hwrite, hof.memoryId.symm, hof⟩
  rw [get_writeItems_other (hids ▸ hnew), get_writeItems_eq] at hrow
  cases hfound : (commits.retracted.filter (·.memoryId ∉ plan.staged.memoryIds) ++
      replacement.memoryItems).reverse.find? fun row => row.memoryId = memoryId with
  | some written =>
    rw [hfound] at hrow
    obtain rfl := Option.some.inj hrow
    have hmem := List.mem_reverse.mp (List.mem_of_find?_eq_some hfound)
    rcases List.mem_append.mp hmem with hretracted | hback
    · have hretracted := (List.mem_filter.mp hretracted).1
      rw [hmade.retracted] at hretracted
      obtain ⟨source, -, rfl⟩ := List.mem_map.mp hretracted
      exact .inr (.inl (retractedItem_tombstone source).1)
    · rw [hmade.items] at hback
      obtain ⟨pair, hpair, rfl⟩ := List.mem_map.mp hback
      obtain ⟨item, hitem, hmadeBack⟩ := exists_left_of_forall₂ hmade.reactivated hpair
      obtain ⟨-, -, -, hevidence, -⟩ := reactivateLineageItem_ok hmadeBack
      have hother := (hsound.lineage item (List.mem_filter.mp hitem).1).2.2.1
      rw [itemHasConversationSource, ← hevidence] at hother
      exact .inr (.inr (.inl hother))
  | none =>
    rw [hfound] at hrow
    refine .inr (.inr (.inr ⟨hnew, fun hsource => ?_, hrow⟩))
    obtain ⟨source, hmem, hid⟩ := List.mem_map.mp hsource
    have hretracted : retractedItem call (replacementPoint env store.control call)
        replacement.controlState.accountGeneration source ∈ commits.retracted := by
      rw [hmade.retracted]
      exact List.mem_map_of_mem hmem
    have hnone := List.find?_eq_none.mp hfound _ (List.mem_reverse.mpr
      (List.mem_append_left _ (List.mem_filter.mpr ⟨hretracted, by
        rw [decide_eq_true_eq]
        exact hid ▸ hnew⟩)))
    exact hnone (decide_eq_true hid)

end

/-! ### The retraction of one row -/

section
variable (env : MemoryEnv)

/-- The source of the new row is replaced with nothing. -/
def retractTea : ReplacementCall where
  uid := "u"
  conversationId := "source_for_e"
  replacementId := "r"
  replacementDigest := "d"
  replacementOperation := .new env.toContractHash
    { operationId := ""
      uid := "u"
      operationType := .sourceReplacement
      sourcePacketId := some "source_for_e"
      logicalPayload :=
        { decision := "source_replace"
          metadata := [("replacement_id", .str "r"), ("replacement_digest", .str "d"),
            ("conversation_id", .str "source_for_e"), ("new_memory_ids", .list [])] }
      logicalPayloadDigest := ""
      accountGeneration := 0
      sourceGeneration := 1
      observedHeadCommitId := some (addedTea env).control.headCommitId
      createdAt := 2
      updatedAt := 2 } 2
  observedControl := (addedTea env).control
  expectedSourceItems := [shortTea env]
  expectedReactivationItems := []
  writes := []
  deletionGateToken := some "t"
  evidence := [teaRecord]
  opened := 2
  head := 2
  now := 2
  marked := 2

theorem shortTea_readItem :
    readItem env (addedTea env).items "a" = .ok (some (shortTea env)) := by
  have hget : (addedTea env).items.get "a" = some (shortTea env) := rfl
  rw [readItem, hget]
  dsimp only
  rw [shortTea_read]
  rfl

theorem tea_sourceRow {call : ReplacementCall} (huid : call.uid = "u")
    (hconversation : call.conversationId = "source_for_e")
    (hexpected : call.expectedSourceItems = [shortTea env]) (hevidence : call.evidence = [teaRecord]) :
    sourceRow env (addedTea env) call "a" = .ok (shortTea env, [teaEvidence]) := by
  refine bind_eq_ok_iff.mpr ⟨_, shortTea_readItem env, ?_⟩
  have hplanned : call.expectedSourceItems.find? (·.memoryId = "a") = some (shortTea env) := by
    rw [hexpected]
    rfl
  have hlive : (shortTea env).status ≠ .tombstoned := by
    have hactive : (shortTea env).status = .active := rfl
    simp [hactive]
  have hrecords : (shortTea env).evidence.mapM (sourceEvidence call) = .ok [teaEvidence] := by
    have hone : sourceEvidence call teaEvidence = .ok teaEvidence := by
      simp only [sourceEvidence, hevidence, hconversation]
      rfl
    exact mapM_eq_ok_iff.mpr (.cons hone .nil)
  simp only [bind_eq_ok_iff, check_eq_ok_iff, Bool.and_eq_true, decide_eq_true_eq, hplanned,
    Option.any_some, huid, hconversation]
  exact ⟨(), ⟨⟨⟨⟨rfl, hlive⟩, rfl⟩, ⟨⟨trivial, trivial⟩, trivial⟩, trivial⟩, rfl⟩, [teaEvidence],
    hrecords, rfl⟩

theorem retractTea_plan : planReplacement env (addedTea env) (retractTea env) =
    .ok { sources := [(shortTea env, [teaEvidence])], lineage := [], staged := {} } := by
  have hids : sortedIds ((retractTea env).expectedSourceItems.map (·.memoryId)) = ["a"] := by rfl
  simp only [planReplacement, bind_eq_ok_iff, check_eq_ok_iff, mapM_eq_ok_iff]
  refine ⟨(), ?_, [(shortTea env, [teaEvidence])], ?_, (), rfl, (), rfl, [], ?_, {}, rfl, (), rfl,
    rfl⟩
  · simp [retractTea]
  · rw [hids]
    exact .cons (tea_sourceRow env rfl rfl rfl rfl) .nil
  · exact .nil

/-- A computation that goes on from a result. -/
theorem exists_bind_ok {α β : Type} {x : Except String α} {f : α → Except String β}
    {condition : β → Prop} {a : α} (hx : x = .ok a)
    (hf : ∃ b, f a = .ok b ∧ condition b) : ∃ b, (x >>= f) = .ok b ∧ condition b := by
  obtain ⟨b, hb, hcondition⟩ := hf
  exact ⟨b, bind_eq_ok_iff.mpr ⟨a, hx, hb⟩, hcondition⟩

theorem retractTea_run : ∃ next result results,
    replaceConversationSource env (addedTea env) (retractTea env) = .ok (next, result, results) ∧
      results ≠ [] := by
  have hchecked : checkReplacement (addedTea env).control (retractTea env) = .ok () := by
    simp only [checkReplacement, bind_eq_ok_iff, check_eq_ok_iff]
    refine ⟨(), decide_eq_true rfl, (), rfl, (), rfl, (), ?_, rfl⟩
    simp only [Bool.and_eq_true, decide_eq_true_eq]
    exact ⟨⟨⟨⟨⟨⟨⟨rfl, rfl⟩, rfl⟩, rfl⟩, rfl⟩, rfl⟩, rfl⟩, rfl⟩
  have huid : isBlank "u" = false := by decide
  have hgeneration : (0 : ℤ) ≤ 1 := by decide
  have hsequence : (0 : ℤ) ≤ 2 := by decide
  have hcommit : isBlank (replacementPoint env (addedTea env).control
      (retractTea env)).commitId = false := by
    simp [replacementPoint, retractTea, isBlank, isPySpace]
  let control := replacementControl env (addedTea env).control (retractTea env)
  let point := replacementPoint env (addedTea env).control (retractTea env)
  let retracted := retractedItem (retractTea env) point 0 (shortTea env, [teaEvidence])
  have hmarked : ∃ committed, (retractTea env).replacementOperation.markCommitted
      env.toContractHash point.commitId point.sequence (sortedIds ["a"])
      ((replacementEvents env (addedTea env).control control (retractTea env) [retracted] []).map
        (·.eventId)) 2 = .ok committed := by
    apply MemoryOperation.markCommitted_new
    · exact huid
    · exact le_rfl
    · exact hgeneration
    · exact hcommit
    · exact hsequence
    · exact le_rfl
  obtain ⟨committed, hcommitted⟩ := hmarked
  have hcommits : ∃ commits, replacementCommits env (addedTea env) (retractTea env)
      { sources := [(shortTea env, [teaEvidence])], lineage := [], staged := {} } =
        .ok commits ∧ commits.results ≠ [] := by
    simp only [replacementCommits, bind_eq_ok_iff, check_eq_ok_iff, mapM_eq_ok_iff]
    exact ⟨_, ⟨[], rfl, [], .nil, committed, hcommitted, (), rfl, rfl⟩, by simp⟩
  obtain ⟨commits, hcommits, hsome⟩ := hcommits
  have hrun : ∃ answer, replaceConversationSource env (addedTea env) (retractTea env) =
      .ok answer ∧ answer.2.2 = commits.results := by
    apply exists_bind_ok rfl
    apply exists_bind_ok rfl
    apply exists_bind_ok hchecked
    apply exists_bind_ok (retractTea_plan env)
    apply exists_bind_ok hcommits
    exact ⟨_, rfl, rfl⟩
  obtain ⟨⟨next, result, results⟩, hrun, rfl⟩ := hrun
  exact ⟨next, result, _, hrun, hsome⟩

/-! ### A row said again -/

/-- What the conversation is the source of when it is extracted again. -/
def greenEvidence : MemoryEvidence :=
  { evidenceId := "e2", sourceType := "unknown", sourceId := some "source_for_e",
    sourceVersion := some (sourceVersionText 1), conversationId := some "source_for_e",
    artifactPreservation := .preserved }

def greenRecord : EvidenceObject := ⟨greenEvidence, by decide⟩

/-- The new row "b". -/
def addGreenTea : CanonicalApplyWrite where
  operation := .new env.toContractHash
    { operationId := ""
      uid := "u"
      operationType := .sourceCandidate
      sourcePacketId := some "source_for_e"
      evidenceIds := ["e2"]
      logicalPayload :=
        { decision := "add", memoryText := some "green tea", resultStatus := some "active" }
      logicalPayloadDigest := ""
      accountGeneration := 0
      sourceGeneration := 1
      createdAt := 2
      updatedAt := 2 } 2
  payload :=
    { patch :=
        { patchId := "p3"
          idempotencyKey := "k3"
          decision := .add
          resultStatus := .active
          evidenceIds := ["e2"]
          newMemoryId := some "b"
          memoryText := some "green tea" }
      evidence := [greenRecord] }
  clock := ⟨2, 2, fun _ => 2, fun _ => 2, 2⟩

/-- The source of the row "a" is replaced with the row "b". -/
def correctTea : ReplacementCall :=
  { retractTea env with
    replacementOperation := .new env.toContractHash
      { operationId := ""
        uid := "u"
        operationType := .sourceReplacement
        sourcePacketId := some "source_for_e"
        logicalPayload :=
          { decision := "source_replace"
            metadata := [("replacement_id", .str "r"), ("replacement_digest", .str "d"),
              ("conversation_id", .str "source_for_e"), ("new_memory_ids", strings ["b"])] }
        logicalPayloadDigest := ""
        accountGeneration := 0
        sourceGeneration := 1
        observedHeadCommitId := some (addedTea env).control.headCommitId
        createdAt := 2
        updatedAt := 2 } 2
    writes := [addGreenTea env]
    deletionGateToken := none }

def correctPlan : ReplacementPlan where
  sources := [(shortTea env, [teaEvidence])]
  lineage := []
  staged := { memoryIds := ["b"], evidenceIds := ["e2"] }

theorem addGreenTea_staged :
    stageWrite env (addedTea env) (correctTea env) ["a"] ["e"] {} (addGreenTea env) =
      .ok (correctPlan env).staged := by
  have hid : strip "b" = "b" ∧ isBlank "b" = false := by decide
  have hother : ("b" : String) ∉ ["a"] := by decide
  have hmemory : stageMemoryId env (addedTea env) (correctTea env) ["a"] {} (strip "b") =
      .ok { memoryIds := ["b"] } := by
    rw [hid.1, stageMemoryId, if_neg hother]
    rfl
  have hevidence : stageEvidence (correctTea env) ["e"] 1 { memoryIds := ["b"] } greenRecord =
      .ok (correctPlan env).staged := by
    have hconversation : (correctTea env).conversationId = "source_for_e" := rfl
    simp only [stageEvidence, bind_eq_ok_iff, check_eq_ok_iff, hconversation]
    exact ⟨(), by decide, (), rfl, rfl⟩
  simp only [stageWrite, bind_eq_ok_iff, check_eq_ok_iff]
  refine ⟨(), rfl, (), rfl, (), ?_, (), ?_, _, hmemory, (), rfl, ?_⟩
  · simpa [addGreenTea] using hid.2
  · rfl
  · exact bind_eq_ok_iff.mpr ⟨_, hevidence, rfl⟩

theorem correctTea_planned :
    planReplacement env (addedTea env) (correctTea env) = .ok (correctPlan env) := by
  have hsource : sourceRow env (addedTea env) (correctTea env) "a" =
      .ok (shortTea env, [teaEvidence]) := tea_sourceRow env rfl rfl rfl rfl
  have hids : sortedIds ((correctTea env).expectedSourceItems.map (·.memoryId)) = ["a"] := by rfl
  simp only [planReplacement, bind_eq_ok_iff, check_eq_ok_iff, mapM_eq_ok_iff]
  refine ⟨(), ?_, [(shortTea env, [teaEvidence])], ?_, (), rfl, (), rfl, [], .nil,
    (correctPlan env).staged, ?_, (), rfl, rfl⟩
  · simp [correctTea, retractTea]
  · rw [hids]
    exact .cons hsource .nil
  · exact bind_eq_ok_iff.mpr ⟨_, addGreenTea_staged env, rfl⟩


/-- The control state that the write finds. -/
def correctedControl : MemoryControlState :=
  replacementControl env (addedTea env).control (correctTea env)

/-- The row that is added. -/
def greenTea : MemoryItem :=
  (materializedRow env (correctedControl env) (addGreenTea env).operation (addGreenTea env).payload
    [greenEvidence] (commitPoint env (correctedControl env) (addGreenTea env).operation)
    2).normalized env

theorem greenTea_items :
    appliedItems env (correctedControl env) (addGreenTea env).operation (addGreenTea env).payload
      [greenEvidence] (addGreenTea env).clock false = .ok ([greenTea env], []) := by
  have hvalid : (materializedRow env (correctedControl env) (addGreenTea env).operation
      (addGreenTea env).payload [greenEvidence]
      (commitPoint env (correctedControl env) (addGreenTea env).operation) 2).valid env = true := by
    have hblank : isBlank "b" = false ∧ isBlank "u" = false ∧ isBlank "green tea" = false := by
      decide
    have hrecord : greenEvidence.valid = true ∧ greenEvidence.sourceState = .active := by decide
    apply plainRow_valid env hblank.1 hblank.2.1 hblank.2.2 hrecord.1 hrecord.2 <;> rfl
  have hmade : materializeMemoryItem env (correctedControl env) (addGreenTea env).operation
      (addGreenTea env).payload [greenEvidence]
      (commitPoint env (correctedControl env) (addGreenTea env).operation) 2 =
        .ok (greenTea env) := by
    simp only [materializeMemoryItem, bind_eq_ok_iff, liftModel_eq_ok_iff,
      MemoryItem.construct_eq_ok_iff]
    exact ⟨(), rfl, _, ⟨hvalid, rfl⟩, rfl⟩
  refine bind_eq_ok_iff.mpr ⟨(greenTea env, false), ?_, rfl⟩
  exact bind_eq_ok_iff.mpr ⟨_, hmade, rfl⟩

theorem addGreenTea_run : ∃ result, applyLongTermPatchTransaction env (correctedControl env)
    (addGreenTea env).operation (addGreenTea env).payload (addGreenTea env).clock = .ok result ∧
      result.status = .committed ∧ result.memoryItems = [greenTea env] ∧
      result.outboxEvents.length = 2 := by
  have hpatch : checkPatch env (addGreenTea env).operation (addGreenTea env).payload = .ok () := by
    apply checkPatch_new <;> rfl
  have huid : isBlank "u" = false := by decide
  have hgeneration : (0 : ℤ) ≤ 1 := by decide
  have hsequence : (0 : ℤ) ≤ 2 := by decide
  have hadd : DurablePatchDecision.add ≠ .skipDuplicate := by decide
  have hlabels : [greenTea env].all (·.labelSet.isSome) = true := rfl
  have hnow : (2 : ℤ) ≤ 2 := le_rfl
  obtain ⟨result, hrun, hrows⟩ := runApply_new huid le_rfl hgeneration hsequence hnow rfl hpatch
    rfl hadd (greenTea_items env) hlabels
  exact ⟨result, apply_of_run hrun, runApply_committed hrun, hrows,
    runApply_events hrun rfl hadd (greenTea_items env)⟩

theorem correctTea_run : ∃ next result results,
    replaceConversationSource env (addedTea env) (correctTea env) = .ok (next, result, results) ∧
      results ≠ [] := by
  have hchecked : checkReplacement (addedTea env).control (correctTea env) = .ok () := by
    simp only [checkReplacement, bind_eq_ok_iff, check_eq_ok_iff]
    refine ⟨(), decide_eq_true rfl, (), rfl, (), rfl, (), ?_, rfl⟩
    simp only [Bool.and_eq_true, decide_eq_true_eq]
    exact ⟨⟨⟨⟨⟨⟨⟨rfl, rfl⟩, rfl⟩, rfl⟩, rfl⟩, rfl⟩, rfl⟩, rfl⟩
  obtain ⟨added, hadded, hstatus, hrows, hevents⟩ := addGreenTea_run env
  have hwrites : applyWrites env (correctPlan env) (correctedControl env)
      [(addGreenTea env, "b")] = .ok [added] := by
    simp only [applyWrites, bind_eq_ok_iff, check_eq_ok_iff]
    exact ⟨added, hadded, (), decide_eq_true hstatus, [], rfl, rfl⟩
  let point := replacementPoint env (addedTea env).control (correctTea env)
  let retracted := retractedItem (correctTea env) point 0 (shortTea env, [teaEvidence])
  have huid : isBlank "u" = false := by decide
  have hgeneration : (0 : ℤ) ≤ 1 := by decide
  have hsequence : (0 : ℤ) ≤ 2 := by decide
  have hcommit : isBlank point.commitId = false := by
    simp [point, replacementPoint, correctTea, MemoryControlState.nextCommitId, isBlank, isPySpace]
  have hmarked : ∃ committed, (correctTea env).replacementOperation.markCommitted
      env.toContractHash point.commitId point.sequence (sortedIds (["a"] ++ ["b"] ++ []))
      ((replacementEvents env (addedTea env).control (correctedControl env) (correctTea env)
        [retracted] []).map (·.eventId)) 2 = .ok committed := by
    apply MemoryOperation.markCommitted_new
    · exact huid
    · exact le_rfl
    · exact hgeneration
    · exact hcommit
    · exact hsequence
    · exact le_rfl
  obtain ⟨committed, hcommitted⟩ := hmarked
  have hcommits : ∃ commits, replacementCommits env (addedTea env) (correctTea env)
      (correctPlan env) = .ok commits ∧ commits.results ≠ [] := by
    simp only [replacementCommits, bind_eq_ok_iff, check_eq_ok_iff, mapM_eq_ok_iff]
    refine ⟨_, ⟨[added], hwrites, [], .nil, committed, hcommitted, (), ?_, rfl⟩, by simp⟩
    rw [decide_eq_true_eq]
    simp only [replacementMutations, resultMutations, List.map_cons, List.map_nil, List.sum_cons,
      List.sum_nil, hrows, hevents]
    exact Nat.le_of_ble_eq_true rfl
  obtain ⟨commits, hcommits, hsome⟩ := hcommits
  have hrun : ∃ answer, replaceConversationSource env (addedTea env) (correctTea env) =
      .ok answer ∧ answer.2.2 = commits.results := by
    apply exists_bind_ok rfl
    apply exists_bind_ok rfl
    apply exists_bind_ok hchecked
    apply exists_bind_ok (correctTea_planned env)
    apply exists_bind_ok hcommits
    exact ⟨_, rfl, rfl⟩
  obtain ⟨⟨next, result, results⟩, hrun, rfl⟩ := hrun
  exact ⟨next, result, _, hrun, hsome⟩
end

section
variable {env : MemoryEnv} {plan : ReplacementPlan} {control start : MemoryControlState}
  {store next : MemoryStore} {log : List LoggedCommit} {call : ReplacementCall}
  {commits : ReplacementCommits} {replacement : ApplyResult}
  {back : List (MemoryItem × MemoryGraphAssertion)} {added results : List ApplyResult}
  {memoryId : String} {row item : MemoryItem} {writes : List CanonicalApplyWrite}

/-! ### A replacement and its planner -/

/-- A planner reads the control state, then each row at some moment, then the control state once
more, which has not moved. Every live row that it finds of the conversation is in its call. -/
structure PlannedScan (env : MemoryEnv) (start : MemoryControlState) (before scan : List RowCall)
    (call : ReplacementCall) : Prop where
  unmoved : controlFence ((rowTransactions env).state (.empty start) before).control =
    controlFence call.observedControl
  confirmed : call.observedControl =
    ((rowTransactions env).state (.empty start) (before ++ scan)).control
  inventory : ∀ memoryId, ∃ seen, seen <+: scan ∧ ∀ item,
    ((rowTransactions env).state (.empty start) (before ++ seen)).items.get memoryId = some item →
    item.status ≠ .tombstoned → itemHasConversationSource item call.conversationId = true →
    memoryId ∈ call.expectedSourceItems.map (·.memoryId)

/-- Rows that are read between two equal commit numbers are those of the later one. -/
theorem ApartRun.same_rows {calls middle calls' : List RowCall}
    (hapart : ApartRun env (.empty start) (calls ++ middle ++ calls'))
    (hsame : ((rowTransactions env).state (.empty start)
        (calls ++ middle ++ calls')).control.commitSequence =
      ((rowTransactions env).state (.empty start) calls).control.commitSequence)
    (memoryId : String) :
    ((rowTransactions env).state (.empty start) (calls ++ middle ++ calls')).items.get memoryId =
      ((rowTransactions env).state (.empty start) (calls ++ middle)).items.get memoryId := by
  obtain ⟨hbefore, hafter⟩ := apartRun_append.mp hapart
  obtain ⟨log, more, hlog, hmiddle⟩ := hbefore.logs
  obtain ⟨rest, hrest⟩ := hafter.logged hmiddle
  rw [← Machine.state_append] at hrest
  refine hmiddle.same_of_sequence hrest ?_ memoryId
  have hfirst := hlog.sequence
  have hmid := hmiddle.sequence
  have hend := hrest.sequence
  simp only [List.length_append] at hmid hend
  push_cast at hmid hend
  omega

/-- However the transactions of others interleave with the planner and its replacement, once the
replacement commits, the live rows of the conversation are those of its writes: each has the text
and the evidence of its write, and no other row has the conversation as a source. -/
theorem replacement_complete (env : MemoryEnv) (start : MemoryControlState)
    (before scan after : List RowCall) (call : ReplacementCall)
    (hapart : ApartRun env (.empty start) (before ++ scan ++ after ++ [.replace call]))
    (hplanned : PlannedScan env start before scan call) {next : MemoryStore}
    {result : ConversationSourceReplacementResult} {results : List ApplyResult}
    (hrun : replaceConversationSource env
      ((rowTransactions env).state (.empty start) (before ++ scan ++ after)) call =
        .ok (next, result, results)) (hcommitted : results ≠ []) :
    (∀ memoryId row, next.items.get memoryId = some row → row.status ≠ .tombstoned →
      itemHasConversationSource row call.conversationId = true →
        ∃ write ∈ call.writes, write.memoryId = memoryId ∧ RowOfWrite write row) ∧
    ∀ write ∈ call.writes, ∃ row, next.items.get write.memoryId = some row ∧
      RowOfWrite write row ∧ itemHasConversationSource row call.conversationId = true := by
  obtain ⟨hbefore, hplain, -⟩ := apartRun_append.mp hapart
  obtain ⟨log, hlog⟩ := hbefore.logged (logged_empty start)
  set store := (rowTransactions env).state (.empty start) (before ++ scan ++ after) with hstore
  have hkeyed : KeyedRows store.items := fun _ _ hitem => hlog.keyed hitem
  obtain ⟨-, hnone⟩ | ⟨plan, commits, replacement, back, added, hchecked, hsound, hmade, -, rfl, -⟩ :=
    replaceConversationSource_ok hkeyed hplain hrun
  · exact absurd hnone hcommitted
  have hfence : store.control.commitSequence =
      ((rowTransactions env).state (.empty start) before).control.commitSequence := by
    simp only [checkReplacement, bind_eq_ok_iff, check_eq_ok_iff, decide_eq_true_eq] at hchecked
    obtain ⟨_, hunmoved, -⟩ := hchecked
    have hsame := hunmoved.trans hplanned.unmoved.symm
    exact congrArg (·.2.2.2) hsame
  constructor
  · intro memoryId row hrow hlive hsource
    obtain hwrite | hdead | hother | ⟨-, houtside, hold⟩ := hmade.row_cases hsound hrow
    · exact hwrite
    · exact absurd hdead hlive
    · rw [hother] at hsource
      cases hsource
    · -- a row the replacement does not touch was seen by the planner
      obtain ⟨seen, ⟨unseen, rfl⟩, hfound⟩ := hplanned.inventory memoryId
      have hsplit : before ++ (seen ++ unseen) ++ after = before ++ seen ++ (unseen ++ after) := by
        simp
      rw [hstore, hsplit] at hold hfence
      rw [hsplit] at hbefore
      rw [hbefore.same_rows hfence] at hold
      have hplannedId := hfound row hold hlive hsource
      exact absurd ((hsound.sourceIds memoryId).mpr hplannedId) houtside
  · intro write hwrite
    obtain ⟨rows, hrows, hitems⟩ := hmade.rows hsound
    obtain ⟨row, hrow, hof⟩ := exists_right_of_forall₂ hrows hwrite
    have hnodup : (rows.map (·.memoryId)).Nodup := by
      rw [rowsOfWrites_ids hrows, ← hsound.memoryIds]
      exact hsound.staged.distinct
    refine ⟨row, ?_, hof, ?_⟩
    · rw [hitems, ← hof.memoryId]
      exact get_writeItems hnodup hrow
    · have hchecked := hsound.checked write hwrite
      rw [itemHasConversationSource, hof.evidence]
      obtain ⟨one, rest, hevidence⟩ : ∃ one rest, write.payload.evidence = one :: rest := by
        have hsome := hchecked.some_evidence
        cases hevidence : write.payload.evidence with
        | nil => simp [hevidence] at hsome
        | cons one rest => exact ⟨one, rest, rfl⟩
      have hone := (hchecked.evidence one (by simp [hevidence])).1
      simp [hevidence, hone]

/-- The row "a" is replaced with the row "b", with a late deletion refused while the planner reads
and another one before the replacement. -/
theorem replacement_complete_correctTea : ∃ env : MemoryEnv, ∃ next result results,
    replaceConversationSource env ((rowTransactions env).state (.empty teaControl)
      ([.memory (.apply (addTea env))] ++ [.memory (.tombstone (lateForget env))] ++
        [.memory (.tombstone (lateForget env))])) (correctTea env) = .ok (next, result, results) ∧
    (∀ memoryId row, next.items.get memoryId = some row → row.status ≠ .tombstoned →
      itemHasConversationSource row "source_for_e" = true → memoryId = "b") ∧
    ∃ row, next.items.get "b" = some row ∧ row.content = some "green tea" := by
  obtain ⟨env⟩ := MemoryEnv.nonempty
  obtain ⟨next, result, results, hrun, hsome⟩ := correctTea_run env
  let late : RowCall := .memory (.tombstone (lateForget env))
  have hone : (rowTransactions env).state (.empty teaControl)
      ([.memory (.apply (addTea env))] ++ [late]) = addedTea env := by
    rw [Machine.state_append, addTea_rows]
    exact lateForget_step env
  have htwo : (rowTransactions env).state (.empty teaControl)
      ([.memory (.apply (addTea env))] ++ [late] ++ [late]) = addedTea env := by
    rw [Machine.state_append, hone]
    exact lateForget_step env
  rw [← htwo] at hrun
  have hplanned : PlannedScan env teaControl [.memory (.apply (addTea env))] [late]
      (correctTea env) := by
    constructor
    · rw [addTea_rows]
      rfl
    · rw [hone]
      rfl
    · intro memoryId
      refine ⟨[late], List.prefix_rfl, fun item hitem _ _ => ?_⟩
      rw [hone] at hitem
      have hid : memoryId = "a" := by
        by_contra hne
        have hset : (addedTea env).items = Table.set [] "a" (shortTea env) := rfl
        rw [hset, Table.get_set, if_neg hne] at hitem
        cases hitem
      have hshort : (shortTea env).memoryId = "a" := rfl
      simp [correctTea, retractTea, hid, hshort]
  have hstrip : strip "b" = "b" := by decide
  have hid : (addGreenTea env).memoryId = "b" := hstrip
  have hplain : (addGreenTea env).Plain := ⟨rfl, rfl, congrArg some hid.symm, rfl⟩
  have hapart : ApartRun env (.empty teaControl) ([.memory (.apply (addTea env))] ++ [late] ++
      [late] ++ [.replace (correctTea env)]) :=
    ⟨addTea_apart env, trivial, trivial, by simpa [RowCall.Apart, correctTea] using hplain, trivial⟩
  obtain ⟨hleft, hadded⟩ := replacement_complete env teaControl [.memory (.apply (addTea env))]
    [late] [late] (correctTea env) hapart hplanned hrun hsome
  have hwrites : (correctTea env).writes = [addGreenTea env] := rfl
  rw [hwrites] at hleft hadded
  refine ⟨env, next, result, results, hrun, fun memoryId row hrow hlive hsource => ?_, ?_⟩
  · obtain ⟨write, hwrite, hwriteId, -⟩ := hleft memoryId row hrow hlive hsource
    rw [← hwriteId, List.mem_singleton.mp hwrite, hid]
  · obtain ⟨row, hrow, hof, -⟩ := hadded (addGreenTea env) List.mem_cons_self
    rw [hid] at hrow
    exact ⟨row, hrow, hof.content⟩

/-! ### Privacy deletions -/

/-- The rows that a call deletes: those of a tombstone, or of a replacement with nothing. -/
def RowCall.deletes : RowCall → List MemoryItem
  | .memory (.tombstone call) => call.expectedItems
  | .replace call => if call.writes.isEmpty then call.expectedSourceItems else []
  | .memory (.apply _) | .bump _ => []

/-- A row that is written last under its id. -/
theorem exists_get_writeItems (items : Table MemoryItem) {rows : List MemoryItem}
    (hrow : row ∈ rows) : ∃ written ∈ rows, written.memoryId = row.memoryId ∧
      (writeItems items rows).get row.memoryId = some written := by
  rw [get_writeItems_eq]
  cases hfound : rows.reverse.find? fun other => other.memoryId = row.memoryId with
  | none => simpa using List.find?_eq_none.mp hfound row (List.mem_reverse.mpr hrow)
  | some written =>
    have hid := List.find?_some hfound
    exact ⟨written, List.mem_reverse.mp (List.mem_of_find?_eq_some hfound), of_decide_eq_true hid,
      rfl⟩

theorem tombstoneTransaction_deletes {call : TombstoneCall} {result : ApplyResult}
    (hkeyed : KeyedRows store.items)
    (hrun : tombstoneTransaction env store call = .ok (next, result)) :
    ∀ expected ∈ call.expectedItems, ∃ row, next.items.get expected.memoryId = some row ∧
      row.content = none ∧ row.Scrubbed := by
  intro expected hexpected
  obtain ⟨answer, hanswer, hresult⟩ := bind_eq_ok_iff.mp hrun
  cases hresult
  obtain ⟨hstatus, -, hrows, hall⟩ := tombstoneResult_rows hanswer
  obtain ⟨item, hread, row, hrow, hid⟩ := hall expected hexpected
  obtain ⟨written, hwritten, -, hget⟩ := exists_get_writeItems store.items hrow
  obtain ⟨-, -, hscrubbed, hcontent, -⟩ := hrows written hwritten
  rw [hid, readItem_keyed hkeyed hread] at hget
  exact ⟨written, by rw [(writeApplyResult_committed hstatus).1, hget], hcontent, hscrubbed⟩

/-- A replacement with nothing leaves the rows that it retracts scrubbed. -/
theorem ReplacementCommits.Made.deletes (hmade : commits.Made env store call plan replacement
      back added) (hsound : plan.Sound env store call) (hempty : call.writes.isEmpty = true) :
    ∀ expected ∈ call.expectedSourceItems, ∃ row,
      (store.writeReplacement plan.staged.memoryIds commits).items.get expected.memoryId =
        some row ∧ row.content = none ∧ row.Scrubbed := by
  intro expected hexpected
  have hnone : plan.staged.memoryIds = [] := by
    rw [hsound.memoryIds, List.isEmpty_iff.mp hempty]
    rfl
  obtain ⟨rows, hrows, hitems⟩ := hmade.rows hsound
  rw [List.isEmpty_iff.mp hempty] at hrows
  cases hrows
  have hsource : expected.memoryId ∈ plan.sourceIds :=
    (hsound.sourceIds _).mpr (List.mem_map_of_mem hexpected)
  obtain ⟨source, hmem, hid⟩ := List.mem_map.mp hsource
  have hretracted : retractedItem call (replacementPoint env store.control call)
      replacement.controlState.accountGeneration source ∈
        commits.retracted.filter (·.memoryId ∉ plan.staged.memoryIds) ++
          replacement.memoryItems := by
    refine List.mem_append_left _ (List.mem_filter.mpr ⟨?_, by simp [hnone]⟩)
    rw [hmade.retracted]
    exact List.mem_map_of_mem hmem
  obtain ⟨written, hwritten, hsame, hget⟩ := exists_get_writeItems store.items hretracted
  have hkey : (retractedItem call (replacementPoint env store.control call)
      replacement.controlState.accountGeneration source).memoryId = expected.memoryId := hid
  rw [hkey] at hsame hget
  rw [hitems]
  refine ⟨written, hget, ?_⟩
  rcases List.mem_append.mp hwritten with hretracted | hback
  · have hmem := (List.mem_filter.mp hretracted).1
    rw [hmade.retracted] at hmem
    obtain ⟨other, -, rfl⟩ := List.mem_map.mp hmem
    exact ⟨(retractedItem_tombstone other).2, retractedItem_scrubbed hempty other⟩
  · -- a row that comes back is none of those that are retracted
    rw [hmade.items] at hback
    obtain ⟨pair, hpair, rfl⟩ := List.mem_map.mp hback
    obtain ⟨item, hitem, hmadeBack⟩ := exists_left_of_forall₂ hmade.reactivated hpair
    have houtside := (hsound.lineage item (List.mem_filter.mp hitem).1).2.2.2
    rw [← (reactivateLineageItem_ok hmadeBack).1, hsame] at houtside
    exact absurd hsource houtside

theorem rowTransaction_deletes {call : RowCall} (h : Logged start store log)
    (hapart : call.Apart env store) (hrun : rowTransaction env store call = .ok (next, results))
    (hcommitted : results ≠ []) :
    ∀ expected ∈ call.deletes, ∃ row, next.items.get expected.memoryId = some row ∧
      row.content = none ∧ row.Scrubbed := by
  have hkeyed : KeyedRows store.items := fun _ _ hitem => h.keyed hitem
  cases call with
  | bump now => simp [RowCall.deletes]
  | memory call =>
    cases call with
    | apply call => simp [RowCall.deletes]
    | tombstone call =>
      obtain ⟨⟨next', result⟩, hcall, hanswer⟩ := map_eq_ok hrun
      cases hanswer
      exact tombstoneTransaction_deletes hkeyed hcall
  | replace call =>
    obtain ⟨⟨next', result, results'⟩, hcall, hanswer⟩ := map_eq_ok hrun
    cases hanswer
    simp only [RowCall.deletes]
    split_ifs with hempty
    · obtain ⟨-, hnone⟩ | ⟨plan, commits, replacement, back, added, -, hsound, hmade, -, rfl, -⟩ :=
        replaceConversationSource_ok hkeyed hapart hcall
      · exact absurd hnone hcommitted
      · exact hmade.deletes hsound hempty
    · simp

/-- A privacy deletion is final: the rows that it deletes are left without content and without the
identity of a source, and stay exactly so in every run that goes on from there, whatever applies,
deletions and replacements are in it. -/
theorem deletion_final (env : MemoryEnv) (start : MemoryControlState)
    (calls calls' : List RowCall) (call : RowCall)
    (hapart : ApartRun env (.empty start) (calls ++ call :: calls'))
    {results : List ApplyResult} (hcommitted : results ≠ [])
    (hreply : (rowStep env ((rowTransactions env).state (.empty start) calls) call).2 =
      .ok results) :
    ∀ expected ∈ call.deletes, ∃ row,
      (rowStep env ((rowTransactions env).state (.empty start) calls) call).1.items.get
        expected.memoryId = some row ∧ row.content = none ∧ row.Scrubbed ∧
      ((rowTransactions env).state (.empty start) (calls ++ call :: calls')).items.get
        expected.memoryId = some row := by
  intro expected hexpected
  obtain ⟨hbefore, hcall, hafter⟩ := apartRun_append.mp hapart
  obtain ⟨log, hlog⟩ := hbefore.logged (logged_empty start)
  obtain ⟨commits, hstep⟩ := rowStep_logged hlog hcall
  obtain ⟨more, hend⟩ := ApartRun.logged hstep hafter
  set store := (rowTransactions env).state (.empty start) calls with hstore
  obtain ⟨row, hrow, hcontent, hscrubbed⟩ : ∃ row,
      (rowStep env store call).1.items.get expected.memoryId = some row ∧ row.content = none ∧
        row.Scrubbed := by
    unfold rowStep at hreply ⊢
    cases hrun : rowTransaction env store call with
    | error message =>
      rw [hrun] at hreply
      cases hreply
    | ok answer =>
      obtain ⟨next, results'⟩ := answer
      rw [hrun] at hreply
      cases hreply
      exact rowTransaction_deletes hlog hcall hrun hcommitted expected hexpected
  obtain ⟨row', hrow', hcontinues⟩ := hstep.continues hend hrow
  obtain rfl := hcontinues.eq_of_final hscrubbed
  refine ⟨row', hrow, hcontent, hscrubbed, ?_⟩
  rw [Machine.state_append]
  exact hrow'

/-- The row of `retractTea` stays scrubbed after another bump of the source generation. -/
theorem deletion_final_retractTea : ∃ env : MemoryEnv, ∃ row,
    ((rowTransactions env).state (.empty teaControl) ([.memory (.apply (addTea env))] ++
      .replace (retractTea env) :: [.bump 3])).items.get "a" = some row ∧ row.Scrubbed := by
  obtain ⟨env⟩ := MemoryEnv.nonempty
  obtain ⟨next, result, results, hrun, hsome⟩ := retractTea_run env
  have hreply : (rowStep env ((rowTransactions env).state (.empty teaControl)
      [.memory (.apply (addTea env))]) (.replace (retractTea env))).2 = .ok results := by
    have hcall : rowTransaction env (addedTea env) (.replace (retractTea env)) =
        .ok (next, results) := by
      rw [rowTransaction, hrun]
      rfl
    rw [addTea_rows, rowStep_of_ok hcall]
  have hapart : ApartRun env (.empty teaControl)
      ([.memory (.apply (addTea env))] ++ .replace (retractTea env) :: [.bump 3]) :=
    ⟨addTea_apart env, by simp [RowCall.Apart, retractTea], trivial, trivial⟩
  have hdeleted : shortTea env ∈ (RowCall.replace (retractTea env)).deletes := by
    simp [RowCall.deletes, retractTea]
  obtain ⟨row, -, -, hscrubbed, hrow⟩ := deletion_final env teaControl
    [.memory (.apply (addTea env))] [.bump 3] (.replace (retractTea env)) hapart hsome hreply
    (shortTea env) hdeleted
  exact ⟨env, row, hrow, hscrubbed⟩

end

end Omi.Memory
