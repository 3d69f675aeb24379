import Omi.Memory.GraphFence

/-! Runs of the transactions over memory rows: each transaction keeps the fence between the rows and
their graph assertions, up to the tombstones, which leave the assertion of their row to the
outbox. -/
namespace Omi.Memory
open Omi.Foundation

section
variable {env : MemoryEnv} {store : MemoryStore} {assertions : List MemoryGraphAssertion}
  {item row : MemoryItem} {items : List MemoryItem} {memoryId : String} {result : ApplyResult}

/-! ### Transactions -/

/-- The graph bookkeeping of a call's update, if it is one, is kept. -/
def PatchCall.KeepsGraph (env : MemoryEnv) (store : MemoryStore) (call : PatchCall) : Prop :=
  ∀ existing, readAuthoritativeTargetItem env store.items call.operation = .ok (some existing) →
    UpdateKeepsGraph call.operation call.payload.patch existing

section transactions
variable {next : MemoryStore} {call : PatchCall} {operation : MemoryOperation}
  {existing : MemoryItem}

/-- A row that is read back is the stored one, normalised. -/
theorem readItem_ok (h : readItem env store.items memoryId = .ok (some row)) :
    ∃ item, store.items.get memoryId = some item ∧ row = item.normalized env := by
  unfold readItem at h
  cases hitem : store.items.get memoryId with
  | none => simp [hitem] at h
  | some item =>
    refine ⟨item, rfl, ?_⟩
    simp only [hitem, MemoryItem.construct] at h
    split_ifs at h
    · cases h
      rfl
    · cases h

theorem StoreSound.readItem_trimmed (h : StoreSound store)
    (hread : readItem env store.items memoryId = .ok (some row)) : row.Trimmed := by
  obtain ⟨item, hitem, rfl⟩ := readItem_ok hread
  have htrimmed := h.trimmed memoryId item hitem
  exact ⟨htrimmed.contentHash, htrimmed.memoryId⟩

/-- The row an update reads is one of the targets, which are all active. -/
theorem target_active (htargets : validateAuthoritativeTargets env store operation = .ok ())
    (hread : readAuthoritativeTargetItem env store.items operation = .ok (some existing)) :
    existing.status = .active ∧ ∃ memoryId, readItem env store.items memoryId =
      .ok (some existing) := by
  unfold readAuthoritativeTargetItem at hread
  dsimp only at hread
  split_ifs at hread with hnamed
  swap
  · cases hread
  simp only [Bool.and_eq_true] at hnamed
  set targetId := orText operation.logicalPayload.targetMemoryId operation.targetMemoryId
    with htarget
  obtain ⟨memoryId, hid⟩ : ∃ memoryId, targetId = some memoryId := by
    cases hnone : targetId with
    | none => simp [hnone, present] at hnamed
    | some memoryId => exact ⟨memoryId, rfl⟩
  rw [hid, Option.getD_some] at hread
  refine ⟨?_, memoryId, hread⟩
  have hmem : memoryId ∈ operationTargetIds operation := by
    have hsource : targetId = operation.targetMemoryId ∨
        targetId = operation.logicalPayload.targetMemoryId := by
      rw [htarget, orText]
      split_ifs
      · exact .inr rfl
      · exact .inl rfl
    have hpresent := hnamed.2
    rw [hid] at hsource hpresent
    simp only [operationTargetIds, sortedIds, List.mem_insertionSort, List.mem_dedup,
      List.mem_append, List.mem_filterMap, List.mem_filter, id_eq, exists_eq_right]
    refine .inl ⟨?_, hpresent⟩
    rcases hsource with hsource | hsource <;> simp [hsource]
  have hchecked := forM_eq_ok_iff.mp htargets memoryId hmem
  simp only [validateTarget, hread, liftModel, bind_eq_ok_iff] at hchecked
  obtain ⟨_, hsome, hchecked⟩ := hchecked
  cases hsome
  simp only [bind_eq_ok_iff, check_eq_ok_iff] at hchecked
  obtain ⟨_, -, _, -, hactive⟩ := hchecked
  simpa using hactive

theorem countMigration_rows (call : PatchCall) (result : ApplyResult) :
    (countMigration call result).status = result.status ∧
      (countMigration call result).memoryItems = result.memoryItems ∧
      (countMigration call result).graphAssertions = result.graphAssertions := by
  unfold countMigration
  dsimp only
  split_ifs <;> exact ⟨rfl, rfl, rfl⟩

theorem refuseTakenId_committed (h : (refuseTakenId store call result).status = .committed) :
    refuseTakenId store call result = result := by
  unfold refuseTakenId at h ⊢
  split_ifs at h ⊢
  rfl

/-- A commit of the transaction is one of the apply on the rows it read, with its migration
counted. -/
theorem applyToTargets_result (h : applyToTargets env store call = .ok result)
    (hstatus : result.status = .committed) :
    ∃ existing superseded applied,
      validateAuthoritativeTargets env store call.operation = .ok () ∧
      readAuthoritativeTargetItem env store.items call.operation = .ok existing ∧
      readAuthoritativeSupersededItems env store.items call.operation = .ok superseded ∧
      runApply env store.control call.operation
        (call.payload.authoritative call.evidence existing superseded) call.clock
        call.allowTriggerFeedbackArguments = .ok applied ∧
      refuseTakenId store call applied = applied ∧ result = countMigration call applied := by
  unfold applyToTargets at h
  split at h
  next htargets =>
    simp only [applyAuthoritative, bind_eq_ok_iff] at h
    obtain ⟨existing, hexisting, superseded, hsuperseded, applied, happlied, hresult⟩ := h
    cases hresult
    refine ⟨existing, superseded, applied, htargets, hexisting, hsuperseded, ?_⟩
    rw [(countMigration_rows call (refuseTakenId store call applied)).1] at hstatus
    have hkept := refuseTakenId_committed hstatus
    rw [hkept] at hstatus
    exact ⟨runApply_of_committed happlied hstatus, hkept, by rw [hkept]⟩
  next => cases h
  next refusal hrefused =>
    cases h
    exact absurd hstatus refusal.not_committed

/-- A commit of the transaction has the rows of the apply. -/
theorem applyToTargets_committed (h : applyToTargets env store call = .ok result)
    (hstatus : result.status = .committed) :
    ∃ existing superseded applied,
      validateAuthoritativeTargets env store call.operation = .ok () ∧
      readAuthoritativeTargetItem env store.items call.operation = .ok existing ∧
      readAuthoritativeSupersededItems env store.items call.operation = .ok superseded ∧
      runApply env store.control call.operation
        (call.payload.authoritative call.evidence existing superseded) call.clock
        call.allowTriggerFeedbackArguments = .ok applied ∧
      result.memoryItems = applied.memoryItems ∧
      result.graphAssertions = applied.graphAssertions := by
  obtain ⟨existing, superseded, applied, htargets, hexisting, hsuperseded, hrun, -, rfl⟩ :=
    applyToTargets_result h hstatus
  obtain ⟨-, hrows, hgraph⟩ := countMigration_rows call applied
  exact ⟨existing, superseded, applied, htargets, hexisting, hsuperseded, hrun, hrows, hgraph⟩

theorem applyPatchTransaction_sound (h : StoreSound store)
    (hrun : applyPatchTransaction env store call = .ok (next, result))
    (hkept : result.status = .committed → call.KeepsGraph env store) : StoreSound next := by
  simp only [applyPatchTransaction, bind_eq_ok_iff] at hrun
  obtain ⟨replay, hreplay, hrun⟩ := hrun
  split_ifs at hrun with hskip
  · cases hrun
    exact h
  · obtain ⟨answer, hanswer, hresult⟩ := bind_eq_ok_iff.mp hrun
    cases hresult
    refine h.writeApplyResult fun hcommitted => ?_
    obtain ⟨existing, superseded, applied, htargets, hexisting, hsuperseded, hrun, hrows, hgraph⟩ :=
      applyToTargets_committed hanswer hcommitted
    rw [hrows, hgraph]
    refine (h.withControl _).writeItems (commit_writesFenced hrun ?_ ?_)
    · intro row hrow
      have hread : existing = some row := hrow
      rw [hread] at hexisting
      obtain ⟨hactive, memoryId, hitem⟩ := target_active htargets hexisting
      exact ⟨by simp [hactive], h.readItem_trimmed hitem, hkept hcommitted row hexisting⟩
    · intro row hrow
      simp only [PatchPayload.authoritative] at hrow
      split_ifs at hrow
      · cases hrow
      simp only [readAuthoritativeSupersededItems, bind_eq_ok_iff, mapM_eq_ok_iff] at hsuperseded
      obtain ⟨read, hread, hrows⟩ := hsuperseded
      cases hrows
      obtain ⟨found, hfound, hsome⟩ := List.mem_filterMap.mp hrow
      obtain ⟨memoryId, -, hitem⟩ := exists_left_of_forall₂ hread hfound
      rw [id_eq] at hsome
      rw [hsome] at hitem
      exact h.readItem_trimmed hitem

/-- A tombstone is one revision on from a live row of its id. -/
theorem tombstoneResult_ok {call : TombstoneCall}
    (h : tombstoneResult env store call = .ok result) :
    result.graphAssertions = [] ∧ ∀ row ∈ result.memoryItems,
      row.status = .tombstoned ∧ row.graphReady = false ∧ row.contentHash = none ∧
      ∃ memoryId item, store.items.get memoryId = some item ∧ item.status ≠ .tombstoned ∧
        row.memoryId = item.memoryId ∧ row.itemRevision = item.itemRevision + 1 := by
  simp only [tombstoneResult, bind_eq_ok_iff, mapM_eq_ok_iff] at h
  obtain ⟨_, -, _, -, _, -, rows, hrows, operation, -, tombstones, htombstones, _, -, marked, -,
    hresult⟩ := h
  cases hresult
  refine ⟨rfl, fun row hrow => ?_⟩
  obtain ⟨read, hread, htombstone⟩ := exists_left_of_forall₂ htombstones hrow
  obtain ⟨evidence, -, hmade⟩ := bind_eq_ok_iff.mp htombstone
  cases hmade
  obtain ⟨memoryId, -, hexpected⟩ := exists_left_of_forall₂ hrows hread
  obtain ⟨found, hfound, hchecked⟩ := bind_eq_ok_iff.mp hexpected
  cases found with
  | none => cases hchecked
  | some found =>
    simp only [bind_eq_ok_iff, check_eq_ok_iff, Bool.and_eq_true, decide_eq_true_eq] at hchecked
    obtain ⟨_, ⟨⟨-, hlive⟩, -⟩, hsame⟩ := hchecked
    cases hsame
    obtain ⟨item, hitem, rfl⟩ := readItem_ok hfound
    exact ⟨rfl, rfl, rfl, memoryId, item, hitem, hlive, rfl, rfl⟩

theorem tombstoneTransaction_sound {call : TombstoneCall} (h : StoreSound store)
    (hrun : tombstoneTransaction env store call = .ok (next, result)) : StoreSound next := by
  obtain ⟨answer, hanswer, hresult⟩ := bind_eq_ok_iff.mp hrun
  cases hresult
  obtain ⟨hnone, htombstones⟩ := tombstoneResult_ok hanswer
  refine h.writeApplyResult fun _ => ?_
  rw [hnone]
  refine (h.withControl _).writeTombstones fun row hrow => ?_
  obtain ⟨hstatus, hready, hhash, memoryId, item, hitem, hlive, hid, hrevision⟩ :=
    htombstones row hrow
  refine ⟨hstatus, ⟨by simp [hhash], by simp [hready]⟩, fun assertion hassertion => ?_⟩
  rw [hid, h.keyed memoryId item hitem] at hassertion
  have hfenced := h.rows memoryId item hitem
  rw [RowFenced, if_neg hlive] at hfenced
  rw [hfenced.revision assertion hassertion, hrevision]

end transactions

/-! ### Runs -/

/-- A call keeps the bookkeeping of the graph; a tombstone does so by itself. -/
def MemoryCall.KeepsGraph (env : MemoryEnv) (store : MemoryStore) : MemoryCall → Prop
  | .apply call => call.KeepsGraph env store
  | .tombstone _ => True

theorem memoryStep_sound {call : MemoryCall} (h : StoreSound store)
    (hkept : (committedReply (memoryStep env store call).2).isSome = true →
      call.KeepsGraph env store) :
    StoreSound (memoryStep env store call).1 := by
  unfold memoryStep at hkept ⊢
  cases hrun : runTransaction env store call with
  | error message => exact h
  | ok answer =>
    obtain ⟨next, result⟩ := answer
    rw [hrun] at hkept
    cases call with
    | tombstone call => exact tombstoneTransaction_sound h hrun
    | apply call =>
      refine applyPatchTransaction_sound h hrun fun hstatus => hkept ?_
      simp [committedReply, hstatus]

/-- A store without rows. -/
def MemoryStore.empty (control : MemoryControlState) : MemoryStore :=
  { control := control, items := [] }

theorem empty_sound (control : MemoryControlState) : StoreSound (.empty control) := by
  refine ⟨⟨?_, ?_⟩, ?_, ?_⟩ <;> intro memoryId _ h <;> cases h

/-- In every run from a store without rows whose committed updates keep the bookkeeping of the
graph, an assertion document is there exactly for the active rows of the graph, and of their
revision and content; only a tombstone may still have the assertion of the revision before it. -/
theorem graphFenced (env : MemoryEnv) (control : MemoryControlState) (calls : List MemoryCall)
    (hkept : EveryStep (fun store call => (memoryStep env store call).1)
      (fun store call => (committedReply (memoryStep env store call).2).isSome = true →
        call.KeepsGraph env store) (.empty control) calls) :
    GraphFencedToTombstones ((memoryTransactions env).state (.empty control) calls) := by
  have hsound : StoreSound ((memoryTransactions env).state (.empty control) calls) := by
    apply Machine.invariant_of_everyStep hkept
    · intro store call h hstep
      exact memoryStep_sound h hstep
    · exact empty_sound control
  exact hsound.toGraphFencedToTombstones

end

/-! ### A tombstone over a promoted row -/

section
variable (env : MemoryEnv)

/-- An operation on the one evidence record. -/
def teaOperation (operationType : MemoryOperationType) (targetMemoryId : Option String)
    (logicalPayload : OperationLogicalPayload) (now : ℤ) : MemoryOperation :=
  .new env.toContractHash
    { operationId := ""
      uid := "u"
      operationType := operationType
      evidenceIds := ["e"]
      targetMemoryId := targetMemoryId
      logicalPayload := logicalPayload
      logicalPayloadDigest := ""
      accountGeneration := 0
      sourceGeneration := 0
      createdAt := now
      updatedAt := now } now

def teaRecord : EvidenceObject := ⟨teaEvidence, by decide⟩

/-- A new short-term row "a". -/
def addTea : PatchCall where
  operation := teaOperation env .sourceCandidate none
    { decision := "add", memoryText := some "tea", resultStatus := some "active" } 0
  payload :=
    { patch :=
        { patchId := "p1"
          idempotencyKey := "k1"
          decision := .add
          resultStatus := .active
          evidenceIds := ["e"]
          newMemoryId := some "a"
          memoryText := some "tea" } }
  clock := ⟨1, 1, fun _ => 1, fun _ => 1, 1⟩
  evidence := [teaRecord]

def likesTea : PyDict := [("object", .str "tea")]

def teaPlan : PyDict :=
  [("subject_entity_id", .str "user"), ("predicate", .str "likes"), ("arguments", .dict likesTea)]

/-- The plan under a hash. -/
def teaGraphPlan (planHash : String) : PromotionGraphPlan :=
  { subjectEntityId := "user", predicate := "likes", arguments := likesTea, planHash := planHash }

def teaPlanHash : String :=
  env.contractId "canonical-promotion-graph-plan" (teaGraphPlan "").hashPayload

/-- The promotion of that row, with the plan and the receipt it needs. -/
def promoteTea : PatchCall where
  operation := teaOperation env .synthesis (some "a")
    { decision := "update", targetMemoryId := some "a", resultStatus := some "active",
      arguments := likesTea } 1
  payload :=
    { patch :=
        { patchId := "p2"
          idempotencyKey := "k2"
          decision := .update
          resultStatus := .active
          evidenceIds := ["e"]
          targetMemoryId := some "a"
          targetTier := some .longTerm
          subjectEntityId := some "user"
          predicate := some "likes"
          arguments := likesTea }
      audit := .dict
        [("graph_plan", .dict teaPlan),
          ("admission_receipt", .dict
            [("memory_id", .str "a"), ("source_item_revision", .int 1),
              ("output_content_hash", .str (memoryContentHash env (some "tea") ["e"])),
              ("evidence_ids", strings ["e"]),
              ("graph_plan_hash", .str (teaPlanHash env))])] }
  clock := ⟨2, 2, fun _ => 2, fun _ => 2, 2⟩
  evidence := [teaRecord]

end

theorem likesTea_normalized (env : MemoryEnv) {requireNonempty : Bool} :
    validateAndNormalizeArguments env (.dict likesTea) requireNonempty = some likesTea := by
  have htext : (PyVal.dict likesTea).jsonText env.scalars = "\x7b\"object\":\"tea\"\x7d" := by rfl
  have hnormal : normalizedArguments likesTea = some likesTea := by rfl
  have hfits : jsonValueFits 0 (.dict likesTea) = true := by rfl
  simp [validateAndNormalizeArguments, PyVal.dict?, hnormal, hfits, htext]
  simp [likesTea]

theorem noArguments_normalized (env : MemoryEnv) :
    validateAndNormalizeArguments env (.dict []) false = some [] := by
  have hfits : jsonValueFits 0 (.dict []) = true := by rfl
  have htext : (PyVal.dict []).jsonText env.scalars = "\x7b\x7d" := by rfl
  simp [validateAndNormalizeArguments, PyVal.dict?, normalizedArguments, hfits, htext]

theorem teaGraphPlan_made {env : MemoryEnv} {planHash : String}
    (h : planHash = "" ∨ planHash = teaPlanHash env) :
    PromotionGraphPlan.make env (teaGraphPlan planHash) =
      some (teaGraphPlan (teaPlanHash env)) := by
  have hsubject : boundedText 200 "user" = some "user" := by decide
  have hpredicate : boundedText 64 "likes" = some "likes" := by decide
  have hsettled : (teaGraphPlan planHash).settledArguments = some likesTea := by rfl
  have hguard : (decide (planHash = "") || decide (planHash = teaPlanHash env)) = true := by
    simpa using h
  simp only [PromotionGraphPlan.make, Option.bind_eq_bind, Option.bind_eq_some_iff]
  refine ⟨"user", hsubject, "likes", hpredicate, likesTea, likesTea_normalized env, [],
    noArguments_normalized env, likesTea, hsettled, (), if_pos hguard, rfl⟩

theorem teaPlan_parse (env : MemoryEnv) :
    PromotionGraphPlan.parse env teaPlan = some (teaGraphPlan (teaPlanHash env)) := by
  rw [← teaGraphPlan_made (.inl rfl)]
  rfl

/-- The admission that comes with the promotion is valid for the row. -/
theorem promoteTea_admitted (env : MemoryEnv) :
    validPromotionAdmission env
      { memoryId := "a"
        sourceItemRevision := 1
        outputContentHash := memoryContentHash env (some "tea") ["e"]
        evidenceIds := ["e"]
        subjectEntityId := some "user"
        predicate := some "likes"
        arguments := likesTea
        supersedes := [] } ((promoteTea env).payload.promotionAudit.getD []) = true := by
  let receipt : PromotionAdmissionReceipt :=
    { memoryId := "a"
      sourceItemRevision := 1
      outputContentHash := memoryContentHash env (some "tea") ["e"]
      evidenceIds := ["e"]
      graphPlanHash := teaPlanHash env
      supersedes := [] }
  have hreceipt : PromotionAdmissionReceipt.parse env
      [("memory_id", .str "a"), ("source_item_revision", .int 1),
        ("output_content_hash", .str (memoryContentHash env (some "tea") ["e"])),
        ("evidence_ids", strings ["e"]), ("graph_plan_hash", .str (teaPlanHash env))] =
      some receipt := by
    have hid : requiredText "a" = some "a" := by decide
    have hevidence : normalizedIds ["e"] = ["e"] := by decide
    simp only [PromotionAdmissionReceipt.parse, Option.bind_eq_bind, Option.bind_eq_some_iff]
    refine ⟨(), rfl, "", rfl, "a", ⟨"a", rfl, hid⟩, 1, rfl, _, ⟨_, rfl, contractId_required _ _ _⟩,
      ["e"], rfl, _, ⟨_, rfl, contractId_required _ _ _⟩, [], rfl, (), ?_, (), ?_, ?_⟩
    · rfl
    · rfl
    · rfl
  refine (Option.any_eq_true _ _).mpr ⟨(teaGraphPlan (teaPlanHash env), receipt, likesTea), ?_, ?_⟩
  · simp only [Option.bind_eq_bind, Option.bind_eq_some_iff]
    exact ⟨_, ⟨teaPlan, rfl, teaPlan_parse env⟩, _, ⟨_, rfl, hreceipt⟩, _, likesTea_normalized env,
      rfl⟩
  · have harguments : (PyVal.dict likesTea).deepEq (.dict likesTea) = true := by decide
    simp [receipt, teaGraphPlan, harguments, sortedIds]

section
variable (env : MemoryEnv)

/-- The row that is added. -/
def shortTea : MemoryItem :=
  (materializedRow env teaControl (addTea env).operation (addTea env).payload [teaEvidence]
    (commitPoint env teaControl (addTea env).operation) 1).normalized env

/-- A private row that says something, on one active record, passes its validators. -/
theorem plainRow_valid {item : MemoryItem} {record : MemoryEvidence} {text : String}
    (hid : isBlank item.memoryId = false) (huid : isBlank item.uid = false)
    (htold : isBlank text = false) (hrecord : record.valid = true)
    (hactive : record.sourceState = .active) (hvisibility : item.visibility = "private")
    (hversion : 1 ≤ item.version) (hcontent : item.content = some text)
    (hevidence : item.evidence = [record]) (htimes : item.capturedAt ≤ item.updatedAt)
    (hexpiry : item.expiryValid = true) (hlong : item.longTermValid = true)
    (hplain : item.ledgerFields = { validFrom := some item.capturedAt })
    (hmisfits : item.misfits = {}) (hpromotion : item.oddPromotion = none) :
    item.valid env = true := by
  have hprivate : isBlank "private" = false := by decide
  simp only [MemoryItem.ledgerFields, LedgerFields.mk.injEq] at hplain
  obtain ⟨hschema, hkind, -, hslot, hbody, hfrom, hto, hweight, hcondition, -, -⟩ := hplain
  have hreadable : item.readable env = true := by
    rw [MemoryItem.readable, hmisfits, hpromotion]
    rfl
  have hread := item.reread_eq_self env hmisfits hpromotion
  simp only [MemoryItem.valid, MemoryItem.checks, MemoryItem.normalized, hread, Bool.and_eq_true]
  refine ⟨hreadable, ⟨⟨⟨⟨⟨⟨⟨⟨?_, decide_eq_true htimes⟩, ?_⟩, hexpiry⟩, hlong⟩, ?_⟩, ?_⟩, ?_⟩, ?_⟩⟩
  · simp [MemoryItem.fieldsValid, triggerConditionFits_nil, hid, huid, hvisibility, hversion,
      hweight, hcondition, hevidence, hrecord, hprivate]
  · simp [MemoryItem.contentValid, saysNothing, hcontent, htold]
  · simp [MemoryItem.sourceValid, hevidence, hactive]
  · simp [MemoryItem.validityValid, hto]
  · simp [MemoryItem.kindValid, hkind, hcondition]
  · simp [MemoryItem.ledgerValid, hschema, knowledgeLedger]

/-- What the row "a" has to pass them. -/
theorem tea_nonblank : isBlank "a" = false ∧ isBlank "u" = false ∧ isBlank "tea" = false ∧
    teaEvidence.valid = true ∧ teaEvidence.sourceState = .active := by
  decide

theorem materializedTea_valid :
    (materializedRow env teaControl (addTea env).operation (addTea env).payload [teaEvidence]
      (commitPoint env teaControl (addTea env).operation) 1).valid env = true := by
  obtain ⟨hid, huid, htold, hrecord, hactive⟩ := tea_nonblank
  apply plainRow_valid env hid huid htold hrecord hactive <;> rfl

theorem addTea_items (records : List EvidenceObject) :
    appliedItems env teaControl (addTea env).operation
      ((addTea env).payload.authoritative records none []) [teaEvidence] (addTea env).clock
      false = .ok ([shortTea env], []) := by
  have hmade : materializeMemoryItem env teaControl (addTea env).operation
      ((addTea env).payload.authoritative records none []) [teaEvidence]
      (commitPoint env teaControl (addTea env).operation) 1 = .ok (shortTea env) := by
    simp only [materializeMemoryItem, bind_eq_ok_iff, liftModel_eq_ok_iff,
      MemoryItem.construct_eq_ok_iff]
    exact ⟨(), rfl, _, ⟨materializedTea_valid env, rfl⟩, rfl⟩
  refine bind_eq_ok_iff.mpr ⟨(shortTea env, false), ?_, rfl⟩
  exact bind_eq_ok_iff.mpr ⟨_, hmade, rfl⟩

theorem shortTea_read : (shortTea env).construct env = .ok (shortTea env) := by
  have hvalid := MemoryItem.valid_normalized (materializedTea_valid env)
  exact if_pos hvalid

variable {env}

/-- A call that is no replay writes the commit of its apply on the authoritative rows. -/
theorem applyPatchTransaction_of_run {store : MemoryStore} {call : PatchCall}
    {replay result : ApplyResult} {existing : Option MemoryItem} {superseded : List MemoryItem}
    (hreplay : applyLongTermPatchTransaction env store.control call.operation call.payload
      call.clock = .ok replay) (hfresh : replay.status ∉ replayed)
    (htargets : validateAuthoritativeTargets env store call.operation = .ok ())
    (hexisting : readAuthoritativeTargetItem env store.items call.operation = .ok existing)
    (hsuperseded : readAuthoritativeSupersededItems env store.items call.operation =
      .ok superseded)
    (hrun : runApply env store.control call.operation
      (call.payload.authoritative call.evidence existing superseded) call.clock
      call.allowTriggerFeedbackArguments = .ok result)
    (huntaken : refuseTakenId store call result = result)
    (hplain : call.allowLedgerMigration = false) :
    applyPatchTransaction env store call = .ok (store.writeApplyResult result, result) := by
  have happlied : applyToTargets env store call = .ok result := by
    rw [applyToTargets, htargets]
    refine bind_eq_ok_iff.mpr ⟨existing, hexisting, ?_⟩
    refine bind_eq_ok_iff.mpr ⟨superseded, hsuperseded, ?_⟩
    refine bind_eq_ok_iff.mpr ⟨result, apply_of_run hrun, ?_⟩
    rw [huntaken, countMigration, hplain, Bool.and_false]
    rfl
  refine bind_eq_ok_iff.mpr ⟨replay, hreplay, ?_⟩
  rw [if_neg hfresh]
  exact bind_eq_ok_iff.mpr ⟨result, happlied, rfl⟩

variable (env)

/-- The store with the new row. -/
def addedTea : MemoryStore where
  control := teaControl.advanceHead (commitPoint env teaControl (addTea env).operation).commitId 1
  items := [("a", shortTea env)]

/-- An apply of the new row commits it, with any records of its evidence. -/
theorem addTea_run (records : List EvidenceObject)
    (hevidence : proposedEvidence ((addTea env).payload.authoritative records none []) =
      .ok [teaEvidence]) :
    ∃ result, runApply env teaControl (addTea env).operation
      ((addTea env).payload.authoritative records none []) (addTea env).clock false =
        .ok result := by
  have hpatch : checkPatch env (addTea env).operation
      ((addTea env).payload.authoritative records none []) = .ok () := by
    apply checkPatch_new <;> rfl
  have huid : isBlank "u" = false := by decide
  have hnow : (0 : ℤ) ≤ 1 := by decide
  have hadd : DurablePatchDecision.add ≠ .skipDuplicate := by decide
  obtain ⟨result, hrun, -⟩ := runApply_new huid le_rfl le_rfl le_rfl hnow hevidence hpatch rfl hadd
    (addTea_items env records) rfl
  exact ⟨result, hrun⟩

theorem addTea_step : ∃ result,
    applyPatchTransaction env (.empty teaControl) (addTea env) = .ok (addedTea env, result) ∧
      result.status = .committed := by
  obtain ⟨replay, hreplay⟩ := addTea_run env [] rfl
  obtain ⟨result, hrun⟩ := addTea_run env [teaRecord] rfl
  have hstatus := runApply_committed hrun
  have hadd : DurablePatchDecision.add ≠ .skipDuplicate := by decide
  obtain ⟨hrows, hassertions, hcontrol⟩ := runApply_items hrun rfl hadd
    (addTea_items env [teaRecord])
  refine ⟨result, ?_, hstatus⟩
  have hwritten : (MemoryStore.empty teaControl).writeApplyResult result = addedTea env := by
    rw [MemoryStore.writeApplyResult, if_neg (not_not.mpr hstatus), hrows, hassertions, hcontrol]
    rfl
  rw [← hwritten]
  refine applyPatchTransaction_of_run (apply_of_run hreplay) ?_ rfl rfl rfl hrun ?_ rfl
  · rw [runApply_committed hreplay]
    decide
  · rw [refuseTakenId, if_neg]
    simp [MemoryStore.empty, addTea, Table.get]

/-- The commit of the promotion. -/
def promotionPoint : CommitPoint :=
  commitPoint env (addedTea env).control (promoteTea env).operation

def promotePayload : PatchPayload :=
  (promoteTea env).payload.authoritative [teaRecord] (some (shortTea env)) []

theorem promoteTea_checked : checkUpdate env (addedTea env).control (promoteTea env).operation
    (promotePayload env) [teaEvidence] false = .ok (shortTea env) := by
  have hpromotion : checkPromotion env (promoteTea env).operation (promotePayload env)
      (shortTea env) [teaEvidence] = .ok () := by
    simp only [checkPromotion, bind_eq_ok_iff, check_eq_ok_iff, Bool.and_eq_true]
    exact ⟨(), rfl, promoteTea_admitted env, rfl⟩
  have htransition : checkTransition env (promoteTea env).operation (promotePayload env)
      (shortTea env) [teaEvidence] = .ok () := by
    have hmoves : transitionsToLongTerm (shortTea env) (promotePayload env).patch = true := rfl
    exact (if_pos hmoves).trans hpromotion
  unfold checkUpdate
  have hrow : (promotePayload env).existingItem = some (shortTea env) := rfl
  simp only [hrow, bind_eq_ok_iff, check_eq_ok_iff]
  exact ⟨(), rfl, (), rfl, (), rfl, (), rfl, (), rfl, (), htransition, rfl⟩

/-- The promoted row, but for its assertion. -/
def longTea : MemoryItem :=
  updatedMemoryItem env (shortTea env) (promotePayload env) [teaEvidence] (promotionPoint env) 2

/-- The same with an assertion. -/
def graphTea (assertion : MemoryGraphAssertion) : MemoryItem :=
  { longTea env with
    graphReady := true
    graphAssertionId := some assertion.assertionId
    graphPlanHash := some (teaPlanHash env)
    kgExtracted := true }

theorem longTea_attached : ∃ assertion, assertion.memoryId = "a" ∧ assertion.assertionId ≠ "" ∧
    teaPlanHash env ≠ "" ∧
    attachGraphAssertion env (promoteTea env).operation (promotionPoint env) (longTea env) =
      .ok (graphTea env assertion, [assertion]) := by
  have hplan : ((longTea env).promotionRecord.get "graph_plan").dict? = some teaPlan := rfl
  have hcommit : ∃ commitId, requiredText (promotionPoint env).commitId = some commitId := by
    refine ⟨_, if_neg ?_⟩
    simp [promotionPoint, commitPoint, MemoryControlState.nextCommitId, isBlank, isPySpace]
  obtain ⟨commitId, hcommit⟩ := hcommit
  have htexts : requiredText "u" = some "u" ∧ requiredText "a" = some "a" := by decide
  have hbuild : ∃ assertion, buildMemoryGraphAssertion env "u" "a" 2
      (memoryContentHash env (some "tea") ["e"]) ["e"] (teaGraphPlan (teaPlanHash env))
      (promotionPoint env).commitId 2 2 = some assertion := by
    simp only [buildMemoryGraphAssertion, Option.bind_eq_bind, Option.bind_eq_some_iff]
    exact ⟨_, "u", htexts.1, "a", htexts.2, _, contractId_required _ _ _, commitId, hcommit, _,
      contractId_required _ _ _, (), rfl, _, teaGraphPlan_made (.inr rfl), rfl⟩
  obtain ⟨assertion, hbuild⟩ := hbuild
  obtain ⟨hmemory, -, -, -, hid, hhash⟩ := buildMemoryGraphAssertion_ok hbuild
  refine ⟨assertion, hmemory, hid, hhash, ?_⟩
  have hrow : ((longTea env).assertedAt env).bind
      (buildMemoryGraphAssertion env (promoteTea env).operation.uid (longTea env).memoryId
        (longTea env).itemRevision ((longTea env).contentHash.getD "")
        (evidenceIdsOf (longTea env).evidence) (teaGraphPlan (teaPlanHash env))
        (promotionPoint env).commitId (promotionPoint env).sequence) = some assertion := by
    have hasserted : (longTea env).assertedAt env = some 2 := rfl
    rw [hasserted, Option.bind_some]
    exact hbuild
  simp only [attachGraphAssertion, hplan, teaPlan_parse, hrow]
  rfl

theorem graphTea_valid {assertion : MemoryGraphAssertion} (hid : assertion.assertionId ≠ "")
    (hplan : teaPlanHash env ≠ "") : (graphTea env assertion).valid env = true := by
  have hlong : (graphTea env assertion).longTermValid = true := by
    have hcommit : (graphTea env assertion).ledgerCommitId =
        some (promotionPoint env).commitId := rfl
    have hsequence : (graphTea env assertion).ledgerSequence = some 2 := rfl
    have hprocessed : (graphTea env assertion).processingState = .processed := rfl
    have hpoint : (promotionPoint env).commitId ≠ "" := by
      simp [promotionPoint, commitPoint, MemoryControlState.nextCommitId]
    have hgraph : (graphTea env assertion).graphFieldsPresent = true := by
      simp [MemoryItem.graphFieldsPresent, graphTea, hid, hplan]
    simp [MemoryItem.longTermValid, hcommit, hsequence, hprocessed, hpoint, hgraph]
  have hlater : (1 : ℤ) ≤ 2 := by decide
  obtain ⟨hblank, hblank', htold, hrecord, hactive⟩ := tea_nonblank
  exact plainRow_valid env hblank hblank' htold hrecord hactive rfl hlater rfl rfl hlater rfl hlong
    rfl rfl rfl

theorem promoteTea_items : ∃ assertion, assertion.memoryId = "a" ∧
    (graphTea env assertion).valid env = true ∧
    appliedItems env (addedTea env).control (promoteTea env).operation (promotePayload env)
      [teaEvidence] (promoteTea env).clock false = .ok ([graphTea env assertion], [assertion]) := by
  obtain ⟨assertion, hmemory, hid, hplan, hattached⟩ := longTea_attached env
  refine ⟨assertion, hmemory, graphTea_valid env hid hplan, ?_⟩
  have hchanged : changedItem env (addedTea env).control (promoteTea env).operation
      (promotePayload env) [teaEvidence] (promotionPoint env) 2 false =
        .ok (longTea env, true) := by
    refine (if_pos rfl).trans ?_
    refine bind_eq_ok_iff.mpr ⟨shortTea env, promoteTea_checked env, ?_⟩
    rfl
  refine bind_eq_ok_iff.mpr ⟨_, hchanged, ?_⟩
  exact bind_eq_ok_iff.mpr ⟨_, hattached, rfl⟩

/-- The store with the row promoted. -/
def promotedTea (assertion : MemoryGraphAssertion) : MemoryStore where
  control := (addedTea env).control.advanceHead (promotionPoint env).commitId 2
  items := [("a", graphTea env assertion)]
  assertions := [("a", assertion)]

/-- Without the row there is nothing to update. -/
theorem promoteTea_replay : ∃ replay, applyLongTermPatchTransaction env (addedTea env).control
    (promoteTea env).operation (promoteTea env).payload (promoteTea env).clock = .ok replay ∧
      replay.status = .invalidPatch := by
  have hevidence : proposedEvidence (promoteTea env).payload = .ok [teaEvidence] := rfl
  have hpatch : checkPatch env (promoteTea env).operation (promoteTea env).payload = .ok () := by
    apply checkPatch_new <;> rfl
  have hrefused : runApply env (addedTea env).control (promoteTea env).operation
      (promoteTea env).payload (promoteTea env).clock false =
        .error (refuse (promoteTea env).operation .invalidPatch
          "update patch requires authoritative existing_item") := by
    simp only [runApply, hevidence, hpatch]
    rfl
  exact ⟨_, apply_of_refused hrefused, rfl⟩

theorem promoteTea_step : ∃ assertion result, assertion.memoryId = "a" ∧
    (graphTea env assertion).valid env = true ∧
    applyPatchTransaction env (addedTea env) (promoteTea env) =
      .ok (promotedTea env assertion, result) ∧ result.status = .committed := by
  obtain ⟨replay, hreplay, hinvalid⟩ := promoteTea_replay env
  obtain ⟨assertion, hmemory, hvalid, hitems⟩ := promoteTea_items env
  have hpatch : checkPatch env (promoteTea env).operation (promotePayload env) = .ok () := by
    apply checkPatch_new <;> rfl
  have huid : isBlank "u" = false := by decide
  have hnow : (1 : ℤ) ≤ 2 := by decide
  have hupdate : DurablePatchDecision.update ≠ .skipDuplicate := by decide
  have hsequence : (0 : ℤ) ≤ 1 := by decide
  obtain ⟨result, hrun, -⟩ := runApply_new huid le_rfl le_rfl hsequence hnow rfl hpatch rfl
    hupdate hitems rfl
  have hstatus := runApply_committed hrun
  obtain ⟨hrows, hassertions, hcontrol⟩ := runApply_items hrun rfl hupdate hitems
  refine ⟨assertion, result, hmemory, hvalid, ?_, hstatus⟩
  have hwritten : (addedTea env).writeApplyResult result = promotedTea env assertion := by
    rw [MemoryStore.writeApplyResult, if_neg (not_not.mpr hstatus), hrows, hassertions, hcontrol]
    have hmatch : matchingAssertion [assertion] (graphTea env assertion) = some assertion := by
      simp [matchingAssertion, hmemory]
      rfl
    simp only [List.foldl_cons, List.foldl_nil, MemoryStore.writeItem, hmatch]
    rfl
  rw [← hwritten]
  have hread : readItem env (addedTea env).items "a" = .ok (some (shortTea env)) := by
    have hget : (addedTea env).items.get "a" = some (shortTea env) := rfl
    rw [readItem, hget]
    dsimp only
    rw [shortTea_read]
    rfl
  have htargets : validateAuthoritativeTargets env (addedTea env) (promoteTea env).operation =
      .ok () := by
    have hids : operationTargetIds (promoteTea env).operation = ["a"] := by rfl
    rw [validateAuthoritativeTargets, hids, forM_eq_ok_iff, List.forall_mem_singleton,
      validateTarget, hread]
    rfl
  have huntaken : refuseTakenId (addedTea env) (promoteTea env) result = result := by
    have hdecision : (promoteTea env).operation.logicalPayload.decision = "update" := rfl
    rw [refuseTakenId, if_neg]
    simp [hdecision, DurablePatchDecision.text]
  refine applyPatchTransaction_of_run hreplay ?_ htargets hread rfl hrun huntaken rfl
  rw [hinvalid]
  decide

/-- The tombstone of that row. -/
def forgetTea : TombstoneCall where
  uid := "u"
  reason := "forget"
  observedControl := (addedTea env).control.advanceHead (promotionPoint env).commitId 2
  expectedItems := [longTea env]
  deletionGateToken := "t"
  evidence := [teaRecord]
  opened := 3
  head := 3
  now := 3
  marked := 3

variable {env} {assertion : MemoryGraphAssertion}

theorem forgetTea_result (hvalid : (graphTea env assertion).valid env = true) :
    ∃ result tombstone,
      tombstoneResult env (promotedTea env assertion) (forgetTea env) = .ok result ∧
      result.status = .committed ∧ result.memoryItems = [tombstone] ∧
      result.graphAssertions = [] ∧ tombstone.memoryId = "a" ∧ tombstone.status = .tombstoned := by
  have huid : isBlank "u" = false := by decide
  have hread : readItem env (promotedTea env assertion).items "a" =
      .ok (some (graphTea env assertion)) := by
    have hget : (promotedTea env assertion).items.get "a" = some (graphTea env assertion) := rfl
    rw [readItem, hget]
    dsimp only
    rw [MemoryItem.construct, if_pos hvalid]
    rfl
  have hexpected : expectedRow env (promotedTea env assertion) (forgetTea env) "a" =
      .ok (graphTea env assertion) := by
    have hfound : (forgetTea env).expectedItems.find? (·.memoryId = "a") = some (longTea env) := rfl
    have hlive : (graphTea env assertion).status ≠ .tombstoned := by
      have hactive : (graphTea env assertion).status = .active := rfl
      simp [hactive]
    refine bind_eq_ok_iff.mpr ⟨_, hread, ?_⟩
    simp only [bind_eq_ok_iff, check_eq_ok_iff, Bool.and_eq_true, decide_eq_true_eq, hfound,
      Option.any_some]
    exact ⟨(), ⟨⟨rfl, hlive⟩, ⟨rfl, rfl⟩, rfl⟩, rfl⟩
  have hrows : (sortedIds ((forgetTea env).expectedItems.map (·.memoryId))).mapM
      (expectedRow env (promotedTea env assertion) (forgetTea env)) =
        .ok [graphTea env assertion] := by
    have hids : sortedIds ((forgetTea env).expectedItems.map (·.memoryId)) = ["a"] := by rfl
    rw [hids, mapM_eq_ok_iff]
    exact .cons hexpected .nil
  have hoperation : (deletionOperation env (promotedTea env assertion) (forgetTea env)
      [graphTea env assertion]).construct env.toContractHash =
        .ok (deletionOperation env (promotedTea env assertion) (forgetTea env)
          [graphTea env assertion]) :=
    MemoryOperation.construct_new huid le_rfl le_rfl
  have hcommit : isBlank (privacyCommitPoint env (promotedTea env assertion)
      (forgetTea env)).commitId = false := by
    simp [privacyCommitPoint, isBlank, isPySpace]
  have hsequence : (0 : ℤ) ≤ 3 := by decide
  let operation := deletionOperation env (promotedTea env assertion) (forgetTea env)
    [graphTea env assertion]
  let point := privacyCommitPoint env (promotedTea env assertion) (forgetTea env)
  have hmarked : ∃ marked, operation.markCommitted env.toContractHash point.commitId point.sequence
      ["a"] ([MemoryOutboxEventType.projectionSync, .vectorSync].map fun eventType =>
        outboxEventId env eventType point.commitId (some "a") operation.operationId) 3 =
          .ok marked := by
    apply MemoryOperation.markCommitted_new
    · exact huid
    · exact le_rfl
    · exact le_rfl
    · exact hcommit
    · exact hsequence
    · exact le_rfl
  obtain ⟨marked, hmarked⟩ := hmarked
  have hreason : isBlank "forget" = false := by decide
  simp only [tombstoneResult, bind_eq_ok_iff, check_eq_ok_iff]
  refine ⟨_, _, ⟨(), ?_, (), ?_, (), ?_, _, hrows, _, hoperation, _, rfl, (), rfl, marked, hmarked,
    rfl⟩, rfl, rfl, rfl, rfl, rfl⟩
  · simp [forgetTea, hreason]
  · simp [forgetTea]
  · exact decide_eq_true rfl

/-- The row added, promoted and tombstoned. -/
def teaRun (env : MemoryEnv) : List MemoryCall :=
  [.apply (addTea env), .apply (promoteTea env), .tombstone (forgetTea env)]

theorem memoryStep_ok {store next : MemoryStore} {call : MemoryCall} {result : ApplyResult}
    (h : runTransaction env store call = .ok (next, result)) :
    memoryStep env store call = (next, .ok result) := by
  rw [memoryStep, h]

/-- The run ends with a tombstone and the assertion of the promotion. -/
theorem teaRun_end (env : MemoryEnv) : ∃ tombstone assertion,
    ((memoryTransactions env).state (.empty teaControl) (teaRun env)).items.get "a" =
      some tombstone ∧ tombstone.status = .tombstoned ∧
    ((memoryTransactions env).state (.empty teaControl) (teaRun env)).assertions.get "a" =
      some assertion := by
  obtain ⟨added, hadded, -⟩ := addTea_step env
  obtain ⟨assertion, promoted, -, hvalid, hpromoted, -⟩ := promoteTea_step env
  obtain ⟨result, tombstone, hresult, hstatus, hrows, hassertions, hid, htombstoned⟩ :=
    forgetTea_result hvalid
  have hforgotten : tombstoneTransaction env (promotedTea env assertion) (forgetTea env) =
      .ok ((promotedTea env assertion).writeApplyResult result, result) := by
    exact bind_eq_ok_iff.mpr ⟨result, hresult, rfl⟩
  have hend : (memoryTransactions env).state (.empty teaControl) (teaRun env) =
      (promotedTea env assertion).writeApplyResult result := by
    simp only [teaRun, Machine.state_cons, Machine.state_nil, memoryTransactions]
    have hadd : runTransaction env (.empty teaControl) (.apply (addTea env)) =
        .ok (addedTea env, added) := hadded
    have hpromote : runTransaction env (addedTea env) (.apply (promoteTea env)) =
        .ok (promotedTea env assertion, promoted) := hpromoted
    have hforget : runTransaction env (promotedTea env assertion) (.tombstone (forgetTea env)) =
        .ok ((promotedTea env assertion).writeApplyResult result, result) := hforgotten
    rw [memoryStep_ok hadd, memoryStep_ok hpromote, memoryStep_ok hforget]
  have hkept : documentAfter [] tombstone (some assertion) = some assertion := by
    simp [documentAfter, matchingAssertion, htombstoned]
  rw [hend, MemoryStore.writeApplyResult, if_neg (not_not.mpr hstatus), hrows, hassertions,
    List.foldl_cons, List.foldl_nil, get_writeItem_assertions, writeItem_items, Table.get_set,
    if_pos hid.symm, if_pos hid.symm]
  exact ⟨tombstone, assertion, rfl, htombstoned, hkept⟩

/-- A tombstone keeps the assertion of its row until the outbox deletes it. -/
theorem not_graphFenced : ¬ ∃ env : MemoryEnv, ∀ control calls,
    GraphFenced ((memoryTransactions env).state (.empty control) calls) := by
  rintro ⟨env, hall⟩
  obtain ⟨tombstone, assertion, hitem, hstatus, hassertion⟩ := teaRun_end env
  have hcurrent := (hall teaControl (teaRun env)).rows "a" tombstone hitem
  rw [hassertion] at hcurrent
  have hactive := (hcurrent.present_iff.mp rfl).1
  rw [hstatus] at hactive
  cases hactive

theorem graphFenced_teaRun : ∃ env : MemoryEnv,
    GraphFencedToTombstones ((memoryTransactions env).state (.empty teaControl) (teaRun env)) := by
  obtain ⟨env⟩ := MemoryEnv.nonempty
  refine ⟨env, graphFenced env teaControl (teaRun env) ⟨?_, ?_, fun _ => trivial, trivial⟩⟩
  · intro _ existing hread
    cases hread
  · intro _ existing _
    constructor
    · intro _
      rfl
    · intro henriched
      cases henriched
    · intro _ hmem
      cases hmem
    · intro _ _ htier
      exact absurd rfl htier

end

end Omi.Memory
