import Omi.Memory.ApplyCases

/-! What a committed update may change of a row that is active and long-term before and after
it: the apply refuses changes of meaning, by a check on the fields of the patch. -/
namespace Omi.Memory
open Omi.Foundation

/-- The two versions say the same: content, evidence, subject, predicate and arguments, where
arguments are compared as Python compares dictionaries. -/
def SameSemantics (old new : MemoryItem) : Prop :=
  new.content = old.content ∧ evidenceIdsOf new.evidence = evidenceIdsOf old.evidence ∧
    new.subjectEntityId = old.subjectEntityId ∧ new.predicate = old.predicate ∧
    (PyVal.dict new.arguments).deepEq (.dict old.arguments) = true

/-- A committed update of an active long-term row that stays active and long-term, other than a
graph enrichment or trigger feedback. -/
structure LongTermUpdate (env : MemoryEnv) where
  control : MemoryControlState
  operation : MemoryOperation
  payload : PatchPayload
  clock : ApplyClock
  result : ApplyResult
  existing : MemoryItem
  updated : MemoryItem
  applied : applyLongTermPatchTransaction env control operation payload clock = .ok result
  committed : result.status = .committed
  isUpdate : payload.patch.decision = .update
  notEnrichment : operation.operationType ≠ .graphEnrichment
  existing_eq : payload.existingItem = some existing
  updated_eq : result.memoryItems.head? = some updated
  wasLongTerm : existing.tier = .longTerm ∧ existing.status = .active
  staysLongTerm : updated.tier = .longTerm ∧ updated.status = .active

/-- What the immutability check does not see: a cleared graph assertion takes the subject, the
predicate and the arguments with it, and an empty text replaces a subject or predicate. -/
def KeepsSemantics (existing : MemoryItem) (patch : DurableMemoryPatch) : Prop :=
  if patch.clearGraphAssertion then
    existing.subjectEntityId = none ∧ existing.predicate = none ∧ existing.arguments = []
  else
    (patch.subjectEntityId = some "" → existing.subjectEntityId = some "") ∧
      (patch.predicate = some "" → existing.predicate = some "")

/-- A text the check takes for unchanged is unchanged unless an empty one replaces it. -/
theorem orElse_eq_iff {proposed existing : Option String}
    (h : orText proposed existing = existing) :
    (proposed.orElse fun _ => existing) = existing ↔
      (proposed = some "" → existing = some "") := by
  cases proposed with
  | none => simp
  | some text =>
    by_cases hempty : text = ""
    · subst hempty
      simp [eq_comm]
    · have hsame : some text = existing := by
        simpa [orText, present, hempty] using h
      simp [hsame]

theorem deepEq_empty (fields : PyDict) :
    (PyVal.dict []).deepEq (.dict fields) = true ↔ fields = [] := by
  cases fields <;> simp [PyVal.deepEq, PyVal.deepEqFields]

namespace LongTermUpdate
variable {env : MemoryEnv} (u : LongTermUpdate env)

/-- The committed row is the copy the update makes, up to its graph assertion, and the patch
passed the immutability check. -/
theorem updated_copy :
    ∃ evidence point now,
      let copy := updatedMemoryItem env u.existing u.payload evidence point now
      semanticChange u.existing u.payload.patch evidence = false ∧
      u.updated.content = copy.content ∧ u.updated.evidence = copy.evidence ∧
      u.updated.subjectEntityId = copy.subjectEntityId ∧
      u.updated.predicate = copy.predicate ∧ u.updated.arguments = copy.arguments := by
  have hrun : runApply env u.control u.operation u.payload u.clock false = .ok u.result :=
    runApply_of_committed u.applied u.committed
  obtain ⟨evidence, -, -, -, ⟨hskip, -⟩ | ⟨-, items, assertions, hitems, hcommit⟩⟩ :=
    runApply_ok hrun
  · rw [u.isUpdate] at hskip
    cases hskip
  obtain ⟨changed, attached, superseded, hchanged, hattached, -, rfl⟩ := appliedItems_ok hitems
  have hupdated : u.updated = attached := by
    have hhead := u.updated_eq
    rw [(commitResult_ok hcommit).2.2.1] at hhead
    exact (Option.some.inj hhead).symm
  rcases changedItem_ok hchanged with ⟨-, existing, hcheck, -, hcopy, -⟩ | ⟨hother, -, -⟩
  swap
  · exact absurd u.isUpdate hother
  obtain ⟨hexisting, -, -, -, hsemantic, -⟩ := checkUpdate_ok hcheck
  obtain rfl : u.existing = existing := Option.some.inj (u.existing_eq.symm.trans hexisting)
  have hfields : u.updated.tier = changed.1.tier ∧ u.updated.content = changed.1.content ∧
      u.updated.evidence = changed.1.evidence ∧
      u.updated.subjectEntityId = changed.1.subjectEntityId ∧
      u.updated.predicate = changed.1.predicate ∧
      u.updated.arguments = changed.1.arguments := by
    obtain ⟨_, _, _, _, _, hgraph⟩ := attached_eq hattached
    rw [hupdated, hgraph]
    exact ⟨rfl, rfl, rfl, rfl, rfl, rfl⟩
  rw [hcopy] at hfields
  refine ⟨evidence, _, _, ?_, hfields.2⟩
  have htier : updatedTier u.existing u.payload.patch = .longTerm := by
    rw [← updatedMemoryItem_tier, ← hfields.1]
    exact u.staysLongTerm.1
  rcases hsemantic with h | h | h | ⟨h, -⟩ | h | h
  · exact absurd u.wasLongTerm.1 h
  · exact absurd u.wasLongTerm.2 h
  · exact h
  · simp [updatedTier, h] at htier
  · exact absurd h u.notEnrichment
  · cases h

end LongTermUpdate

/-- A committed update that leaves a row active and long-term keeps what the row says exactly
when its patch keeps the fields the immutability check does not see. -/
theorem longTermImmutable_iff {env : MemoryEnv} (u : LongTermUpdate env) :
    SameSemantics u.existing u.updated ↔ KeepsSemantics u.existing u.payload.patch := by
  obtain ⟨evidence, point, now, hsemantic, hcontent, hevidence, hsubject, hpredicate,
    harguments⟩ := u.updated_copy
  simp only [semanticChange, Bool.or_eq_false_iff, decide_eq_false_iff_not, not_not,
    Bool.not_eq_false'] at hsemantic
  obtain ⟨⟨⟨⟨hsameContent, hsameEvidence⟩, hsameSubject⟩, hsamePredicate⟩, hsameArguments⟩ :=
    hsemantic
  unfold SameSemantics KeepsSemantics
  rw [hcontent, hevidence, hsubject, hpredicate, harguments]
  simp only [updatedMemoryItem_content, updatedMemoryItem_evidence,
    updatedMemoryItem_subjectEntityId, updatedMemoryItem_predicate,
    updatedMemoryItem_arguments, hsameContent, hsameEvidence, true_and]
  split_ifs with hclear
  · rw [deepEq_empty, eq_comm (a := none), eq_comm (a := none)]
  · rw [orElse_eq_iff hsameSubject, orElse_eq_iff hsamePredicate]
    simp [hsameArguments]

/-- An update that clears the graph assertion of a long-term row without demoting it takes the
row's predicate away. -/
theorem not_longTermImmutable :
    ¬ ∃ env : MemoryEnv, ∀ u : LongTermUpdate env, SameSemantics u.existing u.updated := by
  rintro ⟨env, hsame⟩
  let row : MemoryItem :=
    { teaRow "a" .longTerm none with
      ledgerCommitId := some "c"
      ledgerSequence := some 1
      predicate := some "likes" }
  let logical : OperationLogicalPayload :=
    { decision := "update", targetMemoryId := some "a", resultStatus := some "active" }
  let fields : MemoryOperation :=
    { operationId := "", uid := "u", operationType := .userMutation, evidenceIds := ["e"],
      targetMemoryId := some "a", logicalPayload := logical, logicalPayloadDigest := "",
      accountGeneration := 0, sourceGeneration := 0, createdAt := 0, updatedAt := 0 }
  let operation : MemoryOperation := .new env.toContractHash fields 0
  let patch : DurableMemoryPatch :=
    { patchId := "p", idempotencyKey := "k", decision := .update, resultStatus := .active,
      evidenceIds := ["e"], targetMemoryId := some "a", clearGraphAssertion := true }
  let payload : PatchPayload := { patch := patch, existingItem := some row }
  let clock : ApplyClock := ⟨1, 1, fun _ => 1, fun _ => 1, 1⟩
  have hevidence : proposedEvidence payload = .ok [teaEvidence] := by
    rfl
  have hpatch : checkPatch env operation payload = .ok () := by
    apply checkPatch_new
    · rfl
    · rfl
    · rfl
    · rfl
  have hoperation : checkOperation env teaControl operation payload [teaEvidence] clock = .ok () := by
    rfl
  have hitems : ∃ item, appliedItems env teaControl operation payload [teaEvidence] clock false =
      .ok ([item], []) ∧ [item].all (·.labelSet.isSome) = true ∧ item.tier = .longTerm ∧
        item.status = .active ∧ item.predicate = none := by
    exact ⟨_, rfl, rfl, rfl, rfl, rfl⟩
  obtain ⟨item, hitems, hlabels, htier, hstatus, hpredicate⟩ := hitems
  have huid : isBlank "u" = false := by decide
  have hnow : (0 : ℤ) ≤ 1 := by decide
  have hupdate : DurablePatchDecision.update ≠ .skipDuplicate := by decide
  obtain ⟨result, hrun, hresult⟩ := runApply_new huid le_rfl le_rfl le_rfl
    hnow hevidence hpatch hoperation hupdate hitems hlabels
  have h := hsame
    { control := teaControl
      operation := operation
      payload := payload
      clock := clock
      result := result
      existing := row
      updated := item
      applied := apply_of_run hrun
      committed := runApply_committed hrun
      isUpdate := rfl
      notEnrichment := by
        intro h
        cases h
      existing_eq := rfl
      updated_eq := by
        rw [hresult]
        rfl
      wasLongTerm := ⟨rfl, rfl⟩
      staysLongTerm := ⟨htier, hstatus⟩ }
  have hlost : item.predicate = some "likes" := h.2.2.2.1
  rw [hpredicate] at hlost
  cases hlost

end Omi.Memory
