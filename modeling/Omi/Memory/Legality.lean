import Omi.Memory.UpdateFit

/-! Which rows of a commit are legal and pass their validators. A row that the apply builds always
does; the copies it makes of stored rows run no validator. -/
namespace Omi.Memory
open Omi.Foundation

/-- An update fits its row, and no archived row is superseded. -/
structure PatchFits (env : MemoryEnv) (operation : MemoryOperation) (payload : PatchPayload)
    (now : ℤ) : Prop where
  update : payload.patch.decision = .update → ∀ existing ∈ payload.existingItem,
    (RowUpdate.mk existing payload now).Fits env operation
  supersede : payload.patch.decision ≠ .skipDuplicate →
    ∀ supersededId ∈ payload.patch.supersedes,
      ∀ existing ∈ (payload.supersededItems.getD []).reverse.find? (·.memoryId = supersededId),
        existing.tier ≠ .archive

section
variable {env : MemoryEnv} {control : MemoryControlState} {operation : MemoryOperation}
  {payload : PatchPayload} {clock : ApplyClock} {evidence : List MemoryEvidence}
  {point : CommitPoint} {now : ℤ} {item existing : MemoryItem}

/-! ### The validators, one by one -/

/-- The validators that do not look at the graph fields. -/
def MemoryItem.validButGraph (env : MemoryEnv) (item : MemoryItem) : Bool :=
  item.fieldsValid env && item.timesValid && item.contentValid && item.expiryValid &&
    item.sourceValid && item.validityValid && item.kindValid && item.ledgerValid

theorem MemoryItem.valid_iff : item.valid env = true ↔ item.readable env = true ∧
    (item.normalized env).validButGraph env = true ∧ item.longTermValid = true := by
  have hlong : (item.normalized env).longTermValid = item.longTermValid := rfl
  simp only [valid, checks, validButGraph, Bool.and_eq_true, hlong]
  tauto

theorem MemoryItem.sound_iff : item.Sound env ↔ item.readable env = true ∧
    (item.normalized env).validButGraph env = true ∧ item.longTermValid = true ∧
      item.legal = true := by
  constructor
  · intro h
    obtain ⟨hreadable, hvalid, hlong⟩ := valid_iff.mp h.valid
    exact ⟨hreadable, hvalid, hlong, h.legal⟩
  · rintro ⟨hreadable, hvalid, hlong, hlegal⟩
    exact ⟨valid_iff.mpr ⟨hreadable, hvalid, hlong⟩, hlegal⟩

/-- The evidence of an apply passed its validators, and there is none where none is named. -/
theorem proposedEvidence_ok (h : proposedEvidence payload = .ok evidence) :
    (∀ record ∈ evidence, record.valid = true) ∧
      (evidence = [] ↔ payload.evidence = [] ∧ payload.patch.evidenceIds = []) := by
  unfold proposedEvidence at h
  split_ifs at h with hnone
  · have hall := mapM_eq_ok_iff.mp h
    constructor
    · intro record hrecord
      obtain ⟨evidenceId, -, hmade⟩ := exists_left_of_forall₂ hall hrecord
      dsimp only at hmade
      split_ifs at hmade with hvalid
      cases hmade
      exact hvalid
    · rw [List.isEmpty_iff.mp hnone, ← List.length_eq_zero_iff, ← hall.length_eq,
        List.length_eq_zero_iff]
      simp
  · cases h
    constructor
    · intro record hrecord
      obtain ⟨object, -, rfl⟩ := List.mem_map.mp hrecord
      exact object.valid
    · have hsome : payload.evidence ≠ [] := fun h => hnone (List.isEmpty_iff.mpr h)
      simp [hsome]

/-- A row is superseded no earlier than it was updated. -/
theorem le_supersededAt : existing.updatedAt ≤
    (supersededMemoryItem payload item existing point now).updatedAt := by
  unfold supersededMemoryItem
  dsimp only
  split_ifs
  · exact le_max_of_le_left (le_max_right _ _)
  · exact le_max_right _ _

theorem superseded_validityValid (h : existing.validityValid = true) :
    (supersededMemoryItem payload item existing point now).validityValid = true := by
  by_cases hledger : payload.patch.isLedger
  · have hbound : existing.validFrom.getD existing.capturedAt ≤
        (supersededMemoryItem payload item existing point now).updatedAt := by
      unfold supersededMemoryItem
      dsimp only
      rw [if_pos hledger]
      exact le_max_of_le_right (le_max_right _ _)
    have hvalidTo : (supersededMemoryItem payload item existing point now).validTo =
        some (supersededMemoryItem payload item existing point now).updatedAt := by
      unfold supersededMemoryItem
      dsimp only
      rw [if_pos hledger]
    rw [MemoryItem.validityValid, hvalidTo]
    exact decide_eq_true hbound
  · have hvalidTo : (supersededMemoryItem payload item existing point now).validTo =
        existing.validTo := by
      unfold supersededMemoryItem
      dsimp only
      rw [if_neg hledger]
    rw [MemoryItem.validityValid, hvalidTo]
    exact h

/-- Superseding overwrites the fields that could be misfits. -/
theorem superseded_typed (h : existing.misfits = {}) :
    (supersededMemoryItem payload item existing point now).misfits = {} := by
  simp [supersededMemoryItem, h]

/-- A superseded row keeps all that its validators look at, but no archived row may be one. -/
theorem superseded_sound_iff (h : existing.Built env) :
    (supersededMemoryItem payload item existing point now).Sound env ↔
      existing.tier ≠ .archive := by
  have htyped : (supersededMemoryItem payload item existing point now).misfits = {} :=
    superseded_typed h.typed
  have hdictionary : (supersededMemoryItem payload item existing point now).oddPromotion = none :=
    h.dictionary
  have hreadable : (supersededMemoryItem payload item existing point now).readable env = true := by
    rw [MemoryItem.readable, htyped, hdictionary]
    rfl
  have hbut : ((supersededMemoryItem payload item existing point now).normalized env).validButGraph
      env = true := by
    obtain ⟨hid, huid, hvisibility, hversion, ⟨hlower, hupper⟩, hcondition, hevidence⟩ := h.fields
    have hchecked := h.checked
    simp only [MemoryItem.checks, Bool.and_eq_true] at hchecked
    obtain ⟨⟨⟨⟨⟨⟨⟨⟨-, -⟩, -⟩, hexpiry⟩, -⟩, hsource⟩, -⟩, hkind⟩, hledger⟩ := hchecked
    have hlater : existing.updatedAt ≤
        (supersededMemoryItem payload item existing point now).updatedAt := le_supersededAt
    have hnext : 1 ≤ existing.version + 1 := by
      omega
    have hvalidity : (supersededMemoryItem payload item existing point now).validityValid = true :=
      superseded_validityValid h.validity
    rw [MemoryItem.normalized_eq _ _ htyped hdictionary]
    simp only [MemoryItem.validButGraph, MemoryItem.fieldsValid, Bool.and_eq_true,
      decide_eq_true_eq]
    exact ⟨⟨⟨⟨⟨⟨⟨⟨⟨⟨⟨⟨⟨⟨hid, huid⟩, hvisibility⟩, hnext⟩, hlower⟩, hupper⟩, hcondition⟩,
      hevidence⟩, decide_eq_true (h.times.trans hlater)⟩, rfl⟩, hexpiry⟩, hsource⟩,
      hvalidity⟩, hkind⟩, hledger⟩
  have hlong : (supersededMemoryItem payload item existing point now).longTermValid = true := by
    simp [MemoryItem.longTermValid, supersededMemoryItem]
  have hstate : (supersededMemoryItem payload item existing point now).legal =
      isLegalStateCombination existing.tier .superseded existing.processingState := rfl
  have hlegal := h.legal
  rw [MemoryItem.sound_iff, hstate]
  cases htier : existing.tier with
  | shortTerm => simp [hreadable, hbut, hlong, isLegalStateCombination]
  | longTerm =>
    rw [MemoryItem.legal, htier] at hlegal
    have hprocessed : existing.processingState = .processed := of_decide_eq_true hlegal
    simp [hreadable, hbut, hlong, isLegalStateCombination, hprocessed]
  | archive => simp [isLegalStateCombination]

/-! ### The row of an update -/

namespace RowUpdate
variable {u : RowUpdate}

/-- The row of an update as `updatedMemoryItem` copies it, before a new graph assertion. -/
structure Copied (env : MemoryEnv) (u : RowUpdate) (evidence : List MemoryEvidence)
    (point : CommitPoint) (row : MemoryItem) : Prop where
  butGraph : (row.normalized env).validButGraph env =
    ((u.copy env evidence point).normalized env).validButGraph env
  tier : row.tier = updatedTier u.existing u.patch
  status : row.status = updatedStatus u.existing u.patch
  processing : row.processingState = updatedProcessingState u.existing u.payload
  commit : row.ledgerCommitId = some point.commitId ∧ row.ledgerSequence = some point.sequence
  promotion : row.promotionRecord = u.payload.promotionAudit.getD u.existing.promotionRecord
  audit : row.oddPromotion = u.payload.oddAudit
  graphReady : row.graphReady = (u.existing.graphReady && !u.patch.clearGraphAssertion)
  misfits : row.misfits = if u.patch.clearGraphAssertion then
      { (u.raw env).without ((u.raw env).read .own) with kgExtracted := none }
    else (u.raw env).without ((u.raw env).read .own)

/-- A graph assertion is built for the row of an update. -/
def RefreshesGraph (u : RowUpdate) (operation : MemoryOperation) : Prop :=
  (u.existing.tier ≠ .longTerm ∧ u.patch.targetTier = some .longTerm) ∨
    operation.operationType = .graphEnrichment ∨
    (u.Targets .longTerm ∧ u.EndsActive ∧ u.existing.graphReady = true ∧
      u.patch.clearGraphAssertion = false)

/-- The row of an update as it is committed: its copy, with or without a new graph assertion. -/
structure Committed (env : MemoryEnv) (u : RowUpdate) (operation : MemoryOperation)
    (evidence : List MemoryEvidence) (point : CommitPoint) (item : MemoryItem) : Prop where
  readable : item.readable env = true ↔
    ({ u.raw env with kgExtracted := none } : RawExtras).readable env.reading = true ∧
      (u.MarksGraph operation ∨
        ∀ value ∈ (u.raw env).kgExtracted, (value.read env.reading.bool).isSome = true) ∧
      u.payload.oddAudit = none
  butGraph : (item.normalized env).validButGraph env =
    ((u.copy env evidence point).normalized env).validButGraph env
  tier : item.tier = updatedTier u.existing u.patch
  status : item.status = updatedStatus u.existing u.patch
  processing : item.processingState = updatedProcessingState u.existing u.payload
  commit : item.ledgerCommitId = some point.commitId ∧ item.ledgerSequence = some point.sequence
  promotion : item.promotionRecord = u.payload.promotionAudit.getD u.existing.promotionRecord
  graph : u.Targets .longTerm → u.EndsActive →
    (item.graphFieldsPresent = true ↔ u.existing.tier ≠ .longTerm ∨
      operation.operationType = .graphEnrichment ∨
      (u.existing.graphReady = true ∧ u.patch.clearGraphAssertion = false))

/-- The misfits of the row are those of the copy, without a mark that is overwritten. -/
theorem readable_iff {marks : Prop} (hpromotion : item.oddPromotion = u.payload.oddAudit)
    (hmarked : marks → item.misfits =
      { (u.raw env).without ((u.raw env).read .own) with kgExtracted := none })
    (hplain : ¬ marks → item.misfits = (u.raw env).without ((u.raw env).read .own)) :
    item.readable env = true ↔
      ({ u.raw env with kgExtracted := none } : RawExtras).readable env.reading = true ∧
        (marks ∨ ∀ value ∈ (u.raw env).kgExtracted, (value.read env.reading.bool).isSome = true) ∧
        u.payload.oddAudit = none := by
  rw [MemoryItem.readable, Bool.and_eq_true, decide_eq_true_eq, hpromotion]
  by_cases hmarks : marks
  · have hsame : item.misfits = ({ u.raw env with kgExtracted := none } : RawExtras).without
        (({ u.raw env with kgExtracted := none } : RawExtras).read .own) := hmarked hmarks
    rw [hsame, RawExtras.readable_without]
    simp [hmarks]
  · rw [hplain hmarks, RawExtras.readable_without, RawExtras.readable_iff]
    simp [hmarks, and_assoc]

/-- The validators but one do not look at the graph fields. -/
theorem validButGraph_marked (env : MemoryEnv) (item : MemoryItem) (ready : Bool)
    (assertionId plan : Option String) (extracted : Bool) :
    (({ item with
        graphReady := ready
        graphAssertionId := assertionId
        graphPlanHash := plan
        kgExtracted := extracted
        misfits := { item.misfits with kgExtracted := none } } : MemoryItem).normalized
      env).validButGraph env = (item.normalized env).validButGraph env := rfl

theorem transitions_iff : transitionsToLongTerm u.existing u.patch = true ↔
    u.existing.tier ≠ .longTerm ∧ u.patch.targetTier = some .longTerm := by
  simp [transitionsToLongTerm]

theorem copied_updatedMemoryItem : Copied env u evidence point
    (updatedMemoryItem env u.existing u.payload evidence point u.now) := by
  have hpromotion : (updatedMemoryItem env u.existing u.payload evidence point u.now).promotion =
      u.payload.promotionAudit.orElse fun _ => u.existing.promotion := by
    rw [updatedMemoryItem]
    split_ifs <;> rfl
  constructor
  case butGraph | tier | status | processing | audit =>
    rw [updatedMemoryItem]
    split_ifs <;> rfl
  case commit =>
    rw [updatedMemoryItem]
    split_ifs <;> exact ⟨rfl, rfl⟩
  case promotion =>
    rw [MemoryItem.promotionRecord, hpromotion]
    cases u.payload.promotionAudit <;> rfl
  case graphReady =>
    rw [updatedMemoryItem_graphReady]
    rfl
  case misfits =>
    rw [updatedMemoryItem]
    change _ = if u.payload.patch.clearGraphAssertion then _ else _
    split_ifs <;> rfl

theorem Copied.refreshes_iff {row : MemoryItem} (h : Copied env u evidence point row) :
    (transitionsToLongTerm u.existing u.patch || operation.operationType = .graphEnrichment ||
      refreshesGraphAssertion u.patch row) = true ↔ u.RefreshesGraph operation := by
  simp only [refreshesGraphAssertion, Bool.or_eq_true, Bool.and_eq_true, decide_eq_true_eq,
    transitions_iff, h.tier, h.status, h.graphReady, targets_iff, endsActive_iff,
    Bool.not_eq_true']
  constructor
  · rintro ((hmoved | henriched) | ⟨⟨⟨hlong, hactive⟩, hkept, -⟩, hcleared⟩)
    · exact .inl hmoved
    · exact .inr (.inl henriched)
    · exact .inr (.inr ⟨hlong, hactive, hkept, hcleared⟩)
  · rintro (hmoved | henriched | ⟨hlong, hactive, hkept, hcleared⟩)
    · exact .inl (.inl hmoved)
    · exact .inl (.inr henriched)
    · exact .inr ⟨⟨⟨hlong, hactive⟩, hkept, hcleared⟩, hcleared⟩

/-- On a current long-term row the assertion is built when the row comes there, is enriched or
keeps the one it has. -/
theorem refreshesGraph_iff (hlong : u.Targets .longTerm) (hactive : u.EndsActive) :
    u.RefreshesGraph operation ↔ u.existing.tier ≠ .longTerm ∨
      operation.operationType = .graphEnrichment ∨
      (u.existing.graphReady = true ∧ u.patch.clearGraphAssertion = false) := by
  have hmoved : u.existing.tier ≠ .longTerm → u.patch.targetTier = some .longTerm := by
    intro hother
    exact hlong.resolve_right fun h => hother h.2
  refine or_congr ⟨fun h => h.1, fun h => ⟨h, hmoved h⟩⟩ (or_congr Iff.rfl ?_)
  exact ⟨fun h => h.2.2, fun h => ⟨hlong, hactive, h⟩⟩

theorem RefreshesGraph.marks (h : u.RefreshesGraph operation) : u.MarksGraph operation := by
  obtain hmoved | henriched | ⟨hlong, hactive, hkept, -⟩ := h
  · exact .inr (.inl hmoved)
  · exact .inr (.inr (.inl henriched))
  · exact .inr (.inr (.inr ⟨hlong, hactive, hkept⟩))

/-- Where no assertion is built, only a cleared graph field is marked. -/
theorem marks_iff_cleared (h : ¬ u.RefreshesGraph operation) :
    u.MarksGraph operation ↔ u.patch.clearGraphAssertion = true := by
  constructor
  · rintro (hcleared | hmoved | henriched | ⟨hlong, hactive, hkept⟩)
    · exact hcleared
    · exact absurd (.inl hmoved) h
    · exact absurd (.inr (.inl henriched)) h
    · cases hcleared : u.patch.clearGraphAssertion with
      | true => rfl
      | false => exact absurd (.inr (.inr ⟨hlong, hactive, hkept, hcleared⟩)) h
  · exact .inl

theorem Copied.committed_refreshed {row : MemoryItem} {assertions : List MemoryGraphAssertion}
    (h : Copied env u evidence point row) (hrefreshed : u.RefreshesGraph operation)
    (hattached : attachGraphAssertion env operation point row = .ok (item, assertions)) :
    Committed env u operation evidence point item := by
  obtain ⟨plan, assertion, ⟨createdAt, -, hbuild⟩, -, rfl⟩ := attachGraphAssertion_ok hattached
  obtain ⟨-, -, -, -, hid, hplan⟩ := buildMemoryGraphAssertion_ok hbuild
  refine ⟨?_, ?_, h.tier, h.status, h.processing, h.commit, h.promotion, ?_⟩
  · refine readable_iff h.audit (fun _ => ?_) (fun hplain => absurd hrefreshed.marks hplain)
    dsimp only
    rw [h.misfits]
    split_ifs <;> rfl
  · have hmarked := validButGraph_marked env row true (some assertion.assertionId)
      (some plan.planHash) true
    exact hmarked.trans h.butGraph
  · intro hlong hactive
    rw [← refreshesGraph_iff hlong hactive]
    simp [MemoryItem.graphFieldsPresent, hid, hplan, hrefreshed]

theorem Copied.committed_plain (h : Copied env u evidence point item)
    (hplain : ¬ u.RefreshesGraph operation) : Committed env u operation evidence point item := by
  have hcleared := marks_iff_cleared hplain
  refine ⟨?_, h.butGraph, h.tier, h.status, h.processing, h.commit, h.promotion, ?_⟩
  · refine readable_iff h.audit (fun hmarks => ?_) (fun hmarks => ?_)
    · rw [h.misfits, if_pos (hcleared.mp hmarks)]
    · rw [h.misfits, if_neg fun hclear => hmarks (hcleared.mpr hclear)]
  · intro hlong hactive
    have hready : item.graphReady = false := by
      rw [refreshesGraph_iff hlong hactive] at hplain
      rw [h.graphReady, Bool.and_eq_false_iff, Bool.not_eq_false']
      by_contra hkept
      simp only [not_or, Bool.not_eq_false, Bool.not_eq_true] at hkept
      exact hplain (.inr (.inr hkept))
    rw [← refreshesGraph_iff hlong hactive]
    simp [MemoryItem.graphFieldsPresent, hready, hplain]

theorem committed_of_attached {row : MemoryItem} {refresh : Bool}
    {assertions : List MemoryGraphAssertion}
    (hcopy : row = updatedMemoryItem env u.existing u.payload evidence point u.now)
    (hrefresh : refresh = (transitionsToLongTerm u.existing u.patch ||
      operation.operationType = .graphEnrichment || refreshesGraphAssertion u.patch row))
    (hattached : (refresh = true ∧
        attachGraphAssertion env operation point row = .ok (item, assertions)) ∨
      (refresh = false ∧ item = row ∧ assertions = [])) :
    Committed env u operation evidence point item := by
  have hcopied : Copied env u evidence point row := by
    rw [hcopy]
    exact copied_updatedMemoryItem
  have hdue : refresh = true ↔ u.RefreshesGraph operation := by
    rw [hrefresh]
    exact hcopied.refreshes_iff
  obtain ⟨hrefreshed, hattached⟩ | ⟨hplain, rfl, -⟩ := hattached
  · exact hcopied.committed_refreshed (hdue.mp hrefreshed) hattached
  · refine hcopied.committed_plain fun hneeded => ?_
    rw [hdue.mpr hneeded] at hplain
    cases hplain

/-- A committed update can be read back in a legal state exactly when it fits its row. -/
theorem committed_sound_iff (h : Committed env u operation evidence point item)
    (hpatch : u.patch.valid env = true) (hrow : u.existing.Built env)
    (hlegal : isLegalStateCombination (updatedTier u.existing u.patch)
      (updatedStatus u.existing u.patch) (updatedProcessingState u.existing u.payload) = true)
    (hcommit : point.commitId ≠ "") (hrecords : ∀ record ∈ evidence, record.valid = true)
    (hactive : ∀ record ∈ evidence, record.sourceState = .active)
    (hnone : evidence = [] ↔ u.NamesNoEvidence) : item.Sound env ↔ u.Fits env operation := by
  have hstate : item.legal = true := by
    rw [MemoryItem.legal, h.tier, h.status, h.processing]
    exact hlegal
  have hlong : item.longTermValid = true ↔ (u.Targets .longTerm → u.EndsActive →
      (u.payload.promotionAudit.getD u.existing.promotionRecord).get "admission_receipt" = .none ∨
        u.existing.tier ≠ .longTerm ∨ operation.operationType = .graphEnrichment ∨
        (u.existing.graphReady = true ∧ u.patch.clearGraphAssertion = false)) := by
    have hprocessed : u.Targets .longTerm →
        updatedProcessingState u.existing u.payload = .processed := by
      intro htier
      exact if_pos (targets_iff.mpr htier)
    simp only [MemoryItem.longTermValid, h.tier, h.status, h.processing, h.commit.1, h.commit.2,
      h.promotion, Bool.or_eq_true, Bool.and_eq_true, decide_eq_true_eq, Option.any_some,
      Option.isSome_some, ne_eq, targets_iff, endsActive_iff]
    constructor
    · rintro ((htier | hstatus) | ⟨-, hreceipt | hpresent⟩) hlong hcurrent
      · exact absurd hlong htier
      · exact absurd hcurrent hstatus
      · exact .inl hreceipt
      · exact .inr ((h.graph hlong hcurrent).mp hpresent)
    · intro hall
      by_cases htier : u.Targets .longTerm
      swap
      · exact .inl (.inl htier)
      by_cases hstatus : u.EndsActive
      swap
      · exact .inl (.inr hstatus)
      refine .inr ⟨⟨⟨hcommit, trivial⟩, hprocessed htier⟩, ?_⟩
      exact (hall htier hstatus).imp id (h.graph htier hstatus).mpr
  rw [MemoryItem.sound_iff, h.readable, h.butGraph, hlong]
  simp only [MemoryItem.validButGraph, Bool.and_eq_true, copy_fieldsValid_iff hpatch hrow hrecords,
    copy_timesValid_iff hrow, copy_contentValid_iff hrow, copy_expiryValid_iff,
    copy_sourceValid_iff hrow hactive hnone, copy_validityValid_iff hrow, copy_kindValid_iff hrow,
    copy_ledgerValid_iff hrow, hstate]
  constructor
  · rintro ⟨⟨hreadable, hmark, haudit⟩, ⟨⟨⟨⟨⟨⟨⟨⟨hweight, hcondition⟩, hbefore, hafter⟩, hrevived⟩,
      hexpiry, hkept⟩, hsource⟩, hvalidity⟩, hslot, htrigger⟩, htext, hlength, hkeys, hbody,
      hreason⟩, hadmission, -⟩
    exact ⟨hreadable, hmark, haudit, hbefore, hafter, hrevived, hexpiry, hkept, hadmission, hsource,
      hweight, hcondition, hvalidity, hslot, htrigger, htext, hlength, hkeys, hbody, hreason⟩
  · intro hfits
    exact ⟨⟨hfits.readable, hfits.mark, hfits.audit⟩, ⟨⟨⟨⟨⟨⟨⟨⟨hfits.weight, hfits.condition⟩,
      hfits.capturedBefore, hfits.updatedAfter⟩, hfits.revived⟩, hfits.expiryNamed,
      hfits.expiryKept⟩, hfits.source⟩, hfits.validity⟩, hfits.slot, hfits.trigger⟩, hfits.text,
      hfits.slotLength, hfits.conditionKeys, hfits.body, hfits.reason⟩, hfits.admission, trivial⟩

end RowUpdate

end

/-! ### Commits -/

/-- A committed apply over rows that pydantic built, in legal states. -/
structure CommittedApply (env : MemoryEnv) where
  control : MemoryControlState
  operation : MemoryOperation
  payload : PatchPayload
  clock : ApplyClock
  allowTriggerFeedbackArguments : Bool
  result : ApplyResult
  applied : applyLongTermPatchTransaction env control operation payload clock
    allowTriggerFeedbackArguments = .ok result
  committed : result.status = .committed
  existing_built : ∀ existing ∈ payload.existingItem, existing.Built env
  superseded_built : ∀ existing ∈ payload.supersededItems.getD [], existing.Built env

namespace CommittedApply
variable {env : MemoryEnv} (c : CommittedApply env) {evidence : List MemoryEvidence}
  {attached : MemoryItem} {superseded : List MemoryItem} {changed : MemoryItem × Bool}
  {assertions : List MemoryGraphAssertion}

def point : CommitPoint := commitPoint env c.control c.operation

theorem runs : runApply env c.control c.operation c.payload c.clock
    c.allowTriggerFeedbackArguments = .ok c.result :=
  runApply_of_committed c.applied c.committed

theorem checkPatch_valid (h : checkPatch env c.operation c.payload = .ok ()) :
    c.payload.patch.valid env = true := by
  simp only [checkPatch, bind_eq_ok_iff, check_eq_ok_iff] at h
  obtain ⟨_, hvalid, -⟩ := h
  exact hvalid

theorem checkOperation_active
    (h : checkOperation env c.control c.operation c.payload evidence c.clock = .ok ()) :
    ∀ record ∈ evidence, record.sourceState = .active := by
  simp only [checkOperation, bind_eq_ok_iff, check_eq_ok_iff] at h
  obtain ⟨_, -, _, -, _, -, _, -, hactive⟩ := h
  intro record hrecord
  exact of_decide_eq_true (List.all_eq_true.mp hactive record hrecord)

theorem commitId_ne_empty : c.point.commitId ≠ "" := by
  simp [point, commitPoint, MemoryControlState.nextCommitId]

/-- The row an apply adds or updates. -/
theorem attached_sound_iff (hevidence : proposedEvidence c.payload = .ok evidence)
    (hpatch : checkPatch env c.operation c.payload = .ok ())
    (hoperation : checkOperation env c.control c.operation c.payload evidence c.clock = .ok ())
    (hchanged : changedItem env c.control c.operation c.payload evidence c.point c.clock.item
      c.allowTriggerFeedbackArguments = .ok changed)
    (hattached : (changed.2 = true ∧
        attachGraphAssertion env c.operation c.point changed.1 = .ok (attached, assertions)) ∨
      (changed.2 = false ∧ attached = changed.1 ∧ assertions = [])) :
    attached.Sound env ↔ (c.payload.patch.decision = .update →
      ∀ existing ∈ c.payload.existingItem,
        (RowUpdate.mk existing c.payload c.clock.item).Fits env c.operation) := by
  obtain ⟨hupdate, existing, hcheck, hlegal, hcopy, hrefresh⟩ | ⟨hbuilt, hmade, hrefresh⟩ :=
    changedItem_ok hchanged
  · have hrow := (checkUpdate_ok hcheck).1
    have hrecords := proposedEvidence_ok hevidence
    have hcommitted := RowUpdate.committed_of_attached (u := ⟨existing, c.payload, c.clock.item⟩)
      hcopy hrefresh hattached
    have hsound := c.existing_built existing hrow
    rw [RowUpdate.committed_sound_iff hcommitted (c.checkPatch_valid hpatch) hsound hlegal
      c.commitId_ne_empty hrecords.1 (c.checkOperation_active hoperation) hrecords.2]
    simp [hupdate, hrow]
  · obtain ⟨-, -, hgraph, hvalid, hstate⟩ := materializeMemoryItem_ok hmade
    have hplain : changed.2 = false := by
      simp [hrefresh, refreshesGraphAssertion, hgraph]
    obtain ⟨hrefreshed, -⟩ | ⟨-, rfl, -⟩ := hattached
    · rw [hplain] at hrefreshed
      cases hrefreshed
    · simp only [hbuilt, false_implies, iff_true]
      exact ⟨hvalid, hstate⟩

/-- The rows an apply supersedes. -/
theorem superseded_sound_iff
    (h : supersedeItems c.operation c.payload attached c.point c.clock = .ok superseded) :
    (∀ item ∈ superseded, item.Sound env) ↔ ∀ supersededId ∈ c.payload.patch.supersedes,
      ∀ existing ∈ (c.payload.supersededItems.getD []).reverse.find? (·.memoryId = supersededId),
        existing.tier ≠ .archive := by
  have hrows := supersedeItems_ok h
  constructor
  · intro hall supersededId hid existing hfound
    obtain ⟨item, hitem, row, hrow, hfound', -, -, rfl⟩ := exists_right_of_forall₂ hrows hid
    cases Option.some.inj (hfound'.symm.trans hfound)
    exact (Memory.superseded_sound_iff (c.superseded_built _ hrow)).mp (hall _ hitem)
  · intro hall item hitem
    obtain ⟨supersededId, hid, row, hrow, hfound, -, -, rfl⟩ := exists_left_of_forall₂ hrows hitem
    exact (Memory.superseded_sound_iff (c.superseded_built _ hrow)).mpr (hall _ hid _ hfound)

end CommittedApply

/-- Every row of a commit can be read back in a legal state exactly when its patch fits the row it
updates and supersedes no archived row. -/
theorem committedSound_iff {env : MemoryEnv} (c : CommittedApply env) :
    (∀ item ∈ c.result.memoryItems, item.Sound env) ↔
      PatchFits env c.operation c.payload c.clock.item := by
  obtain ⟨evidence, hevidence, hpatch, hoperation, ⟨hskip, hcommit⟩ |
    ⟨hskip, items, assertions, hitems, hcommit⟩⟩ := runApply_ok c.runs
  · rw [(commitResult_ok hcommit).2.2.1]
    simp only [List.not_mem_nil, false_implies, implies_true, true_iff]
    constructor
    · intro hupdate
      rw [hskip] at hupdate
      cases hupdate
    · intro hchange
      exact absurd hskip hchange
  · rw [(commitResult_ok hcommit).2.2.1]
    obtain ⟨changed, attached, superseded, hchanged, hattached, hsuperseded, rfl⟩ :=
      appliedItems_ok hitems
    rw [List.forall_mem_cons,
      c.attached_sound_iff hevidence hpatch hoperation hchanged hattached,
      c.superseded_sound_iff hsuperseded]
    constructor
    · rintro ⟨hupdate, hsupersede⟩
      exact ⟨hupdate, fun _ => hsupersede⟩
    · intro hfits
      exact ⟨hfits.update, hfits.supersede hskip⟩

theorem teaRow_built (env : MemoryEnv) {memoryId : String} {tier : MemoryLayer}
    {expiresAt : Option ℤ} (hid : isBlank memoryId = false) (htier : tier ≠ .longTerm)
    (hexpiry : tier = .shortTerm → ∃ moment ∈ expiresAt, 0 < moment) :
    (teaRow memoryId tier expiresAt).Built env := by
  have htexts : isBlank "u" = false ∧ isBlank "private" = false ∧ isBlank "e" = false ∧
      isBlank "unknown" = false ∧ isBlank "source_for_e" = false ∧ isBlank "tea" = false := by
    decide
  obtain ⟨huid, hprivate, he, hunknown, hsource, htea⟩ := htexts
  have hrecord : teaEvidence.valid = true := by
    simp [teaEvidence, MemoryEvidence.valid, MemoryEvidence.sourceIdentityValid, optionalNonblank,
      he, hunknown, hsource]
  refine ⟨⟨?_, ?_⟩, rfl, rfl⟩
  · have hshort : tier = .shortTerm → expiresAt.any (0 < ·) = true := by
      intro h
      obtain ⟨moment, hmem, hlater⟩ := hexpiry h
      exact (Option.any_eq_true _ _).mpr ⟨moment, hmem, decide_eq_true hlater⟩
    rw [MemoryItem.valid, MemoryItem.normalized_eq _ _ rfl rfl, Bool.and_eq_true]
    refine ⟨rfl, ?_⟩
    simp [teaRow, MemoryItem.checks, MemoryItem.fieldsValid, MemoryItem.timesValid,
      MemoryItem.contentValid, MemoryItem.expiryValid, MemoryItem.longTermValid,
      MemoryItem.sourceValid, MemoryItem.validityValid, MemoryItem.kindValid,
      MemoryItem.ledgerValid, normalizeSlot, saysNothing, triggerConditionFits_nil,
      knowledgeLedger, hid, huid, hprivate, htea, hrecord, htier]
    refine ⟨?_, rfl⟩
    by_cases h : tier = .shortTerm
    · exact .inr (hshort h)
    · exact .inl (decide_eq_true h)
  · cases tier with
    | shortTerm => rfl
    | longTerm => exact absurd rfl htier
    | archive => rfl

/-- An update that supersedes an archived row leaves it in an illegal state. -/
theorem not_committedSound : ¬ ∃ env : MemoryEnv, ∀ c : CommittedApply env,
    ∀ item ∈ c.result.memoryItems, item.Sound env := by
  rintro ⟨env, hsound⟩
  let logical : OperationLogicalPayload :=
    { decision := "update", targetMemoryId := some "a", resultStatus := some "active",
      supersedes := ["b"] }
  let fields : MemoryOperation :=
    { operationId := "", uid := "u", operationType := .userMutation, evidenceIds := ["e"],
      targetMemoryId := some "a", logicalPayload := logical, logicalPayloadDigest := "",
      accountGeneration := 0, sourceGeneration := 0, createdAt := 0, updatedAt := 0 }
  let operation : MemoryOperation := .new env.toContractHash fields 0
  let patch : DurableMemoryPatch :=
    { patchId := "p", idempotencyKey := "k", decision := .update, resultStatus := .active,
      evidenceIds := ["e"], targetMemoryId := some "a", supersedes := ["b"] }
  let payload : PatchPayload :=
    { patch := patch
      existingItem := some (teaRow "a" .shortTerm (some 2))
      supersededItems := some [teaRow "b" .archive none] }
  let clock : ApplyClock := ⟨1, 1, fun _ => 1, fun _ => 1, 1⟩
  have hevidence : proposedEvidence payload = .ok [teaEvidence] := by
    rfl
  have hpatch : checkPatch env operation payload = .ok () := by
    apply checkPatch_new
    · rfl
    · rfl
    · rfl
    · rfl
  have hoperation : checkOperation env teaControl operation payload [teaEvidence] clock = .ok () := by
    rfl
  have hitems : ∃ item superseded, appliedItems env teaControl operation payload [teaEvidence] clock
      false = .ok ([item, superseded], []) ∧
        [item, superseded].all (·.labelSet.isSome) = true ∧ superseded.legal = false := by
    exact ⟨_, _, rfl, rfl, rfl⟩
  obtain ⟨item, superseded, hitems, hlabels, hillegal⟩ := hitems
  have huid : isBlank "u" = false := by decide
  have hnow : (0 : ℤ) ≤ 1 := by decide
  have hupdate : DurablePatchDecision.update ≠ .skipDuplicate := by decide
  obtain ⟨result, hrun, hresult⟩ := runApply_new huid le_rfl le_rfl le_rfl
    hnow hevidence hpatch hoperation hupdate hitems hlabels
  have h := hsound
    { control := teaControl
      operation := operation
      payload := payload
      clock := clock
      allowTriggerFeedbackArguments := false
      result := result
      applied := apply_of_run hrun
      committed := runApply_committed hrun
      existing_built := by
        intro existing hexisting
        cases Option.some.inj hexisting
        exact teaRow_built env (by decide) (by decide) fun _ => ⟨2, rfl, by decide⟩
      superseded_built := by
        intro existing hexisting
        obtain rfl := List.mem_singleton.mp hexisting
        exact teaRow_built env (by decide) (by decide) fun h => by cases h }
    superseded (by
      dsimp only
      rw [hresult]
      exact List.mem_cons_of_mem _ List.mem_cons_self)
  rw [h.legal] at hillegal
  cases hillegal

end Omi.Memory
