import Omi.Memory.ApplyCases

/-! What an update has to fit, that its row can be read back. The copy runs no validator; the row
it is made of passed them all, so only what the patch and the fields beside it name can go wrong. -/
namespace Omi.Memory
open Omi.Foundation

/-- The row can be read back, in a legal state. -/
structure MemoryItem.Sound (env : MemoryEnv) (item : MemoryItem) : Prop where
  valid : item.valid env = true
  legal : item.legal = true

/-- A row as pydantic builds it: its fields are of their types. -/
structure MemoryItem.Built (env : MemoryEnv) (item : MemoryItem) : Prop
    extends item.Sound env where
  typed : item.misfits = {}
  dictionary : item.oddPromotion = none

/-! ### What the condition looks at -/

/-- A stored row, the payload of an update, and the time of the copy. -/
structure RowUpdate where
  existing : MemoryItem
  payload : PatchPayload
  now : ℤ

namespace RowUpdate
variable (env : MemoryEnv) (u : RowUpdate)

def patch : DurableMemoryPatch := u.payload.patch

/-- The fields beside the patch that are copied. -/
def raw : RawExtras := u.payload.extras.coerced env

/-- The same as pydantic reads them. -/
def named : ItemExtras := (u.raw env).read env.reading

/-- The capture date that is named, or else that of the row. -/
def captured : ℤ := (u.named env).capturedAt.getD u.existing.capturedAt

/-- The patch moves the row to a layer, or leaves it there. -/
def Targets (tier : MemoryLayer) : Prop :=
  u.patch.targetTier = some tier ∨ (u.patch.targetTier = none ∧ u.existing.tier = tier)

/-- The patch makes the row active, or leaves it so. -/
def EndsActive : Prop :=
  u.patch.resultStatus = .active ∨
    (u.patch.resultStatus ∈ [LifecycleState.working, .contextOnly, .review] ∧
      u.existing.status = .active)

/-- The graph fields are cleared, or a graph assertion is due. -/
def MarksGraph (operation : MemoryOperation) : Prop :=
  u.patch.clearGraphAssertion = true ∨
    (u.existing.tier ≠ .longTerm ∧ u.patch.targetTier = some .longTerm) ∨
    operation.operationType = .graphEnrichment ∨
    (u.Targets .longTerm ∧ u.EndsActive ∧ u.existing.graphReady = true)

/-- The payload and the patch name no evidence, so the row keeps its own. -/
def NamesNoEvidence : Prop := u.payload.evidence = [] ∧ u.patch.evidenceIds = []

/-- The ledger fields of the row, with those that the patch sets over them. -/
def ledger : LedgerFields := u.patch.ledgerPatch.over u.existing.ledgerFields

/-- The patch sets a ledger field. -/
abbrev Sets {α : Type} (field : LedgerPatch → Option α) : Prop :=
  (field u.patch.ledgerPatch).isSome = true

/-- What an update has to fit. Pydantic can read the fields beside the patch and the audit; every
other clause is about a value that the patch or these fields bring, beside one that the row has. -/
structure Fits (operation : MemoryOperation) : Prop where
  readable : ({ u.raw env with kgExtracted := none } : RawExtras).readable env.reading = true
  mark : u.MarksGraph operation ∨
    ∀ value ∈ (u.raw env).kgExtracted, (value.read env.reading.bool).isSome = true
  audit : u.payload.oddAudit = none
  capturedBefore : ∀ capturedAt ∈ (u.named env).capturedAt, (u.named env).updatedAt = none →
    capturedAt ≤ u.now ∨ capturedAt ≤ u.existing.updatedAt
  updatedAfter : ∀ updatedAt ∈ (u.named env).updatedAt, u.captured env ≤ updatedAt
  revived : u.patch.resultStatus = .active → saysNothing u.patch.memoryText = true →
    saysNothing u.existing.content = false
  expiryNamed : u.Targets .shortTerm → ∀ expiresAt ∈ (u.named env).expiresAt,
    ∃ moment ∈ expiresAt, u.captured env < moment
  expiryKept : u.Targets .shortTerm → (u.named env).expiresAt = none →
    u.captured env < u.existing.expiresAt.getD (defaultShortTermExpiry u.existing.capturedAt)
  admission : u.Targets .longTerm → u.EndsActive →
    (u.payload.promotionAudit.getD u.existing.promotionRecord).get "admission_receipt" = .none ∨
      u.existing.tier ≠ .longTerm ∨ operation.operationType = .graphEnrichment ∨
      (u.existing.graphReady = true ∧ u.patch.clearGraphAssertion = false)
  source : u.patch.targetUserAsserted = some false → u.NamesNoEvidence →
    u.existing.sourceState = .active → ∃ record ∈ u.existing.evidence, record.sourceState = .active
  weight : ∀ weight ∈ u.patch.ledgerPatch.curationWeight, -100 ≤ weight ∧ weight ≤ 100
  condition : ∀ condition ∈ u.patch.ledgerPatch.triggerCondition,
    triggerConditionFits env condition = true
  validity : (u.named env).capturedAt.isSome = true ∨ u.Sets (·.validFrom) ∨ u.Sets (·.validTo) →
    ∀ validTo ∈ u.ledger.validTo, u.ledger.validFrom.getD (u.captured env) ≤ validTo
  slot : u.Sets (·.kind) ∨ u.Sets (·.slot) →
    u.ledger.kind = .fact ∨ normalizeSlot env u.ledger.slot = none
  trigger : u.Sets (·.kind) ∨ u.Sets (·.triggerCondition) →
    (u.ledger.kind = .trigger ↔ u.ledger.triggerCondition ≠ [])
  text : u.Sets (·.ledgerSchemaVersion) ∨ saysNothing u.patch.memoryText = false →
    u.ledger.ledgerSchemaVersion = knowledgeLedger →
      textLength (if saysNothing u.patch.memoryText then u.existing.content
        else u.patch.memoryText) ≤ 4000
  slotLength : u.Sets (·.ledgerSchemaVersion) ∨ u.Sets (·.slot) →
    u.ledger.ledgerSchemaVersion = knowledgeLedger →
      textLength (normalizeSlot env u.ledger.slot) ≤ 64
  conditionKeys : u.Sets (·.ledgerSchemaVersion) ∨ u.Sets (·.triggerCondition) →
    u.ledger.ledgerSchemaVersion = knowledgeLedger → u.ledger.triggerCondition.length ≤ 13
  body : u.Sets (·.ledgerSchemaVersion) ∨ u.Sets (·.kind) ∨ u.Sets (·.body) →
    u.ledger.ledgerSchemaVersion = knowledgeLedger →
      if u.ledger.kind = .document then
        saysNothing u.ledger.body = false ∧ textLength u.ledger.body ≤ 24000
      else u.ledger.body = none
  reason : u.Sets (·.ledgerSchemaVersion) ∨ u.Sets (·.intentBacked) ∨ u.Sets (·.writeReason) →
    u.ledger.ledgerSchemaVersion = knowledgeLedger →
      ∃ reason ∈ u.ledger.writeReason, u.ledger.intentBacked = true ∨ reason = .legacyMigration

end RowUpdate

/-! ### Raw values, as they are copied and as they are read back -/

/-- A reading takes over what another one reads. -/
def Extends {β α : Type} (lax own : β → Option α) : Prop :=
  ∀ value a, own value = some a → lax value = some a

theorem MemoryEnv.reading_int (env : MemoryEnv) :
    Extends env.reading.int FieldReading.own.int := by
  intro value n h
  cases value <;> cases h
  rfl

theorem MemoryEnv.reading_moment (env : MemoryEnv) :
    Extends env.reading.moment FieldReading.own.moment := by
  intro value micros h
  simp [MemoryEnv.reading, h]

theorem MemoryEnv.reading_bool (env : MemoryEnv) :
    Extends env.reading.bool FieldReading.own.bool := by
  intro value b h
  simp [MemoryEnv.reading, h]

namespace Extends
variable {α : Type}

theorem refl {β : Type} (reading : β → Option α) : Extends reading reading := fun _ _ => id

theorem read {lax own : PyVal → Option α} (h : Extends lax own) :
    Extends (RawValue.read lax) (RawValue.read own) := by
  intro value a hown
  cases value with
  | plain value => exact h value a hown
  | naive micros => cases hown

theorem readMoment {lax own : PyVal → Option ℤ} (h : Extends lax own) :
    Extends (RawValue.readMoment lax) (RawValue.readMoment own) := by
  intro value a hown
  cases value with
  | plain value =>
    obtain ⟨micros, hread, rfl⟩ := Option.map_eq_some_iff.mp hown
    exact Option.map_eq_some_iff.mpr ⟨micros, h value micros hread, rfl⟩
  | naive micros => exact hown

theorem readOptional {lax own : RawValue → Option α} (h : Extends lax own) :
    Extends (RawValue.readOptional lax) (RawValue.readOptional own) := by
  intro value a hown
  unfold RawValue.readOptional at hown ⊢
  split at hown
  · exact hown
  · obtain ⟨b, hread, rfl⟩ := Option.map_eq_some_iff.mp hown
    exact Option.map_eq_some_iff.mpr ⟨b, h value b hread, rfl⟩

end Extends

namespace RawExtras
variable {α : Type} {own lax : RawValue → Option α} {raw : Option RawValue}

/-- What is of the type is not read again, and what is not is read once. -/
theorem read_unread (h : Extends lax own) (base : α) :
    ((unread raw (raw.bind own)).bind lax).getD ((raw.bind own).getD base) =
      (raw.bind lax).getD base := by
  cases raw with
  | none => rfl
  | some value =>
    cases hown : own value with
    | none => simp [unread, hown]
    | some a => simp [unread, hown, h value a hown]

theorem unread_unread (h : Extends lax own) :
    unread (unread raw (raw.bind own)) ((unread raw (raw.bind own)).bind lax) =
      unread raw (raw.bind lax) := by
  cases raw with
  | none => rfl
  | some value =>
    cases hown : own value with
    | none => simp [unread, hown]
    | some a => simp [unread, hown, h value a hown]

theorem unread_eq_none_iff (reading : RawValue → Option α) :
    unread raw (raw.bind reading) = none ↔ ∀ value ∈ raw, (reading value).isSome = true := by
  cases raw with
  | none => simp [unread]
  | some value => cases hread : reading value <;> simp [unread, hread]

end RawExtras

namespace RawExtras
variable (env : MemoryEnv) (raw : RawExtras)

/-- Reading the misfits of a copy reads all that was copied. -/
theorem without_without :
    (raw.without (raw.read .own)).without ((raw.without (raw.read .own)).read env.reading) =
      raw.without (raw.read env.reading) := by
  have hmoment := env.reading_moment
  rw [without, without, without, RawExtras.mk.injEq]
  exact ⟨unread_unread env.reading_int.read, unread_unread hmoment.readMoment.readOptional,
    unread_unread hmoment.read, unread_unread hmoment.read,
    unread_unread hmoment.read.readOptional, unread_unread (.refl _),
    unread_unread env.reading_bool.read, unread_unread (.refl _), unread_unread (.refl _),
    unread_unread (.refl _), unread_unread (.refl _)⟩

theorem readable_without :
    (raw.without (raw.read .own)).readable env.reading = raw.readable env.reading := by
  rw [readable, readable, without_without]

/-- The fields can be read if the mark can and the others can. -/
theorem readable_iff : raw.readable env.reading = true ↔
    ({ raw with kgExtracted := none } : RawExtras).readable env.reading = true ∧
      ∀ value ∈ raw.kgExtracted, (value.read env.reading.bool).isSome = true := by
  rw [← unread_eq_none_iff (RawValue.read env.reading.bool)]
  simp only [readable, decide_eq_true_eq, without, read, RawExtras.mk.injEq]
  constructor
  · rintro ⟨h1, h2, h3, h4, h5, h6, hmark, h7, h8, h9, h10⟩
    exact ⟨⟨h1, h2, h3, h4, h5, h6, rfl, h7, h8, h9, h10⟩, hmark⟩
  · rintro ⟨⟨h1, h2, h3, h4, h5, h6, -, h7, h8, h9, h10⟩, hmark⟩
    exact ⟨h1, h2, h3, h4, h5, h6, hmark, h7, h8, h9, h10⟩

end RawExtras

/-! ### What is known of the row -/

namespace MemoryItem.Built
variable {env : MemoryEnv} {item : MemoryItem} (h : item.Built env)
include h

/-- The row passed its checks, with its slot normalised. -/
theorem checked : ({ item with
    normalizedContentKey := normalizedMemoryContentKey env item.content
    sensitivityLabels := normalizeSensitivity env item.sensitivityLabels
    slot := normalizeSlot env item.slot } : MemoryItem).checks env = true := by
  rw [← item.normalized_eq env h.typed h.dictionary]
  exact (Bool.and_eq_true_iff.mp h.valid).2

theorem fields : (!isBlank item.memoryId) = true ∧ (!isBlank item.uid) = true ∧
    (!isBlank item.visibility) = true ∧ 1 ≤ item.version ∧
    (-100 ≤ item.curationWeight ∧ item.curationWeight ≤ 100) ∧
    triggerConditionFits env item.triggerCondition = true ∧
    item.evidence.all MemoryEvidence.valid = true := by
  have hchecked := h.checked
  simp only [checks, fieldsValid, Bool.and_eq_true, decide_eq_true_eq] at hchecked
  obtain ⟨⟨⟨⟨⟨⟨⟨⟨hfields, -⟩, -⟩, -⟩, -⟩, -⟩, -⟩, -⟩, -⟩ := hchecked
  obtain ⟨⟨⟨⟨⟨⟨⟨hid, huid⟩, hvisibility⟩, hversion⟩, hlower⟩, hupper⟩, hcondition⟩, hevidence⟩ :=
    hfields
  exact ⟨hid, huid, hvisibility, hversion, ⟨hlower, hupper⟩, hcondition, hevidence⟩

theorem times : item.capturedAt ≤ item.updatedAt := by
  have hchecked := h.checked
  simp only [checks, timesValid, Bool.and_eq_true, decide_eq_true_eq] at hchecked
  exact hchecked.1.1.1.1.1.1.1.2

theorem content (hactive : item.status = .active) : saysNothing item.content = false := by
  have hchecked := h.checked
  simp only [checks, contentValid, Bool.and_eq_true, hactive] at hchecked
  simpa using hchecked.1.1.1.1.1.1.2

theorem source (hstate : item.sourceState = .active) (hasserted : item.userAsserted = false) :
    ∃ record ∈ item.evidence, record.sourceState = .active := by
  have hchecked := h.checked
  simp only [checks, sourceValid, Bool.and_eq_true, hstate, hasserted] at hchecked
  simpa using hchecked.1.1.1.2

theorem validity : item.validityValid = true := by
  have hchecked := h.checked
  simp only [checks, Bool.and_eq_true] at hchecked
  exact hchecked.1.1.2

theorem kind : (item.kind = .fact ∨ normalizeSlot env item.slot = none) ∧
    (item.kind = .trigger ↔ item.triggerCondition ≠ []) := by
  have hchecked := h.checked
  simp only [checks, kindValid, Bool.and_eq_true, Bool.or_eq_true, decide_eq_true_eq] at hchecked
  obtain ⟨hslot, htrigger⟩ := hchecked.1.2
  refine ⟨hslot, ?_⟩
  split_ifs at htrigger with hkind <;> simpa [hkind] using htrigger

/-- The limits of a ledger row. -/
theorem ledger (hledger : item.ledgerSchemaVersion = knowledgeLedger) :
    textLength item.content ≤ 4000 ∧ textLength (normalizeSlot env item.slot) ≤ 64 ∧
      item.triggerCondition.length ≤ 13 ∧
      (if item.kind = .document then
        saysNothing item.body = false ∧ textLength item.body ≤ 24000
      else item.body = none) ∧
      ∃ reason ∈ item.writeReason, item.intentBacked = true ∨ reason = .legacyMigration := by
  have hchecked := h.checked
  simp only [checks, ledgerValid, Bool.and_eq_true, hledger, ne_eq, not_true, decide_false,
    Bool.false_or, decide_eq_true_eq, Option.any_eq_true, Bool.or_eq_true] at hchecked
  obtain ⟨⟨⟨⟨htext, hslot⟩, hbody⟩, hkeys⟩, hreason⟩ := hchecked.2
  refine ⟨htext, hslot, hkeys, ?_, hreason⟩
  split_ifs at hbody ⊢ with hkind <;> simpa using hbody

end MemoryItem.Built

/-! ### The copy of an update -/

namespace RowUpdate
variable {env : MemoryEnv} {u : RowUpdate} {evidence : List MemoryEvidence} {point : CommitPoint}

/-- The copy, before its graph fields are cleared or marked. -/
def copy (env : MemoryEnv) (u : RowUpdate) (evidence : List MemoryEvidence) (point : CommitPoint) :
    MemoryItem :=
  (updatedRow env u.existing u.payload evidence point u.now).copyWith (u.raw env)

theorem targets_iff {tier : MemoryLayer} :
    updatedTier u.existing u.patch = tier ↔ u.Targets tier := by
  unfold updatedTier Targets
  cases u.patch.targetTier <;> simp

theorem endsActive_iff : updatedStatus u.existing u.patch = .active ↔ u.EndsActive := by
  unfold updatedStatus EndsActive
  cases u.patch.resultStatus <;> simp

theorem copy_capturedAt : ((u.copy env evidence point).normalized env).capturedAt =
    u.captured env :=
  RawExtras.read_unread env.reading_moment.read u.existing.capturedAt

theorem copy_updatedAt : ((u.copy env evidence point).normalized env).updatedAt =
    (u.named env).updatedAt.getD (max u.now (max u.existing.capturedAt u.existing.updatedAt)) :=
  RawExtras.read_unread env.reading_moment.read _

theorem copy_expiresAt : ((u.copy env evidence point).normalized env).expiresAt =
    (u.named env).expiresAt.getD (if updatedTier u.existing u.patch = .shortTerm then
      some (u.existing.expiresAt.getD (defaultShortTermExpiry u.existing.capturedAt))
    else none) :=
  RawExtras.read_unread env.reading_moment.read.readOptional _

/-- The row cannot fail the check of a value that only the patch can change, where the patch does
not set it. -/
theorem forall_getD_iff {α : Type} {P : α → Prop} {named : Option α} {old : α} (hold : P old) :
    P (named.getD old) ↔ ∀ value ∈ named, P value := by
  cases named <;> simp [hold]

theorem copy_fieldsValid_iff (hpatch : u.patch.valid env = true) (hrow : u.existing.Built env)
    (hrecords : ∀ record ∈ evidence, record.valid = true) :
    ((u.copy env evidence point).normalized env).fieldsValid env = true ↔
      (∀ weight ∈ u.patch.ledgerPatch.curationWeight, -100 ≤ weight ∧ weight ≤ 100) ∧
        ∀ condition ∈ u.patch.ledgerPatch.triggerCondition,
          triggerConditionFits env condition = true := by
  obtain ⟨hmemoryId, huid, hvisibility, hversion, hweight, hcondition, hevidence⟩ := hrow.fields
  have hshown : (!isBlank (u.patch.targetVisibility.getD u.existing.visibility)) = true := by
    cases htarget : u.patch.targetVisibility with
    | none => exact hvisibility
    | some visibility =>
      simp only [DurableMemoryPatch.valid, htarget, Option.all_some, Bool.and_eq_true] at hpatch
      have hmem := of_decide_eq_true hpatch.1.1.1.1.1
      simp only [List.mem_cons, List.not_mem_nil, or_false] at hmem
      change (!isBlank visibility) = true
      rcases hmem with rfl | rfl | rfl <;> decide
  have hversion' : 1 ≤ u.existing.version + 1 := by
    omega
  have hevidence' : (evidenceOr evidence u.existing).all MemoryEvidence.valid = true := by
    unfold evidenceOr
    split_ifs
    · exact hevidence
    · exact List.all_eq_true.mpr hrecords
  rw [← forall_getD_iff (P := fun weight : ℤ => -100 ≤ weight ∧ weight ≤ 100) hweight,
    ← forall_getD_iff (P := fun condition => triggerConditionFits env condition = true) hcondition]
  change (!isBlank u.existing.memoryId && !isBlank u.existing.uid &&
    !isBlank (u.patch.targetVisibility.getD u.existing.visibility) &&
    decide (1 ≤ u.existing.version + 1) &&
    decide (-100 ≤ u.patch.ledgerPatch.curationWeight.getD u.existing.curationWeight) &&
    decide (u.patch.ledgerPatch.curationWeight.getD u.existing.curationWeight ≤ 100) &&
    triggerConditionFits env
      (u.patch.ledgerPatch.triggerCondition.getD u.existing.triggerCondition) &&
    (evidenceOr evidence u.existing).all MemoryEvidence.valid) = true ↔ _
  simp only [hmemoryId, huid, hshown, hversion', hevidence', decide_true, Bool.true_and,
    Bool.and_true, Bool.and_eq_true, decide_eq_true_eq]

theorem copy_timesValid_iff (hrow : u.existing.Built env) :
    ((u.copy env evidence point).normalized env).timesValid = true ↔
      (∀ capturedAt ∈ (u.named env).capturedAt, (u.named env).updatedAt = none →
        capturedAt ≤ u.now ∨ capturedAt ≤ u.existing.updatedAt) ∧
      ∀ updatedAt ∈ (u.named env).updatedAt, u.captured env ≤ updatedAt := by
  rw [MemoryItem.timesValid, decide_eq_true_iff, copy_capturedAt, copy_updatedAt, captured]
  have hold := hrow.times
  cases (u.named env).updatedAt with
  | some updatedAt => simp
  | none =>
    cases (u.named env).capturedAt with
    | none => simp
    | some capturedAt =>
      simp only [Option.getD_none, Option.getD_some, le_max_iff, Option.mem_def, Option.some.injEq,
        forall_eq', forall_const, reduceCtorEq, false_implies, and_true]
      constructor
      · rintro (hnow | hcaptured | hupdated)
        · exact .inl hnow
        · exact .inr (hcaptured.trans hold)
        · exact .inr hupdated
      · rintro (hnow | hupdated)
        · exact .inl hnow
        · exact .inr (.inr hupdated)

theorem copy_contentValid_iff (hrow : u.existing.Built env) :
    ((u.copy env evidence point).normalized env).contentValid = true ↔
      (u.patch.resultStatus = .active → saysNothing u.patch.memoryText = true →
        saysNothing u.existing.content = false) := by
  change (decide (updatedStatus u.existing u.patch ≠ .active) ||
    !saysNothing (resolvedUpdateContent u.existing u.patch)) = true ↔ _
  have hold := hrow.content
  simp only [Bool.or_eq_true, decide_eq_true_eq, Bool.not_eq_true', ne_eq, endsActive_iff,
    EndsActive, resolvedUpdateContent]
  by_cases hblank : saysNothing u.patch.memoryText = true
  · simp only [hblank, if_true, forall_const]
    constructor
    · rintro (hends | hcontent) hresult
      · exact absurd (.inl hresult) hends
      · exact hcontent
    · intro hrevived
      by_cases hresult : u.patch.resultStatus = .active
      · exact .inr (hrevived hresult)
      by_cases hstatus : u.existing.status = .active
      · exact .inr (hold hstatus)
      · exact .inl (by simp [hresult, hstatus])
  · simp [hblank]

theorem copy_expiryValid_iff :
    ((u.copy env evidence point).normalized env).expiryValid = true ↔
      (u.Targets .shortTerm → ∀ expiresAt ∈ (u.named env).expiresAt,
        ∃ moment ∈ expiresAt, u.captured env < moment) ∧
      (u.Targets .shortTerm → (u.named env).expiresAt = none → u.captured env <
        u.existing.expiresAt.getD (defaultShortTermExpiry u.existing.capturedAt)) := by
  have htier : ((u.copy env evidence point).normalized env).tier =
      updatedTier u.existing u.patch := rfl
  rw [MemoryItem.expiryValid, htier, copy_expiresAt, copy_capturedAt]
  simp only [Bool.or_eq_true, decide_eq_true_eq, Option.any_eq_true]
  by_cases hshort : updatedTier u.existing u.patch = .shortTerm
  · simp only [hshort, targets_iff.mp hshort, ne_eq, not_true, false_or, if_true, forall_const]
    cases (u.named env).expiresAt <;> simp
  · simp [hshort, mt targets_iff.mpr hshort]

theorem copy_sourceValid_iff (hrow : u.existing.Built env)
    (hactive : ∀ record ∈ evidence, record.sourceState = .active)
    (hnone : evidence = [] ↔ u.NamesNoEvidence) :
    ((u.copy env evidence point).normalized env).sourceValid = true ↔
      (u.patch.targetUserAsserted = some false → u.NamesNoEvidence →
        u.existing.sourceState = .active →
          ∃ record ∈ u.existing.evidence, record.sourceState = .active) := by
  change (decide (u.existing.sourceState ≠ .active) ||
    u.patch.targetUserAsserted.getD u.existing.userAsserted ||
      (evidenceOr evidence u.existing).any (·.sourceState = .active)) = true ↔ _
  have hnamed : evidence ≠ [] → evidence.any (·.sourceState = .active) = true := by
    intro hnonempty
    obtain ⟨record, hrecord⟩ := List.exists_mem_of_ne_nil evidence hnonempty
    exact List.any_eq_true.mpr ⟨record, hrecord, decide_eq_true (hactive record hrecord)⟩
  rw [← hnone]
  by_cases hempty : evidence = []
  · simp only [hempty, evidenceOr, List.isEmpty_nil, if_true, Bool.or_eq_true, decide_eq_true_eq,
      List.any_eq_true, forall_true_left]
    constructor
    · rintro ((hstate | hasserted) | hrecord) htarget hactive
      · exact absurd hactive hstate
      · simp [htarget] at hasserted
      · exact hrecord
    · intro h
      by_cases hstate : u.existing.sourceState = .active
      swap
      · exact .inl (.inl hstate)
      cases htarget : u.patch.targetUserAsserted with
      | none =>
        cases hasserted : u.existing.userAsserted with
        | true => exact .inl (.inr rfl)
        | false => exact .inr (hrow.source hstate hasserted)
      | some asserted =>
        cases asserted with
        | true => exact .inl (.inr rfl)
        | false => exact .inr (h htarget hstate)
  · have hkept : evidenceOr evidence u.existing = evidence := by
      rw [evidenceOr, if_neg (by simpa using hempty)]
    simp [hkept, hnamed hempty, hempty]

/-- Where nothing that a check looks at is named, the row passes it as it did. -/
theorem imp_iff_of_not {P Q : Prop} (h : ¬ Q → P) : P ↔ (Q → P) := by
  tauto

theorem copy_validityValid_iff (hrow : u.existing.Built env) :
    ((u.copy env evidence point).normalized env).validityValid = true ↔
      ((u.named env).capturedAt.isSome = true ∨ u.Sets (·.validFrom) ∨ u.Sets (·.validTo) →
        ∀ validTo ∈ u.ledger.validTo, u.ledger.validFrom.getD (u.captured env) ≤ validTo) := by
  have hfields : ((u.copy env evidence point).normalized env).validTo = u.ledger.validTo ∧
      ((u.copy env evidence point).normalized env).validFrom = u.ledger.validFrom := ⟨rfl, rfl⟩
  rw [MemoryItem.validityValid, hfields.1, hfields.2, copy_capturedAt]
  simp only [Option.all_eq_true, decide_eq_true_eq]
  apply imp_iff_of_not
  intro hnone
  simp only [Sets, not_or, Bool.not_eq_true, Option.isSome_eq_false_iff, Option.isNone_iff_eq_none]
    at hnone
  obtain ⟨hcaptured, hfrom, hto⟩ := hnone
  have hold := hrow.validity
  simp only [MemoryItem.validityValid, Option.all_eq_true, decide_eq_true_eq] at hold
  simpa [ledger, LedgerPatch.over, MemoryItem.ledgerFields, captured, hcaptured, hfrom, hto] using hold

theorem copy_kindValid_iff (hrow : u.existing.Built env) :
    ((u.copy env evidence point).normalized env).kindValid = true ↔
      (u.Sets (·.kind) ∨ u.Sets (·.slot) →
        u.ledger.kind = .fact ∨ normalizeSlot env u.ledger.slot = none) ∧
      (u.Sets (·.kind) ∨ u.Sets (·.triggerCondition) →
        (u.ledger.kind = .trigger ↔ u.ledger.triggerCondition ≠ [])) := by
  have hchecked : ((u.copy env evidence point).normalized env).kindValid = true ↔
      (u.ledger.kind = .fact ∨ normalizeSlot env u.ledger.slot = none) ∧
        (u.ledger.kind = .trigger ↔ u.ledger.triggerCondition ≠ []) := by
    change ((decide (u.ledger.kind = .fact) || decide (normalizeSlot env u.ledger.slot = none)) &&
      (if u.ledger.kind = .trigger then !u.ledger.triggerCondition.isEmpty
        else u.ledger.triggerCondition.isEmpty)) = true ↔ _
    split_ifs with htrigger <;> simp [htrigger]
  obtain ⟨hslot, htrigger⟩ := hrow.kind
  rw [hchecked]
  apply and_congr <;> apply imp_iff_of_not <;> intro hnone <;>
    simp only [Sets, not_or, Bool.not_eq_true, Option.isSome_eq_false_iff,
      Option.isNone_iff_eq_none] at hnone
  · simpa [ledger, LedgerPatch.over, MemoryItem.ledgerFields, hnone] using hslot
  · simpa [ledger, LedgerPatch.over, MemoryItem.ledgerFields, hnone] using htrigger

/-- The check of one ledger limit is a check of the row where the patch names none of its fields. -/
theorem ledger_imp_iff_of_not {ledger : Prop} {P Q : Prop} (h : ¬ Q → ledger → P) :
    (ledger → P) ↔ (Q → ledger → P) := by
  tauto

/-- The limits of a ledger row, on the ledger fields that an update leaves it. -/
theorem copy_ledgerValid_checks : ((u.copy env evidence point).normalized env).ledgerValid = true ↔
    (u.ledger.ledgerSchemaVersion = knowledgeLedger →
      textLength (if saysNothing u.patch.memoryText then u.existing.content
        else u.patch.memoryText) ≤ 4000) ∧
    (u.ledger.ledgerSchemaVersion = knowledgeLedger →
      textLength (normalizeSlot env u.ledger.slot) ≤ 64) ∧
    (u.ledger.ledgerSchemaVersion = knowledgeLedger → u.ledger.triggerCondition.length ≤ 13) ∧
    (u.ledger.ledgerSchemaVersion = knowledgeLedger →
      if u.ledger.kind = .document then
        saysNothing u.ledger.body = false ∧ textLength u.ledger.body ≤ 24000
      else u.ledger.body = none) ∧
    (u.ledger.ledgerSchemaVersion = knowledgeLedger → ∃ reason ∈ u.ledger.writeReason,
      u.ledger.intentBacked = true ∨ reason = .legacyMigration) := by
  have hbody : (if u.ledger.kind = .document then
        !saysNothing u.ledger.body && decide (textLength u.ledger.body ≤ 24000)
      else decide (u.ledger.body = none)) = true ↔
      if u.ledger.kind = .document then
        saysNothing u.ledger.body = false ∧ textLength u.ledger.body ≤ 24000
      else u.ledger.body = none := by
    split_ifs <;> simp
  change (decide (u.ledger.ledgerSchemaVersion ≠ knowledgeLedger) ||
    (decide (textLength (resolvedUpdateContent u.existing u.patch) ≤ 4000) &&
      decide (textLength (normalizeSlot env u.ledger.slot) ≤ 64) &&
      (if u.ledger.kind = .document then
          !saysNothing u.ledger.body && decide (textLength u.ledger.body ≤ 24000)
        else decide (u.ledger.body = none)) &&
      decide (u.ledger.triggerCondition.length ≤ 13) &&
      u.ledger.writeReason.any fun reason =>
        u.ledger.intentBacked || decide (reason = .legacyMigration))) = true ↔ _
  by_cases hledger : u.ledger.ledgerSchemaVersion = knowledgeLedger
  · simp only [ne_eq, hledger, not_true, decide_false, Bool.false_or, Bool.and_eq_true,
      decide_eq_true_eq, hbody, Option.any_eq_true, Bool.or_eq_true, forall_true_left]
    constructor
    · rintro ⟨⟨⟨⟨htext, hslot⟩, hbody⟩, hkeys⟩, hreason⟩
      exact ⟨htext, hslot, hkeys, hbody, hreason⟩
    · rintro ⟨htext, hslot, hkeys, hbody, hreason⟩
      exact ⟨⟨⟨⟨htext, hslot⟩, hbody⟩, hkeys⟩, hreason⟩
  · simp [hledger]

theorem copy_ledgerValid_iff (hrow : u.existing.Built env) :
    ((u.copy env evidence point).normalized env).ledgerValid = true ↔
      (u.Sets (·.ledgerSchemaVersion) ∨ saysNothing u.patch.memoryText = false →
        u.ledger.ledgerSchemaVersion = knowledgeLedger →
          textLength (if saysNothing u.patch.memoryText then u.existing.content
            else u.patch.memoryText) ≤ 4000) ∧
      (u.Sets (·.ledgerSchemaVersion) ∨ u.Sets (·.slot) →
        u.ledger.ledgerSchemaVersion = knowledgeLedger →
          textLength (normalizeSlot env u.ledger.slot) ≤ 64) ∧
      (u.Sets (·.ledgerSchemaVersion) ∨ u.Sets (·.triggerCondition) →
        u.ledger.ledgerSchemaVersion = knowledgeLedger →
          u.ledger.triggerCondition.length ≤ 13) ∧
      (u.Sets (·.ledgerSchemaVersion) ∨ u.Sets (·.kind) ∨ u.Sets (·.body) →
        u.ledger.ledgerSchemaVersion = knowledgeLedger →
          if u.ledger.kind = .document then
            saysNothing u.ledger.body = false ∧ textLength u.ledger.body ≤ 24000
          else u.ledger.body = none) ∧
      (u.Sets (·.ledgerSchemaVersion) ∨ u.Sets (·.intentBacked) ∨ u.Sets (·.writeReason) →
        u.ledger.ledgerSchemaVersion = knowledgeLedger →
          ∃ reason ∈ u.ledger.writeReason,
            u.ledger.intentBacked = true ∨ reason = .legacyMigration) := by
  have hold := hrow.ledger
  rw [copy_ledgerValid_checks]
  -- a limit on fields that are all of the row is one the row met
  refine and_congr ?_ (and_congr ?_ (and_congr ?_ (and_congr ?_ ?_))) <;>
    apply ledger_imp_iff_of_not <;> intro hnone hledger <;>
    simp only [Sets, not_or, Bool.not_eq_true, Bool.not_eq_false, Option.isSome_eq_false_iff,
      Option.isNone_iff_eq_none] at hnone <;>
    simp only [ledger, LedgerPatch.over, MemoryItem.ledgerFields, hnone, Option.getD_none]
      at hledger ⊢
  · exact (hold hledger).1
  · exact (hold hledger).2.1
  · exact (hold hledger).2.2.1
  · exact (hold hledger).2.2.2.1
  · exact (hold hledger).2.2.2.2

end RowUpdate

end Omi.Memory
