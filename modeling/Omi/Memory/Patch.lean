import Omi.Memory.Item

/-! The durable patch contract of `models/memory_contracts.py`, and the patch payload an apply
receives, with the authoritative rows and the row fields that travel beside the patch. -/
namespace Omi.Memory
open Omi.Foundation

inductive LifecycleState where
  | working
  | active
  | contextOnly
  | review
  | superseded
  | rejected
  | hidden
  deriving DecidableEq, Repr

def LifecycleState.text : LifecycleState → String
  | .working => "working"
  | .active => "active"
  | .contextOnly => "context_only"
  | .review => "review"
  | .superseded => "superseded"
  | .rejected => "rejected"
  | .hidden => "hidden"

inductive DurablePatchDecision where
  | add
  | update
  | merge
  | addEvidence
  | keepBoth
  | skipDuplicate
  | contextOnly
  | reject
  | review
  deriving DecidableEq, Repr

def DurablePatchDecision.text : DurablePatchDecision → String
  | .add => "add"
  | .update => "update"
  | .merge => "merge"
  | .addEvidence => "add_evidence"
  | .keepBoth => "keep_both"
  | .skipDuplicate => "skip_duplicate"
  | .contextOnly => "context_only"
  | .reject => "reject"
  | .review => "review"

/-- The ledger fields a row and a patch share, with the defaults of both models. -/
structure LedgerFields where
  ledgerSchemaVersion : Option String := none
  kind : MemoryKind := .fact
  subjectScope : MemorySubjectScope := .primaryUser
  slot : Option String := none
  body : Option String := none
  validFrom : Option ℤ := none
  validTo : Option ℤ := none
  curationWeight : ℤ := 0
  triggerCondition : PyDict := []
  intentBacked : Bool := false
  writeReason : Option LedgerWriteReason := none
  deriving DecidableEq, Repr

/-- The ledger fields in a patch's `model_fields_set`, with their values. -/
structure LedgerPatch where
  ledgerSchemaVersion : Option (Option String) := none
  kind : Option MemoryKind := none
  subjectScope : Option MemorySubjectScope := none
  slot : Option (Option String) := none
  body : Option (Option String) := none
  validFrom : Option (Option ℤ) := none
  validTo : Option (Option ℤ) := none
  curationWeight : Option ℤ := none
  triggerCondition : Option PyDict := none
  intentBacked : Option Bool := none
  writeReason : Option (Option LedgerWriteReason) := none
  deriving DecidableEq, Repr

/-- The set fields over those of a base. -/
def LedgerPatch.over (patch : LedgerPatch) (base : LedgerFields) : LedgerFields where
  ledgerSchemaVersion := patch.ledgerSchemaVersion.getD base.ledgerSchemaVersion
  kind := patch.kind.getD base.kind
  subjectScope := patch.subjectScope.getD base.subjectScope
  slot := patch.slot.getD base.slot
  body := patch.body.getD base.body
  validFrom := patch.validFrom.getD base.validFrom
  validTo := patch.validTo.getD base.validTo
  curationWeight := patch.curationWeight.getD base.curationWeight
  triggerCondition := patch.triggerCondition.getD base.triggerCondition
  intentBacked := patch.intentBacked.getD base.intentBacked
  writeReason := patch.writeReason.getD base.writeReason

def MemoryItem.ledgerFields (item : MemoryItem) : LedgerFields where
  ledgerSchemaVersion := item.ledgerSchemaVersion
  kind := item.kind
  subjectScope := item.subjectScope
  slot := item.slot
  body := item.body
  validFrom := item.validFrom
  validTo := item.validTo
  curationWeight := item.curationWeight
  triggerCondition := item.triggerCondition
  intentBacked := item.intentBacked
  writeReason := item.writeReason

structure EvidenceRef where
  evidenceId : String
  sourceId : Option String := none
  sourceType : Option String := none
  quote : Option String := none
  deriving DecidableEq, Repr

structure DurableMemoryPatch where
  patchId : String
  idempotencyKey : String
  decision : DurablePatchDecision
  resultStatus : LifecycleState
  evidenceIds : List String := []
  evidenceRefs : List EvidenceRef := []
  targetMemoryId : Option String := none
  newMemoryId : Option String := none
  memoryText : Option String := none
  predicate : Option String := none
  arguments : PyDict := []
  supersedes : List String := []
  subjectEntityId : Option String := none
  initialTier : MemoryLayer := .shortTerm
  targetTier : Option MemoryLayer := none
  targetVisibility : Option String := none
  targetUserAsserted : Option Bool := none
  clearGraphAssertion : Bool := false
  visibility : String := "private"
  userAsserted : Bool := false
  ledgerPatch : LedgerPatch := {}
  deriving DecidableEq, Repr

/-- An optional text that is there and not empty. -/
def present (text : Option String) : Bool := text.any (· ≠ "")

namespace DurableMemoryPatch
variable (env : MemoryEnv) (patch : DurableMemoryPatch)

/-- The ledger fields of the patch, unset ones at their defaults. -/
def ledger : LedgerFields := patch.ledgerPatch.over {}

/-- `patch.ledger_schema_version == "knowledge_ledger.v1"`. -/
def isLedger : Bool := patch.ledger.ledgerSchemaVersion = knowledgeLedger

/-- Decisions that act on an existing row. -/
def needsTarget : Bool :=
  patch.decision ∈ [DurablePatchDecision.merge, .update, .addEvidence, .skipDuplicate]

/-- The checks on patches of the knowledge ledger. -/
def ledgerContractValid : Bool :=
  (patch.decision ≠ .add || patch.initialTier = .longTerm) &&
  (patch.decision ≠ .update || patch.targetTier.all (· = .longTerm)) &&
  (patch.ledger.writeReason.any fun reason =>
    patch.ledger.intentBacked || reason = .legacyMigration) &&
  textLength patch.memoryText ≤ 4000 && textLength patch.ledger.slot ≤ 64 &&
  (if patch.ledger.kind = .document then
      !saysNothing patch.ledger.body && textLength patch.ledger.body ≤ 24000
    else patch.ledger.body = none) &&
  (patch.ledger.kind = .fact || patch.ledger.slot = none) &&
  (if patch.ledger.kind = .trigger then !patch.ledger.triggerCondition.isEmpty
    else patch.ledger.triggerCondition.isEmpty) &&
  patch.ledger.triggerCondition.length ≤ 13 &&
  triggerConditionFits env patch.ledger.triggerCondition

/-- The validators of `DurableMemoryPatch`. -/
def valid : Bool :=
  patch.targetVisibility.all (· ∈ ["private", "public", "shared"]) &&
  (patch.initialTier ≠ .longTerm || patch.isLedger) &&
  (!patch.needsTarget || present patch.targetMemoryId) &&
  (patch.decision ≠ .add || present patch.memoryText || present patch.newMemoryId) &&
  ((patch.resultStatus ≠ .active && patch.resultStatus ≠ .review) ||
    !patch.evidenceIds.isEmpty || !patch.evidenceRefs.isEmpty) &&
  (!patch.isLedger || patch.ledgerContractValid env)

end DurableMemoryPatch

/-- A timestamp as a payload holds it: a text becomes its moment, and a malformed one is dropped
(`_coerce_iso_timestamp`; a trailing `Z` is read as UTC). -/
def RawValue.coerceTimestamp (env : MemoryEnv) : RawValue → Option RawValue
  | .plain (.str iso) =>
    let offset := String.ofList (iso.toList.flatMap fun c =>
      if c = 'Z' then "+00:00".toList else [c])
    match env.fromIsoformat offset with
    | some (.aware micros) => some (.plain (.datetime micros))
    | some (.naive micros) => some (.naive micros)
    | none => none
  | raw => some raw

/-- `confidence` is kept where it is a number or `None`. -/
def RawValue.keptConfidence : RawValue → Bool
  | .plain value => value = .none || value.number?.isSome
  | .naive _ => false

/-- The extras of a payload as they are copied: timestamps are coerced, and malformed ones and
confidences that are no numbers are dropped. -/
def RawExtras.coerced (env : MemoryEnv) (raw : RawExtras) : RawExtras :=
  { raw with
    lastCorroboratedAt := raw.lastCorroboratedAt.bind (RawValue.coerceTimestamp env)
    capturedAt := raw.capturedAt.bind (RawValue.coerceTimestamp env)
    updatedAt := raw.updatedAt.bind (RawValue.coerceTimestamp env)
    expiresAt := raw.expiresAt.bind (RawValue.coerceTimestamp env)
    confidence := raw.confidence.filter RawValue.keptConfidence }

/-- The argument `patch_payload`: `keys` is the dictionary its mutation identity is read from,
the other fields are its entries as the apply takes them out. Nothing checks `audit` and `extras`;
the authoritative rows were built by pydantic, so that their fields are of their types. -/
structure PatchPayload where
  keys : PyDict := []
  patch : DurableMemoryPatch
  existingItem : Option MemoryItem := none
  supersededItems : Option (List MemoryItem) := none
  audit : PyVal := .none
  promotion : Option PyDict := none
  expectedItemRevision : Option ℤ := none
  expectedContentHash : Option String := none
  extras : RawExtras := {}
  evidence : List EvidenceObject := []

/-- `promotion_audit`, where anything but a dictionary counts as an empty one. -/
def PatchPayload.promotionAudit (payload : PatchPayload) : Option PyDict :=
  match payload.audit with
  | .none => none
  | audit => some (audit.dict?.getD [])

/-- An audit that is no dictionary. -/
def PatchPayload.oddAudit (payload : PatchPayload) : Option PyVal :=
  match payload.audit with
  | .none | .dict _ => none
  | audit => some audit

/-- `_PATCH_MUTATION_IDENTITY_EXCLUDED_KEYS`. -/
def patchMutationIdentityExcludedKeys : List String :=
  ["schema_version", "patch_id", "packet_id", "run_id", "observed_head_commit_id",
    "idempotency_key", "decision", "result_status", "target_memory_id", "memory_text",
    "supersedes", "existing_item", "superseded_items", "evidence", "mutation_metadata"]

mutual
/-- `_canonical_mutation_identity_value`: moments become their ISO texts. -/
def canonicalMutationValue (isoformat : ℤ → String) : PyVal → PyVal
  | .datetime micros => .str (isoformat micros)
  | .list xs => .list (canonicalMutationValues isoformat xs)
  | .dict kvs => .dict (canonicalMutationFields isoformat kvs)
  | value => value

def canonicalMutationValues (isoformat : ℤ → String) : List PyVal → List PyVal
  | [] => []
  | x :: xs => canonicalMutationValue isoformat x :: canonicalMutationValues isoformat xs

def canonicalMutationFields (isoformat : ℤ → String) :
    List (String × PyVal) → List (String × PyVal)
  | [] => []
  | (key, value) :: kvs =>
    (key, canonicalMutationValue isoformat value) :: canonicalMutationFields isoformat kvs
end

/-- `build_patch_mutation_identity`. -/
def buildPatchMutationIdentity (env : MemoryEnv) (payload : PatchPayload) : PyDict :=
  canonicalMutationFields env.isoformat
    (payload.keys.filter (·.1 ∉ patchMutationIdentityExcludedKeys))

end Omi.Memory
