import Omi.Memory.Control

/-! The memory rows of `models/product_memory.py`, their embedded evidence, and the checks a
row passes whenever it is built or read back. Timestamps are aware moments in microseconds. A copy
runs no check, so it may hold values that are not of their field's type. -/
namespace Omi.Memory
open Omi.Foundation

/-- A `datetime` in microseconds, with an offset or without one. -/
inductive PyMoment where
  | aware (micros : ℤ)
  | naive (micros : ℤ)
  deriving DecidableEq, Repr

/-- What the memory code leaves to Python and pydantic: Unicode normalisation and casing, ISO
texts of moments, and the integers, aware moments and truth values that pydantic reads from values
of another type. Text made of lowercase characters is its own lowercase. -/
structure MemoryEnv extends ContractHash where
  lower : String → String
  lower_eq_self : ∀ text source,
    (∀ c ∈ text.toList, c = '_' ∨ c ∈ (lower source).toList) → lower text = text
  casefold : String → String
  nfkc : String → String
  isoformat : ℤ → String
  fromIsoformat : String → Option PyMoment
  intText : String → Option ℤ
  laxMoment : PyVal → Option ℤ
  laxBool : PyVal → Option Bool

/-- The laws of the environment can be met. -/
theorem MemoryEnv.nonempty : Nonempty MemoryEnv :=
  ⟨{ scalars := ⟨fun _ => "", fun _ => ""⟩
     sha256Hex := fun _ => String.ofList (List.replicate 64 '0')
     length_sha256Hex := by simp
     hex_sha256Hex := by
      intro text c hc
      rw [String.toList_ofList] at hc
      rw [List.eq_of_mem_replicate hc]
      decide
     lower := id
     lower_eq_self := fun _ _ _ => rfl
     casefold := id
     nfkc := id
     isoformat := fun _ => ""
     fromIsoformat := fun _ => none
     intText := fun _ => none
     laxMoment := fun _ => none
     laxBool := fun _ => none }⟩

/-- An integer field of a pydantic model. -/
def MemoryEnv.int? (env : MemoryEnv) : PyVal → Option ℤ
  | .float q => if q.den = 1 then some q.num else none
  | .str text => env.intText text
  | value => value.integer?

inductive MemoryLayer where
  | shortTerm
  | longTerm
  | archive
  deriving DecidableEq, Repr

def MemoryLayer.text : MemoryLayer → String
  | .shortTerm => "short_term"
  | .longTerm => "long_term"
  | .archive => "archive"

inductive MemoryItemStatus where
  | active
  | superseded
  | hidden
  | tombstoned
  deriving DecidableEq, Repr

def MemoryItemStatus.text : MemoryItemStatus → String
  | .active => "active"
  | .superseded => "superseded"
  | .hidden => "hidden"
  | .tombstoned => "tombstoned"

inductive ProcessingState where
  | pending
  | processed
  | blocked
  deriving DecidableEq, Repr

def ProcessingState.text : ProcessingState → String
  | .pending => "pending"
  | .processed => "processed"
  | .blocked => "blocked"

inductive MemoryKind where
  | fact
  | document
  | trigger
  deriving DecidableEq, Repr

inductive MemorySubjectScope where
  | primaryUser
  | userOwnedProject
  | userRelationship
  | thirdParty
  deriving DecidableEq, Repr

inductive LedgerWriteReason where
  | directUserStatement
  | explicitRemember
  | agentReusableConclusion
  | recurringWorkflow
  | standingTrigger
  | onboarding
  | dailyReconciliation
  | legacyMigration
  deriving DecidableEq, Repr

inductive SourceState where
  | active
  | missing
  | tombstoned
  | purged
  deriving DecidableEq, Repr

inductive SourceStateReason where
  | ephemeralAlreadyMissing
  | droppedBeforeCopy
  | deletedByUser
  | accountPurged
  | copyFailed
  | explicitLoss
  | notApplicable
  deriving DecidableEq, Repr

inductive ArtifactPreservationState where
  | preserved
  | ephemeralAlreadyMissing
  | droppedBeforeCopy
  | deletedByUser
  | accountPurged
  | copyFailed
  | explicitLoss
  | notApplicable
  deriving DecidableEq, Repr

structure ArtifactRef where
  artifactId : Option String := none
  uri : Option String := none
  checksum : Option String := none
  preservation : ArtifactPreservationState
  deriving DecidableEq, Repr

structure MemoryEvidence where
  evidenceId : String
  sourceType : String
  sourceId : Option String := none
  sourceVersion : Option String := none
  conversationId : Option String := none
  artifactRefs : List ArtifactRef := []
  artifactPreservation : ArtifactPreservationState
  contentHash : Option String := none
  lineageId : Option String := none
  sourceState : SourceState := .active
  sourceStateReason : Option SourceStateReason := none
  clientDeviceId : Option String := none
  deriving DecidableEq, Repr

/-- `validate_optional_nonblank`: an optional text is absent or says something. -/
def optionalNonblank (text : Option String) : Bool := text.all (!isBlank ·)

def ArtifactRef.valid (artifact : ArtifactRef) : Bool :=
  [artifact.artifactId, artifact.uri, artifact.checksum].all optionalNonblank

/-- `validate_source_identity`; absent and empty identities count as missing. -/
def MemoryEvidence.sourceIdentityValid (evidence : MemoryEvidence) : Bool :=
  (if evidence.sourceState = .active then
      evidence.sourceId.any (· ≠ "") && evidence.sourceVersion.any (· ≠ "")
    else evidence.sourceStateReason.isSome) &&
  (evidence.conversationId = none || evidence.conversationId = some "" ||
    evidence.sourceType ≠ "conversation" || evidence.sourceId = none ||
    evidence.sourceId = some "" || evidence.conversationId = evidence.sourceId) &&
  evidence.artifactRefs.all (·.preservation = evidence.artifactPreservation)

/-- The validators of `MemoryEvidence`. -/
def MemoryEvidence.valid (evidence : MemoryEvidence) : Bool :=
  !isBlank evidence.evidenceId && !isBlank evidence.sourceType &&
  [evidence.sourceId, evidence.sourceVersion, evidence.conversationId, evidence.contentHash,
    evidence.lineageId, evidence.clientDeviceId].all optionalNonblank &&
  evidence.artifactRefs.all ArtifactRef.valid && evidence.sourceIdentityValid

/-- An evidence object: pydantic built it, so its validators passed. -/
structure EvidenceObject where
  record : MemoryEvidence
  valid : record.valid = true

/-- A value that a payload holds for a row field: one of a document, or a moment without offset. -/
inductive RawValue where
  | plain (value : PyVal)
  | naive (micros : ℤ)
  deriving DecidableEq, Repr

/-- Values for the row fields that a payload may hold beside its patch, each where its key is
there. Nothing checks them before they are copied into a row. -/
structure RawExtras where
  corroborationCount : Option RawValue := none
  lastCorroboratedAt : Option RawValue := none
  capturedAt : Option RawValue := none
  updatedAt : Option RawValue := none
  expiresAt : Option RawValue := none
  supersededBy : Option RawValue := none
  kgExtracted : Option RawValue := none
  confidence : Option RawValue := none
  sensitivityLabels : Option RawValue := none
  captureDeviceIds : Option RawValue := none
  primaryCaptureDevice : Option RawValue := none
  deriving DecidableEq, Repr

/-- The same fields, each with a value of its own type. -/
structure ItemExtras where
  corroborationCount : Option ℤ := none
  lastCorroboratedAt : Option (Option PyMoment) := none
  capturedAt : Option ℤ := none
  updatedAt : Option ℤ := none
  expiresAt : Option (Option ℤ) := none
  supersededBy : Option (Option String) := none
  kgExtracted : Option Bool := none
  confidence : Option (Option ℚ) := none
  sensitivityLabels : Option (List String) := none
  captureDeviceIds : Option (List String) := none
  primaryCaptureDevice : Option (Option String) := none
  deriving DecidableEq, Repr

/-- `misfits` are the fields that a copy gave a value of another type, and `oddPromotion` is a
promotion record that is no dictionary; the typed fields say nothing of them. -/
structure MemoryItem where
  memoryId : String
  uid : String
  canonicalMemoryId : Option String := none
  version : ℤ
  tier : MemoryLayer
  status : MemoryItemStatus
  processingState : ProcessingState
  content : Option String
  normalizedContentKey : Option String := none
  evidence : List MemoryEvidence := []
  sourceState : SourceState
  sensitivityLabels : List String
  visibility : String
  userAsserted : Bool
  capturedAt : ℤ
  updatedAt : ℤ
  expiresAt : Option ℤ := none
  ledgerCommitId : Option String := none
  ledgerSequence : Option ℤ := none
  itemRevision : ℤ := 1
  sourceCommitId : Option String := none
  sourceCommitSequence : Option ℤ := none
  contentHash : Option String := none
  accountGeneration : ℤ := 0
  promotion : Option PyDict := none
  captureDeviceIds : List String := []
  primaryCaptureDevice : Option String := none
  corroborationCount : ℤ := 0
  lastCorroboratedAt : Option PyMoment := none
  confidence : Option ℚ := none
  supersededBy : Option String := none
  subjectEntityId : Option String := none
  predicate : Option String := none
  arguments : PyDict := []
  kgExtracted : Bool := false
  graphReady : Bool := false
  graphAssertionId : Option String := none
  graphPlanHash : Option String := none
  ledgerSchemaVersion : Option String := none
  kind : MemoryKind := .fact
  subjectScope : MemorySubjectScope := .primaryUser
  slot : Option String := none
  body : Option String := none
  validFrom : Option ℤ := none
  validTo : Option ℤ := none
  curationWeight : ℤ := 0
  triggerCondition : PyDict := []
  intentBacked : Bool := false
  writeReason : Option LedgerWriteReason := none
  misfits : RawExtras := {}
  oddPromotion : Option PyVal := none
  deriving DecidableEq, Repr

def restrictedSensitivityLabels : List String :=
  ["credential", "secret", "financial", "health", "intimate", "minor", "minors",
    "workplace_confidential", "identity_authentication"]

/-- `"knowledge_ledger.v1"`, the schema of ledger rows and patches. -/
def knowledgeLedger : Option String := some "knowledge_ledger.v1"

/-- `default_short_term_expiry`: 48 hours after the capture. -/
def defaultShortTermExpiry (capturedAt : ℤ) : ℤ := capturedAt + 48 * 3600 * 1000000

section Normalization
variable (env : MemoryEnv)

/-- `normalized_memory_content_key`. -/
def normalizedMemoryContentKey (content : Option String) : Option String :=
  content.bind fun content =>
    let normalized := " ".intercalate (splitWords (env.casefold (env.nfkc content)))
    if normalized = "" then none else some (env.sha256Hex normalized)

/-- `normalize_slot`. -/
def normalizeSlot (slot : Option String) : Option String :=
  slot.bind fun slot =>
    let text := (env.lower (strip slot)).map fun c => if c = '-' then '_' else c
    let normalized := "_".intercalate (splitWords text)
    if normalized = "" then none else some normalized

/-- A normalised slot is its own normal form. -/
theorem normalizeSlot_idem (slot : Option String) :
    normalizeSlot env (normalizeSlot env slot) = normalizeSlot env slot := by
  cases slot with
  | none => rfl
  | some raw =>
    simp only [normalizeSlot, Option.bind_some]
    set dashed := (env.lower (strip raw)).map fun c => if c = '-' then '_' else c with hdashed
    set text := "_".intercalate (splitWords dashed) with htext
    split_ifs with hempty
    · rfl
    have hchars : ∀ c ∈ text.toList, (c = '_' ∨ c ∈ dashed.toList) ∧ isPySpace c = false := by
      intro c hc
      rw [htext] at hc
      rcases mem_intercalate hc with hsep | ⟨word, hword, hc⟩
      · obtain rfl : c = '_' := by simpa using hsep
        exact ⟨.inl rfl, by decide⟩
      · have hmem := mem_splitWords hword c hc
        exact ⟨.inr hmem.1, hmem.2⟩
    have hdash : ∀ c ∈ dashed.toList, c ≠ '-' ∧ (c = '_' ∨ c ∈ (env.lower (strip raw)).toList) := by
      intro c hc
      rw [hdashed, String.toList_map, List.mem_map] at hc
      obtain ⟨c', hc', rfl⟩ := hc
      split_ifs with h
      · exact ⟨by decide, .inl rfl⟩
      · exact ⟨h, .inr hc'⟩
    have hstrip : strip text = text := strip_eq_self fun c hc => (hchars c hc).2
    have hlower : env.lower text = text := env.lower_eq_self text (strip raw) fun c hc =>
      (hchars c hc).1.elim .inl fun h => (hdash c h).2
    have hmap : text.map (fun c => if c = '-' then '_' else c) = text := by
      rw [← String.toList_inj, String.toList_map]
      refine (List.map_congr_left fun c hc => ?_).trans (List.map_id _)
      rw [if_neg]
      · rfl
      · rintro rfl
        rcases (hchars '-' hc).1 with h | h
        · cases h
        · exact (hdash '-' h).1 rfl
    simp only [Option.bind_some, hstrip, hlower, hmap,
      splitWords_eq_singleton (fun c hc => (hchars c hc).2) hempty, String.intercalate_singleton,
      if_neg hempty]

/-- `normalize_sensitivity`. -/
def normalizeSensitivity (labels : List String) : List String :=
  (((labels.filter (!isBlank ·)).map (env.lower <| strip ·)).dedup).insertionSort (· ≤ ·)

end Normalization

/-- `is_legal_state_combination`, with `hidden` read as a tombstone
(`physical_status_to_record_status`). -/
def isLegalStateCombination :
    MemoryLayer → MemoryItemStatus → ProcessingState → Bool
  | .shortTerm, _, _ => true
  | .longTerm, _, processingState => processingState = .processed
  | .archive, status, processingState => status ≠ .superseded && processingState = .processed

/-! ### Fields of another type -/

/-- How values are read as integers, as aware moments and as truth values. -/
structure FieldReading where
  int : PyVal → Option ℤ
  moment : PyVal → Option ℤ
  bool : PyVal → Option Bool

/-- Values of the type itself, and no others. -/
def FieldReading.own : FieldReading where
  int := PyVal.int?
  moment
    | .datetime micros => some micros
    | _ => none
  bool
    | .bool b => some b
    | _ => none

/-- Pydantic's reading, which leaves a value of the type as it is. -/
def MemoryEnv.reading (env : MemoryEnv) : FieldReading where
  int := env.int?
  moment value := (FieldReading.own.moment value).orElse fun _ => env.laxMoment value
  bool value := (FieldReading.own.bool value).orElse fun _ => env.laxBool value

namespace RawValue

/-- The value, where it can be read; a moment without offset is of no other type. -/
def read {α : Type} (reading : PyVal → Option α) : RawValue → Option α
  | .plain value => reading value
  | .naive _ => none

/-- The same for a field that may be `None`. -/
def readOptional {α : Type} (reading : RawValue → Option α) : RawValue → Option (Option α)
  | .plain .none => some none
  | raw => (reading raw).map some

/-- A field that takes any moment. -/
def readMoment (reading : PyVal → Option ℤ) : RawValue → Option PyMoment
  | .plain value => (reading value).map .aware
  | .naive micros => some (.naive micros)

/-- The elements of `set(value)`; none where it raises. -/
def elements? : RawValue → Option (List PyVal)
  | .plain (.list xs) => if xs.all PyVal.hashable then some xs else none
  | .plain (.dict kvs) => some (kvs.map (.str ·.1))
  | .plain (.str text) => some (text.toList.map fun c => .str (String.ofList [c]))
  | _ => none

end RawValue

namespace RawExtras

/-- The fields with their values as they are read. -/
def read (reading : FieldReading) (raw : RawExtras) : ItemExtras where
  corroborationCount := raw.corroborationCount.bind (RawValue.read reading.int)
  lastCorroboratedAt :=
    raw.lastCorroboratedAt.bind (RawValue.readOptional (RawValue.readMoment reading.moment))
  capturedAt := raw.capturedAt.bind (RawValue.read reading.moment)
  updatedAt := raw.updatedAt.bind (RawValue.read reading.moment)
  expiresAt := raw.expiresAt.bind (RawValue.readOptional (RawValue.read reading.moment))
  supersededBy := raw.supersededBy.bind (RawValue.readOptional (RawValue.read PyVal.str?))
  kgExtracted := raw.kgExtracted.bind (RawValue.read reading.bool)
  confidence := raw.confidence.bind (RawValue.readOptional (RawValue.read PyVal.number?))
  sensitivityLabels := raw.sensitivityLabels.bind (RawValue.read PyVal.strs?)
  captureDeviceIds := raw.captureDeviceIds.bind (RawValue.read PyVal.strs?)
  primaryCaptureDevice :=
    raw.primaryCaptureDevice.bind (RawValue.readOptional (RawValue.read PyVal.str?))

/-- A value that was not read. -/
def unread {α : Type} (raw : Option RawValue) (value : Option α) : Option RawValue :=
  if value.isSome then none else raw

/-- The fields that are not among those read. -/
def without (raw : RawExtras) (extras : ItemExtras) : RawExtras where
  corroborationCount := unread raw.corroborationCount extras.corroborationCount
  lastCorroboratedAt := unread raw.lastCorroboratedAt extras.lastCorroboratedAt
  capturedAt := unread raw.capturedAt extras.capturedAt
  updatedAt := unread raw.updatedAt extras.updatedAt
  expiresAt := unread raw.expiresAt extras.expiresAt
  supersededBy := unread raw.supersededBy extras.supersededBy
  kgExtracted := unread raw.kgExtracted extras.kgExtracted
  confidence := unread raw.confidence extras.confidence
  sensitivityLabels := unread raw.sensitivityLabels extras.sensitivityLabels
  captureDeviceIds := unread raw.captureDeviceIds extras.captureDeviceIds
  primaryCaptureDevice := unread raw.primaryCaptureDevice extras.primaryCaptureDevice

/-- Every field can be read. -/
def readable (reading : FieldReading) (raw : RawExtras) : Bool :=
  raw.without (raw.read reading) = {}

/-- The row that a field names as its successor, over the one recorded before; a value that is no
text names none. -/
def successor (raw : RawExtras) (recorded : Option String) : Option String :=
  match raw.supersededBy with
  | none => recorded
  | some value => (value.readOptional (RawValue.read PyVal.str?)).getD none

end RawExtras

/-- `MemoryItem` fields overridden by the extras. -/
def ItemExtras.applyTo (extras : ItemExtras) (item : MemoryItem) : MemoryItem :=
  { item with
    corroborationCount := extras.corroborationCount.getD item.corroborationCount
    lastCorroboratedAt := extras.lastCorroboratedAt.getD item.lastCorroboratedAt
    capturedAt := extras.capturedAt.getD item.capturedAt
    updatedAt := extras.updatedAt.getD item.updatedAt
    expiresAt := extras.expiresAt.getD item.expiresAt
    supersededBy := extras.supersededBy.getD item.supersededBy
    kgExtracted := extras.kgExtracted.getD item.kgExtracted
    confidence := extras.confidence.getD item.confidence
    sensitivityLabels := extras.sensitivityLabels.getD item.sensitivityLabels
    captureDeviceIds := extras.captureDeviceIds.getD item.captureDeviceIds
    primaryCaptureDevice := extras.primaryCaptureDevice.getD item.primaryCaptureDevice }

/-- The copy of a row with raw values over its fields: those of another type are its misfits. -/
def MemoryItem.copyWith (item : MemoryItem) (raw : RawExtras) : MemoryItem :=
  { (raw.read .own).applyTo item with
    supersededBy := raw.successor item.supersededBy
    misfits := raw.without (raw.read .own) }

@[simp] theorem MemoryItem.copyWith_misfits (item : MemoryItem) (raw : RawExtras) :
    (item.copyWith raw).misfits = raw.without (raw.read .own) := rfl

/-- `json.dumps` accepts the condition, and its text is within the serialized limit. -/
def triggerConditionFits (env : MemoryEnv) (condition : PyDict) : Bool :=
  (PyVal.dict condition).jsonable &&
    ((PyVal.dict condition).jsonText env.scalars).toList.length ≤ 8000

theorem triggerConditionFits_nil (env : MemoryEnv) : triggerConditionFits env [] = true := by
  have hjson : (PyVal.dict []).jsonText env.scalars = "\x7b\x7d" := by
    simp [PyVal.jsonText, PyVal.jsonEntries]
  have hplain : (PyVal.dict []).jsonable = true := by
    simp [PyVal.jsonable, PyVal.allValuesJsonable]
  simp [triggerConditionFits, hjson, hplain]

/-- `len(text or "")`. -/
def textLength (text : Option String) : ℕ := (text.getD "").toList.length

/-- `(text or "").strip()` is empty. -/
def saysNothing (text : Option String) : Bool := isBlank (text.getD "")

namespace MemoryItem
variable (env : MemoryEnv) (item : MemoryItem)

def legal : Bool := isLegalStateCombination item.tier item.status item.processingState

/-- `set(item.sensitivity_labels)`; none where it raises. -/
def labelSet : Option (List PyVal) :=
  match item.misfits.sensitivityLabels with
  | none => some (item.sensitivityLabels.map .str)
  | some raw => raw.elements?

/-- `bool(set(item.sensitivity_labels).intersection(RESTRICTED_SENSITIVITY_LABELS))`. -/
def restricted : Bool :=
  (item.labelSet.getD []).any fun label => label.str?.any (· ∈ restrictedSensitivityLabels)

/-- The promotion record, where none counts as an empty one. -/
def promotionRecord : PyDict := item.promotion.getD []

/-- The row with its misfits as pydantic reads them. -/
def reread : MemoryItem :=
  { (item.misfits.read env.reading).applyTo item with
    misfits := {}
    oddPromotion := none }

/-- Every field of the row can be read. -/
def readable : Bool := item.misfits.readable env.reading && item.oddPromotion = none

/-- What reading and the normalising validators make of a row. -/
def normalized : MemoryItem :=
  { item.reread env with
    normalizedContentKey := normalizedMemoryContentKey env item.content
    sensitivityLabels := normalizeSensitivity env (item.reread env).sensitivityLabels
    slot := normalizeSlot env item.slot }

/-- The field validators. -/
def fieldsValid : Bool :=
  !isBlank item.memoryId && !isBlank item.uid && !isBlank item.visibility &&
  1 ≤ item.version && -100 ≤ item.curationWeight && item.curationWeight ≤ 100 &&
  triggerConditionFits env item.triggerCondition && item.evidence.all MemoryEvidence.valid

def timesValid : Bool := item.capturedAt ≤ item.updatedAt

def contentValid : Bool := item.status ≠ .active || !saysNothing item.content

def expiryValid : Bool := item.tier ≠ .shortTerm || item.expiresAt.any (item.capturedAt < ·)

/-- An admitted long-term row carries its graph assertion. -/
def graphFieldsPresent : Bool :=
  item.graphReady && item.graphAssertionId.any (· ≠ "") && item.graphPlanHash.any (· ≠ "")

def longTermValid : Bool :=
  item.tier ≠ .longTerm || item.status ≠ .active ||
    (item.ledgerCommitId.any (· ≠ "") && item.ledgerSequence.isSome &&
      item.processingState = .processed &&
      (item.promotionRecord.get "admission_receipt" = .none || item.graphFieldsPresent))

def sourceValid : Bool :=
  item.sourceState ≠ .active || item.userAsserted ||
    item.evidence.any (·.sourceState = .active)

def validityValid : Bool :=
  item.validTo.all (item.validFrom.getD item.capturedAt ≤ ·)

/-- Slots belong to facts, and conditions to triggers, which need one. -/
def kindValid : Bool :=
  (item.kind = .fact || item.slot = none) &&
  (if item.kind = .trigger then !item.triggerCondition.isEmpty else item.triggerCondition.isEmpty)

/-- The limits on rows of the knowledge ledger. -/
def ledgerValid : Bool :=
  item.ledgerSchemaVersion ≠ knowledgeLedger ||
    (textLength item.content ≤ 4000 && textLength item.slot ≤ 64 &&
      (if item.kind = .document then !saysNothing item.body && textLength item.body ≤ 24000
        else item.body = none) &&
      item.triggerCondition.length ≤ 13 &&
      item.writeReason.any fun reason => item.intentBacked || reason = .legacyMigration)

/-- The validators, on a row whose normalising validators ran. -/
def checks : Bool :=
  item.fieldsValid env && item.timesValid && item.contentValid && item.expiryValid &&
  item.longTermValid && item.sourceValid && item.validityValid && item.kindValid &&
  item.ledgerValid

/-- The row passes its validators: building or reading it does not raise. -/
def valid : Bool := item.readable env && (item.normalized env).checks env

/-- `MemoryItem(**fields)`: the normalised row, or pydantic's refusal. -/
def construct : Except String MemoryItem :=
  if item.valid env then .ok (item.normalized env) else .error "ValidationError"

/-- A row whose fields are of their types is read as it is. -/
theorem reread_eq_self (hmisfits : item.misfits = {}) (hpromotion : item.oddPromotion = none) :
    item.reread env = item := by
  cases item
  cases hmisfits
  cases hpromotion
  rfl

theorem normalized_eq (hmisfits : item.misfits = {}) (hpromotion : item.oddPromotion = none) :
    item.normalized env =
      { item with
        normalizedContentKey := normalizedMemoryContentKey env item.content
        sensitivityLabels := normalizeSensitivity env item.sensitivityLabels
        slot := normalizeSlot env item.slot } := by
  rw [normalized, item.reread_eq_self env hmisfits hpromotion]

/-- A row that passed its validators passes them again when it is read back. -/
theorem valid_normalized {env : MemoryEnv} {item : MemoryItem} (h : item.valid env = true) :
    (item.normalized env).valid env = true := by
  have hslot : ((item.normalized env).normalized env).slot = (item.normalized env).slot :=
    normalizeSlot_idem env item.slot
  have hchecks : ((item.normalized env).normalized env).checks env =
      (item.normalized env).checks env := by
    unfold checks kindValid ledgerValid
    rw [hslot]
    rfl
  have hreadable : (item.normalized env).readable env = true := rfl
  rw [valid, Bool.and_eq_true] at h
  rw [valid, hchecks, hreadable, h.2]
  rfl

end MemoryItem

end Omi.Memory
