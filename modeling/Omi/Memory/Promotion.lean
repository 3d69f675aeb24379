import Omi.Memory.Item

/-! The promotion contracts of `models/memory_promotion.py` and the processing receipt of
`models/memory_admission.py`: graph plans bound to their own hash, admission receipts bound to
one row revision, and the graph assertion a commit writes. -/
namespace Omi.Memory
open Omi.Foundation

inductive GraphVersion where
  | v1
  | v2
  deriving DecidableEq, Repr

/-- The schema of a graph plan. -/
def GraphVersion.text : GraphVersion → String
  | .v1 => "canonical_memory_graph_plan.v1"
  | .v2 => "canonical_memory_graph_plan.v2"

inductive CanonicalGraphNodeType where
  | person
  | place
  | organization
  | thing
  | concept
  deriving DecidableEq, Repr

def CanonicalGraphNodeType.text : CanonicalGraphNodeType → String
  | .person => "person"
  | .place => "place"
  | .organization => "organization"
  | .thing => "thing"
  | .concept => "concept"

def CanonicalGraphNodeType.parse (text : String) : Option CanonicalGraphNodeType :=
  [person, place, organization, thing, concept].find? (·.text = text)

structure GraphRelationEndpoint where
  entityId : String
  label : String
  nodeType : CanonicalGraphNodeType
  deriving DecidableEq, Repr

structure PromotionGraphPlan where
  schemaVersion : GraphVersion := .v1
  subjectEntityId : String
  predicate : String
  arguments : PyDict
  subject : Option GraphRelationEndpoint := none
  object : Option GraphRelationEndpoint := none
  qualifiers : PyDict := []
  planHash : String := ""
  deriving DecidableEq, Repr

structure PromotionAdmissionReceipt where
  memoryId : String
  sourceItemRevision : ℤ
  outputContentHash : String
  evidenceIds : List String
  graphPlanHash : String
  supersedes : List String
  deriving DecidableEq, Repr

structure MemoryGraphAssertion where
  schemaVersion : GraphVersion
  assertionId : String
  uid : String
  memoryId : String
  itemRevision : ℤ
  contentHash : String
  evidenceIds : List String
  subjectEntityId : String
  predicate : String
  arguments : PyDict
  subject : Option GraphRelationEndpoint
  object : Option GraphRelationEndpoint
  qualifiers : PyDict
  graphPlanHash : String
  commitId : String
  commitSequence : ℤ
  createdAt : ℤ
  deriving DecidableEq, Repr

mutual
/-- `_validate_json_value`: JSON values only, no deeper than eight containers. -/
def jsonValueFits : ℕ → PyVal → Bool
  | _, .datetime _ => false
  | depth, .list xs => depth ≤ 8 && jsonItemsFit (depth + 1) xs
  | depth, .dict kvs => depth ≤ 8 && jsonFieldsFit (depth + 1) kvs
  | _, _ => true

def jsonItemsFit : ℕ → List PyVal → Bool
  | _, [] => true
  | depth, x :: xs => jsonValueFits depth x && jsonItemsFit depth xs

def jsonFieldsFit : ℕ → List (String × PyVal) → Bool
  | _, [] => true
  | depth, (key, value) :: kvs =>
    key.toList.length ≤ 64 && jsonValueFits depth value && jsonFieldsFit depth kvs
end

/-- `_normalized_arguments`: in key order, with trimmed keys that stay apart. -/
def normalizedArguments (arguments : PyDict) : Option PyDict :=
  let trimmed := (arguments.insertionSort (fun a b => a.1 ≤ b.1)).map
    fun argument => (strip argument.1, argument.2)
  if trimmed.all (·.1 ≠ "") && (trimmed.map Prod.fst).Nodup then some trimmed else none

/-- A stripped text that is not empty. -/
def requiredText (text : String) : Option String :=
  if isBlank text then none else some (strip text)

theorem contractId_required (hash : ContractHash) (namespaceText : String) (payload : PyDict) :
    requiredText (hash.contractId namespaceText payload) =
      some (hash.contractId namespaceText payload) := by
  have hblank : isBlank (hash.contractId namespaceText payload) = false := by
    cases hblank : isBlank (hash.contractId namespaceText payload) with
    | false => rfl
    | true =>
      have hempty := (strip_eq_empty_iff _).mpr hblank
      rw [contractId_trimmed] at hempty
      have hlength := hash.length_sha256Hex
        (namespaceText ++ "|" ++ (PyVal.dict payload).jsonText hash.scalars)
      rw [ContractHash.contractId] at hempty
      rw [hempty] at hlength
      cases hlength
  rw [requiredText, hblank, contractId_trimmed]
  rfl

/-- The same, with at most so many characters. -/
def boundedText (limit : ℕ) (text : String) : Option String :=
  (requiredText text).filter (·.toList.length ≤ limit)

/-- `sorted({item.strip() for item in value if item and item.strip()})`. -/
def normalizedIds (ids : List String) : List String :=
  ((ids.filter (!isBlank ·)).map strip).dedup.insertionSort (· ≤ ·)

/-- `sorted(set(value))`. -/
def sortedIds (ids : List String) : List String := ids.dedup.insertionSort (· ≤ ·)

section
variable (env : MemoryEnv)

/-- `_validate_and_normalize_arguments`. -/
def validateAndNormalizeArguments (value : PyVal) (requireNonempty : Bool := true) :
    Option PyDict := do
  let arguments ← value.dict?
  guard (arguments.length ≤ 16 && jsonValueFits 0 value)
  let normalized ← normalizedArguments arguments
  guard (!requireNonempty || !normalized.isEmpty)
  guard (((PyVal.dict normalized).jsonText env.scalars).toList.length ≤ 8 * 1024)
  pure normalized

/-- `canonical_graph_entity_id`. -/
def canonicalGraphEntityId (label : String) : Option String :=
  let normalized := env.casefold (" ".intercalate (splitWords label))
  if normalized = "" then none
  else if normalized = "user" then some "user"
  else if "ent_".toList.isPrefixOf normalized.toList then some normalized
  else some ("ent_" ++
    firstChars 20 (env.contractId "canonical-graph-entity" [("label", .str normalized)]))

/-- `GraphRelationEndpoint(**raw)`. -/
def GraphRelationEndpoint.parse (raw : PyDict) : Option GraphRelationEndpoint := do
  let entityId ← (raw.field "entity_id" (.str "")).str?
  let label ← (raw.get "label").str?
  let nodeType ← (raw.get "node_type").str?.bind CanonicalGraphNodeType.parse
  let label ← some (" ".intercalate (splitWords label))
  guard (label ≠ "" && label.toList.length ≤ 200)
  let expected ← canonicalGraphEntityId env label
  guard (entityId = "" || entityId = expected)
  pure { entityId := expected, label := label, nodeType := nodeType }

def GraphRelationEndpoint.dump (endpoint : GraphRelationEndpoint) : PyVal :=
  .dict [("entity_id", .str endpoint.entityId), ("label", .str endpoint.label),
    ("node_type", .str endpoint.nodeType.text)]

/-- An optional endpoint of a raw plan. -/
def GraphRelationEndpoint.parse? : PyVal → Option (Option GraphRelationEndpoint)
  | .none => some none
  | .dict raw => (GraphRelationEndpoint.parse env raw).map some
  | _ => none

namespace PromotionGraphPlan

def hashPayload (plan : PromotionGraphPlan) : PyDict :=
  [("schema_version", .str plan.schemaVersion.text),
    ("subject_entity_id", .str plan.subjectEntityId), ("predicate", .str plan.predicate),
    ("arguments", .dict plan.arguments)] ++
  if plan.schemaVersion = .v2 then
    [("subject", plan.subject.elim .none GraphRelationEndpoint.dump),
      ("object", plan.object.elim .none GraphRelationEndpoint.dump),
      ("qualifiers", .dict plan.qualifiers)]
  else []

/-- The arguments of a plan of either version, where its endpoints and arguments fit it. -/
def settledArguments (plan : PromotionGraphPlan) : Option PyDict :=
  match plan.schemaVersion with
  | .v1 => if plan.arguments.isEmpty then none else some plan.arguments
  | .v2 => do
    let subject ← plan.subject
    let object ← plan.object
    guard (subject.entityId = plan.subjectEntityId && subject.entityId ≠ object.entityId)
    guard (plan.arguments.isEmpty ||
      (PyVal.dict plan.arguments).deepEq (.dict plan.qualifiers))
    pure plan.qualifiers

/-- `PromotionGraphPlan(...)`: the fields checked, and the hash derived or compared. -/
def make (raw : PromotionGraphPlan) : Option PromotionGraphPlan := do
  let subjectEntityId ← boundedText 200 raw.subjectEntityId
  let predicate ← boundedText 64 raw.predicate
  let arguments ← validateAndNormalizeArguments env (.dict raw.arguments) false
  let qualifiers ← validateAndNormalizeArguments env (.dict raw.qualifiers) false
  let plan := { raw with
    subjectEntityId := subjectEntityId
    predicate := predicate
    arguments := arguments
    qualifiers := qualifiers }
  let arguments ← plan.settledArguments
  let plan := { plan with arguments := arguments }
  let expected := env.contractId "canonical-promotion-graph-plan" plan.hashPayload
  guard (raw.planHash = "" || raw.planHash = expected)
  pure { plan with planHash := expected }

/-- `PromotionGraphPlan(**raw)`. -/
def parse (raw : PyDict) : Option PromotionGraphPlan := do
  let version ← (raw.field "schema_version" (.str GraphVersion.v1.text)).str?
  let schemaVersion ← [GraphVersion.v1, .v2].find? (·.text = version)
  let subjectEntityId ← (raw.get "subject_entity_id").str?
  let predicate ← (raw.get "predicate").str?
  let arguments ← (raw.field "arguments" (.dict [])).dict?
  let subject ← GraphRelationEndpoint.parse? env (raw.get "subject")
  let object ← GraphRelationEndpoint.parse? env (raw.get "object")
  let qualifiers ← (raw.field "qualifiers" (.dict [])).dict?
  let planHash ← (raw.field "plan_hash" (.str "")).str?
  make env { schemaVersion, subjectEntityId, predicate, arguments, subject, object, qualifiers,
             planHash }

end PromotionGraphPlan

namespace PromotionAdmissionReceipt

/-- `identity_payload`. -/
def identityPayload (receipt : PromotionAdmissionReceipt) : PyDict :=
  [("receipt_version", .str "canonical_memory_promotion_admission.v1"),
    ("planner_id", .str "canonical_batched_promotion"), ("planner_version", .str "v2"),
    ("decision", .str "durable"), ("memory_id", .str receipt.memoryId),
    ("source_item_revision", .int receipt.sourceItemRevision),
    ("output_content_hash", .str receipt.outputContentHash),
    ("evidence_ids", .list (receipt.evidenceIds.map .str)),
    ("graph_plan_hash", .str receipt.graphPlanHash),
    ("supersedes", .list (receipt.supersedes.map .str))]

/-- The fields of a receipt that allow one value only. -/
def literals : PyDict :=
  [("receipt_version", .str "canonical_memory_promotion_admission.v1"),
    ("planner_id", .str "canonical_batched_promotion"), ("planner_version", .str "v2"),
    ("decision", .str "durable")]

/-- `PromotionAdmissionReceipt(**raw)`. -/
def parse (raw : PyDict) : Option PromotionAdmissionReceipt := do
  guard (literals.all fun literal => raw.field literal.1 literal.2 = literal.2)
  let receiptId ← (raw.field "receipt_id" (.str "")).str?
  let memoryId ← (raw.get "memory_id").str?.bind requiredText
  let sourceItemRevision ← env.int? (raw.get "source_item_revision")
  let outputContentHash ← (raw.get "output_content_hash").str?.bind requiredText
  let evidenceIds ← (raw.get "evidence_ids").strs?
  let graphPlanHash ← (raw.get "graph_plan_hash").str?.bind requiredText
  let supersedes ← (raw.field "supersedes" (.list [])).strs?
  guard (1 ≤ sourceItemRevision && !(normalizedIds evidenceIds).isEmpty)
  let receipt : PromotionAdmissionReceipt :=
    { memoryId := memoryId
      sourceItemRevision := sourceItemRevision
      outputContentHash := outputContentHash
      evidenceIds := normalizedIds evidenceIds
      graphPlanHash := graphPlanHash
      supersedes := normalizedIds supersedes }
  let expected := "padm_" ++
    firstChars 32 (env.contractId "canonical-promotion-admission" receipt.identityPayload)
  guard (receiptId = "" || receiptId = expected)
  pure receipt

end PromotionAdmissionReceipt

/-- `build_memory_graph_assertion`: none where the assertion's validators refuse. -/
def buildMemoryGraphAssertion (uid memoryId : String) (itemRevision : ℤ) (contentHash : String)
    (evidenceIds : List String) (plan : PromotionGraphPlan) (commitId : String)
    (commitSequence createdAt : ℤ) : Option MemoryGraphAssertion := do
  let assertionId := "mga_" ++ firstChars 32 (env.contractId "canonical-memory-graph-assertion"
    [("uid", .str uid), ("memory_id", .str memoryId), ("item_revision", .int itemRevision),
      ("content_hash", .str contentHash), ("graph_plan_hash", .str plan.planHash)])
  let uid ← requiredText uid
  let memoryId ← requiredText memoryId
  let contentHash ← requiredText contentHash
  let commitId ← requiredText commitId
  let planHash ← requiredText plan.planHash
  let evidenceIds := normalizedIds evidenceIds
  guard (1 ≤ itemRevision && 1 ≤ commitSequence && !evidenceIds.isEmpty)
  let settled ← PromotionGraphPlan.make env { plan with planHash := planHash }
  pure
    { schemaVersion := plan.schemaVersion
      assertionId := assertionId
      uid := uid
      memoryId := memoryId
      itemRevision := itemRevision
      contentHash := contentHash
      evidenceIds := evidenceIds
      subjectEntityId := settled.subjectEntityId
      predicate := settled.predicate
      arguments := settled.arguments
      subject := settled.subject
      object := settled.object
      qualifiers := settled.qualifiers
      graphPlanHash := settled.planHash
      commitId := commitId
      commitSequence := commitSequence
      createdAt := createdAt }

/-- An assertion is of the row it is built for, up to trimmed texts, and has an id and a hash of
its plan. -/
theorem buildMemoryGraphAssertion_ok {env : MemoryEnv} {plan : PromotionGraphPlan}
    {assertion : MemoryGraphAssertion} {uid memoryId contentHash commitId : String}
    {itemRevision sequence createdAt : ℤ} {evidenceIds : List String}
    (h : buildMemoryGraphAssertion env uid memoryId itemRevision contentHash evidenceIds plan
      commitId sequence createdAt = some assertion) :
    assertion.memoryId = strip memoryId ∧ assertion.itemRevision = itemRevision ∧
      assertion.contentHash = strip contentHash ∧ contentHash ≠ "" ∧
      assertion.assertionId ≠ "" ∧ plan.planHash ≠ "" := by
  simp only [buildMemoryGraphAssertion, Option.bind_eq_bind, Option.bind_eq_some_iff] at h
  obtain ⟨_, -, id, hid, hash, hhash, _, -, planHash, hplan, _, -, settled, -, hassertion⟩ := h
  cases hassertion
  have hnonempty {text trimmed : String} (htext : requiredText text = some trimmed) :
      trimmed = strip text ∧ text ≠ "" := by
    unfold requiredText at htext
    split_ifs at htext with hblank
    refine ⟨(Option.some.inj htext).symm, ?_⟩
    rintro rfl
    simp [isBlank] at hblank
  refine ⟨(hnonempty hid).1, rfl, (hnonempty hhash).1, (hnonempty hhash).2, ?_,
    (hnonempty hplan).2⟩
  intro hempty
  have hlength := congrArg (·.toList.length) hempty
  simp at hlength

/-- What `valid_promotion_admission` compares the stored proof with. -/
structure PromotionSubject where
  memoryId : String
  sourceItemRevision : ℤ
  outputContentHash : String
  evidenceIds : List String
  subjectEntityId : Option String
  predicate : Option String
  arguments : PyDict
  supersedes : List String

/-- `valid_promotion_admission`. -/
def validPromotionAdmission (promoted : PromotionSubject) (promotion : PyDict) : Bool :=
  let parsed := do
    let plan ← (promotion.get "graph_plan").dict?.bind (PromotionGraphPlan.parse env)
    let receipt ← (promotion.get "admission_receipt").dict?.bind
      (PromotionAdmissionReceipt.parse env)
    let arguments ← validateAndNormalizeArguments env (.dict promoted.arguments)
    pure (plan, receipt, arguments)
  parsed.any fun (plan, receipt, arguments) =>
    receipt.memoryId = promoted.memoryId &&
    receipt.sourceItemRevision = promoted.sourceItemRevision &&
    receipt.outputContentHash = promoted.outputContentHash &&
    receipt.evidenceIds = sortedIds promoted.evidenceIds &&
    receipt.graphPlanHash = plan.planHash &&
    plan.subjectEntityId = promoted.subjectEntityId.getD "" &&
    plan.predicate = promoted.predicate.getD "" &&
    (PyVal.dict plan.arguments).deepEq (.dict arguments) &&
    receipt.supersedes = sortedIds promoted.supersedes &&
    promoted.memoryId ∉ receipt.supersedes

/-- `valid_required_processing_receipt`. -/
def validRequiredProcessingReceipt (content : String) (itemRevision : ℤ) (promotion : PyDict) :
    Bool :=
  match (promotion.get "processing_receipt").dict?, (promotion.get "submission").dict? with
  | some receipt, some submission =>
    receipt.get "receipt_version" = .str "canonical_memory_processing_receipt.v1" &&
    receipt.get "processor_id" = .str "canonical_required_memory" &&
    receipt.get "processor_version" = .str "v1" &&
    promotion.get "processor_id" = .str "canonical_required_memory" &&
    promotion.get "processor_version" = .str "v1" &&
    receipt.get "decision" = .str "durable_required" &&
    (submission.get "submission_id").truthy &&
    (receipt.get "source_submission_id").deepEq (submission.get "submission_id") &&
    (receipt.get "input_hash").deepEq (submission.get "content_hash") &&
    receipt.get "output_hash" = .str (env.sha256Hex content) &&
    (receipt.get "input_item_revision").integer?.any fun input =>
      (receipt.get "output_item_revision").integer?.any fun output =>
        input + 1 = output && output ≤ itemRevision
  | _, _ => false

end

end Omi.Memory
