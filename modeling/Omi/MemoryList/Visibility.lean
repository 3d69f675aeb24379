import Mathlib.Data.Prod.Lex
import Omi.Memory.SourceReplacement

/-! Which memory rows a list shows: the access policies of `models/product_memory.py`, the lifecycle
of short-term rows, the device scope, and the lineages, of which only one row is shown. -/
namespace Omi.MemoryList
open Omi.Foundation Omi.Memory

/-! ### Access -/

inductive MemoryConsumer where
  | omiChat
  | agent
  | thirdParty
  | developerApi
  | mcp
  | adminDebug
  | eval
  | unknown
  deriving DecidableEq, Repr

structure MemoryAccessPolicy where
  consumer : MemoryConsumer
  appHasDefaultMemoryGrant : Bool := false
  archiveCapability : Bool := false

def MemoryAccessPolicy.forOmiChat (archiveCapability : Bool) : MemoryAccessPolicy where
  consumer := .omiChat
  appHasDefaultMemoryGrant := true
  archiveCapability := archiveCapability

structure AccessDecision where
  allowed : Bool
  reason : String

/-- `_base_policy_checks`: what rules a row out under every policy. -/
def basePolicyChecks (item : MemoryItem) (policy : MemoryAccessPolicy) : Option AccessDecision :=
  if item.status ≠ .active then some ⟨false, "not_active"⟩
  else if item.processingState = .blocked then some ⟨false, "processing_blocked"⟩
  else if item.sourceState = .tombstoned ∨ item.sourceState = .purged then
    some ⟨false, "source_not_active"⟩
  else if policy.consumer = .unknown then some ⟨false, "unknown_consumer"⟩
  else if item.restricted then some ⟨false, "restricted_sensitivity"⟩
  else if item.visibility ∉ ["private", "public", "shared"] then
    some ⟨false, "unknown_visibility"⟩
  else none

def effectiveShortTermExpiry (item : MemoryItem) : ℤ :=
  let policyExpiry := defaultShortTermExpiry item.capturedAt
  min (item.expiresAt.getD policyExpiry) policyExpiry

def isDefaultAccessEligible (item : MemoryItem) (policy : MemoryAccessPolicy) (now : ℤ) :
    AccessDecision :=
  match basePolicyChecks item policy with
  | some refused => refused
  | none =>
    if item.tier = .archive then ⟨false, "archive_requires_explicit_query"⟩
    else if policy.consumer ∈ [.thirdParty, .developerApi, .mcp] ∧
        policy.appHasDefaultMemoryGrant = false then ⟨false, "missing_default_memory_grant"⟩
    else if item.tier = .shortTerm ∧ effectiveShortTermExpiry item ≤ now then
      ⟨true, "short_term_expired_pending_adjudication"⟩
    else ⟨true, "default_memory_allowed"⟩

def isArchiveAccessEligible (item : MemoryItem) (policy : MemoryAccessPolicy) : AccessDecision :=
  match basePolicyChecks item policy with
  | some refused => refused
  | none =>
    if item.tier ≠ .archive then ⟨false, "not_archive"⟩
    else if !policy.archiveCapability then ⟨false, "missing_archive_capability"⟩
    else ⟨true, "archive_explicit_allowed"⟩

/-! ### Short-term rows -/

structure ShortTermLifecycleDecision where
  defaultAccessAllowed : Bool
  decisionReason : String

/-- The reason of a processed row without a disposition, by which the default list knows it. -/
def processedRequiresDisposition : String :=
  "short_term_l2_processed_requires_explicit_lifecycle_disposition"

/-- `evaluate_short_term_lifecycle`, of a short-term row without a disposition. -/
def evaluateShortTermLifecycle (item : MemoryItem) (now : ℤ) : ShortTermLifecycleDecision :=
  if item.sourceState = .tombstoned ∨ item.sourceState = .purged then
    ⟨false, "source_tombstoned"⟩
  else if item.status ≠ .active then ⟨false, "short_term_not_active"⟩
  else if item.processingState = .processed then ⟨false, processedRequiresDisposition⟩
  else if effectiveShortTermExpiry item ≤ now then
    ⟨false, "short_term_expired_requires_lifecycle_decision"⟩
  else ⟨true, "short_term_fresh"⟩

structure ProductMemoryItemDecision where
  allowed : Bool
  lifecycleReason : Option String := none

/-- The decision of `filter_default_product_memory_items` on one row. -/
def productMemoryItemDecision (item : MemoryItem) (policy : MemoryAccessPolicy) (now : ℤ) :
    ProductMemoryItemDecision :=
  let access := isDefaultAccessEligible item policy now
  if item.tier = .shortTerm then
    let lifecycle := evaluateShortTermLifecycle item now
    ⟨lifecycle.defaultAccessAllowed && access.allowed, some lifecycle.decisionReason⟩
  else ⟨access.allowed, none⟩

/-- `filter_canonical_default_visible_items`, of one row: a processed short-term row is shown
although its lifecycle waits for a disposition, and none that the user rejected is. -/
def canonicalDefaultVisible (item : MemoryItem) (policy : MemoryAccessPolicy) (now : ℤ) : Bool :=
  let decision := productMemoryItemDecision item policy now
  let allowed := decision.allowed && item.processingState = .processed
  let awaited := decision.lifecycleReason = some processedRequiresDisposition &&
    item.tier = .shortTerm && item.status = .active && item.processingState = .processed &&
    (isDefaultAccessEligible item policy now).allowed
  (allowed || awaited) && item.promotionRecord.get "user_review" ≠ .bool false

/-! ### Devices -/

def memoryMatchesDevice (item : MemoryItem) (clientDeviceId : String) : Bool :=
  let target := strip clientDeviceId
  target = "" || item.primaryCaptureDevice = some target || target ∈ item.captureDeviceIds ||
    item.evidence.any fun evidence => evidence.clientDeviceId = some target

/-- `filter_items_by_device_scope`, of one row. -/
def inDeviceScope (item : MemoryItem) (deviceScope : String) (clientDeviceId : Option String) :
    Bool :=
  if deviceScope ∉ ["current", "explicit"] then true
  else
    let scopedDeviceId := strip (clientDeviceId.getD "")
    scopedDeviceId ≠ "" && memoryMatchesDevice item scopedDeviceId

/-! ### The rows of a scan -/

/-- What a page of the list is asked for with. -/
structure ListRequest where
  uid : String
  includeArchive : Bool := false
  includePendingProcessing : Bool := false
  deviceScope : String := "all"
  clientDeviceId : Option String := none

def ListRequest.policy (request : ListRequest) : MemoryAccessPolicy :=
  .forOmiChat request.includeArchive

/-- A short-term row whose promotion waits to be processed. -/
def awaitsProcessing (item : MemoryItem) : Bool :=
  item.tier = .shortTerm && item.status = .active && item.processingState = .pending &&
    item.sourceState = .active && item.promotionRecord.get "required" = .bool true &&
    item.promotionRecord.get "user_review" ≠ .bool false

/-- `_canonical_scan_item_visible`. -/
def canonicalScanItemVisible (request : ListRequest) (now : ℤ) (item : MemoryItem) : Bool :=
  let shown := canonicalDefaultVisible item request.policy now ||
    (request.includeArchive && (isArchiveAccessEligible item request.policy).allowed)
  let visible :=
    if request.includePendingProcessing then shown || awaitsProcessing item
    else shown && item.processingState = .processed
  visible && inDeviceScope item request.deviceScope request.clientDeviceId

/-! ### Lineages -/

/-- `canonical_lineage_survivor_sort_key`: the long-term row first, then the root of the lineage,
then the newest row. -/
def canonicalLineageSurvivorSortKey (item : MemoryItem) (lineageRoot : String) :
    ℕ ×ₗ ℕ ×ₗ ℤ ×ₗ String :=
  toLex (if item.tier = .longTerm then 0 else 1,
    toLex (if item.memoryId = lineageRoot then 0 else 1, toLex (-item.updatedAt, item.memoryId)))

/-- The rows that a lineage was followed through, and its root. -/
structure LineageWalk where
  path : List MemoryItem
  root : String

/-- Follow the lineage of the last row of a path for some hops. A cycle has its least id as the
root, a missing row its own id, and a row that cannot be read ends the walk. -/
def followLineage (read : String → Except String (Option MemoryItem)) :
    ℕ → List MemoryItem → MemoryItem → LineageWalk
  | 0, path, current => ⟨path, current.memoryId⟩
  | hops + 1, path, current =>
    let nextId := current.canonicalTarget
    if nextId = "" ∨ nextId = current.memoryId then ⟨path, current.memoryId⟩
    else if nextId ∈ path.map (·.memoryId) then
      let cycle := (path.map (·.memoryId)).dropWhile (· ≠ nextId)
      ⟨path, cycle.min?.getD nextId⟩
    else
      match read nextId with
      | .error _ => ⟨path, current.memoryId⟩
      | .ok none => ⟨path, nextId⟩
      | .ok (some target) => followLineage read hops (path ++ [target]) target

/-- `_canonical_scan_lineage_suppressed`: another visible row of the lineage comes before this
one. -/
def canonicalScanLineageSuppressed (read : String → Except String (Option MemoryItem))
    (visible : MemoryItem → Bool) (item : MemoryItem) : Bool :=
  let outbound := item.canonicalTarget
  if outbound = "" ∨ outbound = item.memoryId then false
  else
    let walk := followLineage read 12 [item] item
    let key := fun row => canonicalLineageSurvivorSortKey row walk.root
    walk.path.any fun candidate =>
      candidate.memoryId ≠ item.memoryId && visible candidate && key candidate < key item

end Omi.MemoryList
