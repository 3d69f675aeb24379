import Omi.Foundation.PyText
import Omi.Foundation.PyValue

/-! The per-user memory control state of `models/memory_apply.py`: the commit head, the
generations, and the writer mode that admits ordinary writers. -/
namespace Omi.Memory
open Omi.Foundation

/-- SHA-256 as lowercase hex, and the texts of the scalars a contract payload may hold. -/
structure ContractHash where
  scalars : ScalarText
  sha256Hex : String → String
  length_sha256Hex : ∀ text, (sha256Hex text).toList.length = 64
  hex_sha256Hex : ∀ text, ∀ c ∈ (sha256Hex text).toList, c ∈ "0123456789abcdef".toList

variable (hash : ContractHash)

/-- `deterministic_contract_id`. -/
def ContractHash.contractId (namespaceText : String) (payload : PyDict) : String :=
  hash.sha256Hex (namespaceText ++ "|" ++ (PyVal.dict payload).jsonText hash.scalars)

/-- A hash in hex has no space in it. -/
theorem contractId_trimmed (namespaceText : String) (payload : PyDict) :
    strip (hash.contractId namespaceText payload) = hash.contractId namespaceText payload := by
  apply strip_eq_self
  have hhex : ∀ c ∈ "0123456789abcdef".toList, isPySpace c = false := by simp [isPySpace]
  intro c hc
  exact hhex c (hash.hex_sha256Hex _ c hc)

inductive WriterMode where
  | compatibility
  | transitioningToLedger
  | ledger
  | transitioningToCompatibility
  deriving DecidableEq, Repr

def WriterMode.text : WriterMode → String
  | .compatibility => "compatibility"
  | .transitioningToLedger => "transitioning_to_ledger"
  | .ledger => "ledger"
  | .transitioningToCompatibility => "transitioning_to_compatibility"

def WriterMode.transitioning : WriterMode → Bool
  | .transitioningToLedger | .transitioningToCompatibility => true
  | .compatibility | .ledger => false

inductive MemoryWriterClass where
  | compatibility
  | ledger
  | user
  deriving DecidableEq, Repr

def MemoryWriterClass.text : MemoryWriterClass → String
  | .compatibility => "compatibility"
  | .ledger => "ledger"
  | .user => "user"

structure MemoryControlState where
  uid : String
  headCommitId : String
  accountGeneration : ℤ
  sourceGeneration : ℤ
  writerMode : WriterMode := .compatibility
  writerEpoch : ℤ := 0
  writerTransitionOwner : Option String := none
  ledgerMigrationMigratedCount : ℤ := 0
  ledgerMigrationAdjudicatedCount : ℤ := 0
  commitSequence : ℤ := 0
  projectionWatermarkCommitId : Option String := none
  projectionWatermarkSequence : ℤ := 0
  vectorWatermarkCommitId : Option String := none
  lastPromotionRunAt : Option ℤ := none
  lastConsolidationRunAt : Option ℤ := none
  legacyBackfillProcessedCount : ℤ := 0
  legacyBackfillSourceFingerprint : Option String := none
  legacyBackfillCompletedAt : Option ℤ := none
  updatedAt : ℤ
  deriving DecidableEq, Repr

/-- The counters `validate_nonnegative` checks. -/
def MemoryControlState.counters (control : MemoryControlState) : List ℤ :=
  [control.accountGeneration, control.sourceGeneration, control.writerEpoch,
    control.ledgerMigrationMigratedCount, control.ledgerMigrationAdjudicatedCount,
    control.commitSequence, control.projectionWatermarkSequence,
    control.legacyBackfillProcessedCount]

/-- `validate_writer_transition_owner`. -/
def MemoryControlState.ownerValid (control : MemoryControlState) : Bool :=
  match control.writerTransitionOwner with
  | none => !control.writerMode.transitioning
  | some owner => control.writerMode.transitioning && !isBlank owner && owner = strip owner

/-- The validators of `MemoryControlState`. -/
def MemoryControlState.valid (control : MemoryControlState) : Bool :=
  !isBlank control.uid && !isBlank control.headCommitId && control.counters.all (0 ≤ ·) &&
    control.ownerValid

/-- `require_writer_admitted`: nothing, or the text of its `WriterAdmissionError`. -/
def requireWriterAdmitted (control : MemoryControlState) (requested : MemoryWriterClass)
    (allowLedgerMigration : Bool := false) : Except String Unit :=
  let refusal : Except String Unit := .error (requested.text ++
    " writer is not admitted while writer mode is " ++ control.writerMode.text)
  match control.writerMode, requested with
  | .compatibility, .user | .ledger, .user => .ok ()
  | .compatibility, .compatibility => .ok ()
  | .compatibility, .ledger => if allowLedgerMigration then .ok () else refusal
  | .ledger, .ledger => .ok ()
  | .transitioningToLedger, .ledger => if allowLedgerMigration then .ok () else refusal
  | _, _ => refusal

/-- While a transition is open the user and compatibility writers are refused. -/
theorem requireWriterAdmitted_transitioning {control : MemoryControlState}
    (hopen : control.writerMode.transitioning = true) {requested : MemoryWriterClass}
    (hwriter : requested ≠ .ledger) (allowLedgerMigration : Bool) :
    requireWriterAdmitted control requested allowLedgerMigration ≠ .ok () := by
  unfold requireWriterAdmitted
  cases hmode : control.writerMode with
  | compatibility => simp [hmode, WriterMode.transitioning] at hopen
  | ledger => simp [hmode, WriterMode.transitioning] at hopen
  | transitioningToLedger =>
    cases requested with
    | ledger => exact absurd rfl hwriter
    | compatibility | user => simp
  | transitioningToCompatibility => cases requested <;> simp

def MemoryControlState.nextCommitId (control : MemoryControlState) (operationId : String) :
    String :=
  "commit_" ++ String.ofList ((hash.contractId "memory-commit"
    [("uid", .str control.uid), ("head_commit_id", .str control.headCommitId),
      ("operation_id", .str operationId),
      ("commit_sequence", .int (control.commitSequence + 1))]).toList.take 32)

/-- `advance_head`; every commit id it is called with is nonblank. -/
def MemoryControlState.advanceHead (control : MemoryControlState) (commitId : String) (now : ℤ) :
    MemoryControlState :=
  { control with
    headCommitId := commitId
    commitSequence := control.commitSequence + 1
    updatedAt := now }

end Omi.Memory
