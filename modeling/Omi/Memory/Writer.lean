import Omi.Foundation.Checks
import Omi.Foundation.Machine
import Omi.Memory.Control

/-! Writer-mode transitions of `utils/memory/knowledge_ledger_writer_transition.py`: begin,
complete and abort on one control document, among the admissions of ordinary writers. -/
namespace Omi.Memory
open Omi.Foundation

inductive WriterTransitionConflictCode where
  | missingControl
  | malformedControl
  | staleFence
  | crossOwner
  | illegalTransition
  | invalidProof
  deriving DecidableEq, Repr

/-- `WriterTransitionConflict`, or the `ValidationError` of a control document. -/
inductive WriterError where
  | conflict (code : WriterTransitionConflictCode) (message : String)
  | invalidControl
  deriving DecidableEq, Repr

structure MemoryWriterFence where
  uid : String
  headCommitId : String
  accountGeneration : ℤ
  sourceGeneration : ℤ
  commitSequence : ℤ
  writerMode : WriterMode
  writerEpoch : ℤ
  writerTransitionOwner : Option String
  deriving DecidableEq, Repr

def MemoryWriterFence.fromControl (control : MemoryControlState) : MemoryWriterFence where
  uid := control.uid
  headCommitId := control.headCommitId
  accountGeneration := control.accountGeneration
  sourceGeneration := control.sourceGeneration
  commitSequence := control.commitSequence
  writerMode := control.writerMode
  writerEpoch := control.writerEpoch
  writerTransitionOwner := control.writerTransitionOwner

structure CompleteUnionProofReceipt where
  uid : String
  transitionOwner : String
  writerMode : WriterMode
  targetMode : WriterMode
  writerEpoch : ℤ
  headCommitId : String
  accountGeneration : ℤ
  sourceGeneration : ℤ
  commitSequence : ℤ
  completeUnionDigest : String
  completeUnionCount : ℤ
  generatedAt : ℤ
  deriving DecidableEq, Repr

def isLowerHex (c : Char) : Bool := c.isDigit || ('a' ≤ c && c ≤ 'f')

/-- The validators of `CompleteUnionProofReceipt`. -/
def CompleteUnionProofReceipt.valid (receipt : CompleteUnionProofReceipt) : Bool :=
  [receipt.uid, receipt.transitionOwner, receipt.headCommitId].all
      (fun text => !isBlank text && text = strip text) &&
    1 ≤ receipt.writerEpoch &&
    [receipt.accountGeneration, receipt.sourceGeneration, receipt.commitSequence,
      receipt.completeUnionCount].all (0 ≤ ·) &&
    receipt.completeUnionDigest.toList.length = 64 &&
    receipt.completeUnionDigest.toList.all isLowerHex &&
    (receipt.writerMode = .transitioningToLedger && receipt.targetMode = .ledger ||
      receipt.writerMode = .transitioningToCompatibility && receipt.targetMode = .compatibility)

/-- The fence a proof was made under. -/
def CompleteUnionProofReceipt.fence (receipt : CompleteUnionProofReceipt) :
    MemoryWriterFence where
  uid := receipt.uid
  headCommitId := receipt.headCommitId
  accountGeneration := receipt.accountGeneration
  sourceGeneration := receipt.sourceGeneration
  commitSequence := receipt.commitSequence
  writerMode := receipt.writerMode
  writerEpoch := receipt.writerEpoch
  writerTransitionOwner := some receipt.transitionOwner

/-- What a transition transaction returns and writes. -/
structure TransitionTxn where
  reply : MemoryControlState
  control : Option MemoryControlState := none
  receipt : Option CompleteUnionProofReceipt := none
  deriving DecidableEq, Repr

abbrev TransitionM := Except WriterError

def conflict {α : Type} (code : WriterTransitionConflictCode) (message : String) :
    TransitionM α := .error (.conflict code message)

/-- Raise unless the condition holds. -/
def require (condition : Bool) (code : WriterTransitionConflictCode) (message : String) :
    TransitionM Unit := check condition (.conflict code message)

def readControl (uid : String) (document : Option MemoryControlState) :
    TransitionM MemoryControlState :=
  match document with
  | none => conflict .missingControl "memory control state is missing"
  | some control =>
    if !control.valid then conflict .malformedControl "memory control state is malformed"
    else if control.uid ≠ uid then
      conflict .crossOwner "memory control state belongs to another user"
    else .ok control

def requiredOwner (owner : String) : TransitionM Unit :=
  require (!isBlank owner && owner = strip owner) .crossOwner
    "writer transition owner must be nonblank and trimmed"

def requireExpectedOwner (uid : String) (control : MemoryControlState) : TransitionM Unit :=
  require (control.uid = uid) .crossOwner "expected writer fence belongs to another user"

def requireTransitionExpected (control : MemoryControlState) (owner : String) :
    TransitionM Unit := do
  require control.writerMode.transitioning .illegalTransition
    "operation requires a transitioning expected writer mode"
  require (control.writerTransitionOwner = some owner) .crossOwner
    "expected transition has another owner"

/-- `_stable_mode`. -/
def stableMode (target : WriterMode) : TransitionM Unit :=
  require (!target.transitioning) .illegalTransition "writer target must be a stable mode"

/-- `_transition_mode_for`, on the stable modes. -/
def transitionModeFor : WriterMode → WriterMode
  | .compatibility | .transitioningToCompatibility => .transitioningToCompatibility
  | .ledger | .transitioningToLedger => .transitioningToLedger

/-- `_prior_stable_mode`, on the transition modes. -/
def priorStableMode : WriterMode → WriterMode
  | .transitioningToLedger => .compatibility
  | .transitioningToCompatibility => .ledger
  | mode => mode

def validatedControlUpdate (updated : MemoryControlState) : TransitionM MemoryControlState :=
  if updated.valid then .ok updated else .error .invalidControl

def sameNonmodeFence (current expected : MemoryWriterFence) : Bool :=
  current.uid = expected.uid && current.headCommitId = expected.headCommitId &&
    current.accountGeneration = expected.accountGeneration &&
    current.sourceGeneration = expected.sourceGeneration &&
    current.commitSequence = expected.commitSequence &&
    current.writerEpoch = expected.writerEpoch

def isBeginReplay (current : MemoryControlState) (expected : MemoryWriterFence)
    (transitionMode : WriterMode) (owner : String) : Bool :=
  !expected.writerMode.transitioning && current.writerMode = transitionMode &&
    current.writerTransitionOwner = some owner && current.uid = expected.uid &&
    current.headCommitId = expected.headCommitId &&
    current.accountGeneration = expected.accountGeneration &&
    current.commitSequence = expected.commitSequence &&
    current.sourceGeneration = expected.sourceGeneration + 1 &&
    current.writerEpoch = expected.writerEpoch + 1

def isCompletedReplay (current : MemoryControlState) (expected : MemoryWriterFence)
    (targetMode : WriterMode) : Bool :=
  expected.writerMode.transitioning && current.writerMode = targetMode &&
    current.writerTransitionOwner = none &&
    sameNonmodeFence (.fromControl current) expected

def isAbortedReplay (current : MemoryControlState) (expected : MemoryWriterFence)
    (priorMode : WriterMode) : Bool :=
  current.writerMode = priorMode && current.writerTransitionOwner = none &&
    sameNonmodeFence (.fromControl current) expected

/-- The two refusals every transition transaction makes once it is no replay. -/
def requireCurrentFence (current : MemoryControlState) (owner : String)
    (expected : MemoryWriterFence) : TransitionM Unit := do
  require (!current.writerMode.transitioning || current.writerTransitionOwner = some owner)
    .crossOwner "writer transition has another owner"
  require (MemoryWriterFence.fromControl current = expected) .staleFence
    "writer transition fence is stale"

def MemoryControlState.begun (control : MemoryControlState) (target : WriterMode)
    (owner : String) (now : ℤ) : MemoryControlState :=
  { control with
    writerMode := transitionModeFor target
    writerEpoch := control.writerEpoch + 1
    sourceGeneration := control.sourceGeneration + 1
    writerTransitionOwner := some owner
    updatedAt := now }

/-- The control state a complete or an abort returns to a stable mode. -/
def MemoryControlState.settled (control : MemoryControlState) (mode : WriterMode) (now : ℤ) :
    MemoryControlState :=
  { control with
    writerMode := mode
    writerTransitionOwner := none
    updatedAt := now }

/-- The documents the transitions of one user read and write. -/
structure WriterStore where
  control : Option MemoryControlState
  receipt : Option CompleteUnionProofReceipt
  deriving DecidableEq, Repr

def beginWriterTransition (s : WriterStore) (uid : String) (target : WriterMode)
    (owner : String) (expected : MemoryControlState) (now : ℤ) : TransitionM TransitionTxn := do
  requiredOwner owner
  stableMode target
  requireExpectedOwner uid expected
  require (!expected.writerMode.transitioning) .illegalTransition
    "transition entry requires a stable expected writer mode"
  require (expected.writerMode ≠ target) .illegalTransition
    "writer transition target is already the expected stable mode"
  let current ← readControl uid s.control
  if isBeginReplay current (.fromControl expected) (transitionModeFor target) owner then
    return { reply := current }
  requireCurrentFence current owner (.fromControl expected)
  require (!current.writerMode.transitioning) .illegalTransition
    "writer mode is already transitioning"
  require (current.writerMode ≠ target) .illegalTransition
    "writer transition target is already the stable mode"
  let transitioned ← validatedControlUpdate (current.begun target owner now)
  return { reply := transitioned, control := some transitioned }

/-- `_validate_receipt_fence`. -/
def validateReceiptFence (receipt : CompleteUnionProofReceipt) (expected : MemoryWriterFence)
    (owner : String) : TransitionM Unit := do
  require (expected.writerTransitionOwner = some owner) .crossOwner
    "complete-union proof owner does not own the expected transition"
  require (receipt.fence = { expected with writerTransitionOwner := some owner }) .invalidProof
    "complete-union proof does not match the expected writer fence"

def completeWriterTransition (s : WriterStore) (uid owner : String)
    (expected : MemoryControlState) (receipt : CompleteUnionProofReceipt) (now : ℤ) :
    TransitionM TransitionTxn := do
  requiredOwner owner
  requireExpectedOwner uid expected
  requireTransitionExpected expected owner
  require receipt.valid .invalidProof "writer transition proof is malformed"
  validateReceiptFence receipt (.fromControl expected) owner
  let current ← readControl uid s.control
  if isCompletedReplay current (.fromControl expected) receipt.targetMode then
    match s.receipt with
    | none => conflict .invalidProof "writer transition proof is missing"
    | some persisted =>
      require persisted.valid .invalidProof "persisted writer proof is malformed"
      require (persisted = receipt) .invalidProof
        "completed writer transition proof does not match the persisted receipt"
      return { reply := current }
  else
    requireCurrentFence current owner (.fromControl expected)
    require (current.writerTransitionOwner = some owner) .crossOwner
      "writer transition owner mismatch"
    require (current.writerMode = receipt.writerMode) .illegalTransition
      "proof targets another transition"
    let completed ← validatedControlUpdate (current.settled receipt.targetMode now)
    return { reply := completed, control := some completed, receipt := some receipt }

def abortWriterTransition (s : WriterStore) (uid owner : String)
    (expected : MemoryControlState) (now : ℤ) : TransitionM TransitionTxn := do
  requiredOwner owner
  requireExpectedOwner uid expected
  requireTransitionExpected expected owner
  let current ← readControl uid s.control
  let priorMode := priorStableMode expected.writerMode
  if isAbortedReplay current (.fromControl expected) priorMode then
    return { reply := current }
  requireCurrentFence current owner (.fromControl expected)
  require (current.writerTransitionOwner = some owner) .crossOwner
    "writer transition owner mismatch"
  let aborted ← validatedControlUpdate (current.settled priorMode now)
  return { reply := aborted, control := some aborted }

inductive WriterCall where
  | begin (uid : String) (target : WriterMode) (owner : String) (expected : MemoryControlState)
    (now : ℤ)
  | complete (uid owner : String) (expected : MemoryControlState)
    (receipt : CompleteUnionProofReceipt) (now : ℤ)
  | abort (uid owner : String) (expected : MemoryControlState) (now : ℤ)
  | admission (requested : MemoryWriterClass) (allowLedgerMigration : Bool)
    (commit : Option (String × ℤ))
  deriving DecidableEq, Repr

inductive WriterReply where
  | transition (result : TransitionM MemoryControlState)
  | admission (result : Except String Unit)
  deriving DecidableEq

/-- An admission, and the commit its writer makes in the same transaction. -/
def admitWriter (s : WriterStore) (requested : MemoryWriterClass) (allowLedgerMigration : Bool)
    (commit : Option (String × ℤ)) : WriterStore × WriterReply :=
  match s.control with
  | none => (s, .admission (.error "missing memory control state"))
  | some control =>
    match requireWriterAdmitted control requested allowLedgerMigration, commit with
    | .error message, _ => (s, .admission (.error message))
    | .ok (), none => (s, .admission (.ok ()))
    | .ok (), some (commitId, now) =>
      ({ s with control := some (control.advanceHead commitId now) }, .admission (.ok ()))

def WriterStore.write (s : WriterStore) (txn : TransitionTxn) : WriterStore where
  control := txn.control.or s.control
  receipt := txn.receipt.or s.receipt

def runTransition (s : WriterStore) (result : TransitionM TransitionTxn) :
    WriterStore × WriterReply :=
  match result with
  | .error error => (s, .transition (.error error))
  | .ok txn => (s.write txn, .transition (.ok txn.reply))

/-- The transaction of a transition call. -/
def WriterCall.txn (s : WriterStore) : WriterCall → Option (TransitionM TransitionTxn)
  | .begin uid target owner expected now =>
    some (beginWriterTransition s uid target owner expected now)
  | .complete uid owner expected receipt now =>
    some (completeWriterTransition s uid owner expected receipt now)
  | .abort uid owner expected now => some (abortWriterTransition s uid owner expected now)
  | .admission .. => none

def writerStep (s : WriterStore) (call : WriterCall) : WriterStore × WriterReply :=
  match call with
  | .begin uid target owner expected now =>
    runTransition s (beginWriterTransition s uid target owner expected now)
  | .complete uid owner expected receipt now =>
    runTransition s (completeWriterTransition s uid owner expected receipt now)
  | .abort uid owner expected now => runTransition s (abortWriterTransition s uid owner expected now)
  | .admission requested allowLedgerMigration commit =>
    admitWriter s requested allowLedgerMigration commit

def writers : Machine WriterStore WriterCall WriterReply := ⟨writerStep⟩

end Omi.Memory
