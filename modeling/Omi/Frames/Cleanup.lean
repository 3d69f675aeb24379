import Mathlib
import Omi.Frames.Evidence

/-! The two cleanup workers, which act on the snapshots of a query, step by step among the
operations on the requests. -/
namespace Omi.Frames
open Omi.Foundation

/-! ### Runs of the workers -/

/-- A run of a worker: its clock, the snapshots it has still to process, each with the name of its
document, and the one whose `delete_storage` has returned (`true`) or raised. -/
structure CleanupRun (α : Type) where
  current : ℤ
  snapshots : List (String × α)
  deleting : Option ((String × α) × Bool) := none
deriving DecidableEq

/-- The delay before the next attempt. -/
def retryDelay (attempts : ℕ) : ℤ := seconds (min (24 * 60 * 60) (2 ^ min attempts 16))

def awaitsCleanup (state : FrameRequestCleanupState) : Bool :=
  state = .pending || state = .failed

/-- The page of `cleanup_ambiguous_frame_upload_pixels`. -/
def FrameAccount.dueReceipts (a : FrameAccount) (current : ℤ) (limit : ℕ) :
    List (String × Receipt) :=
  (sortBy (fun snapshot => snapshot.2.cleanupNextAttemptAt.getD 0)
    (a.receipts.filter fun snapshot =>
      snapshot.2.cleanupNextAttemptAt.any (· ≤ current))).take limit

/-- The object to delete for a receipt of the page, unless it is malformed or finished. -/
def Receipt.cleanupObject (receipt : Receipt) : Option String :=
  if !isBlank receipt.storageId && isSegment receipt.storageId &&
      awaitsCleanup receipt.cleanupState then
    some receipt.storageId
  else none

/-- `snapshot.reference.update`, which raises where the document is gone. -/
def FrameAccount.updateReceipt (a : FrameAccount) (current : ℤ) (snapshot : String × Receipt)
    (deleted : Bool) : Option FrameAccount :=
  (a.receipts.get snapshot.1).map fun stored =>
    { a with
      receipts := a.receipts.set snapshot.1
        { stored with
          cleanupState := if deleted then .deleted else .failed
          cleanupAttempts := snapshot.2.cleanupAttempts + 1
          cleanupNextAttemptAt :=
            if deleted then none else some (current + retryDelay snapshot.2.cleanupAttempts) } }

/-- The page of `cleanup_frame_request_pixels`. -/
def FrameAccount.dueRequests (a : FrameAccount) (current : ℤ) (limit : ℕ) :
    List (String × FrameRequest) :=
  (sortBy (fun snapshot => snapshot.2.cleanupNextAttemptAt.getD 0)
    (a.requests.filter fun snapshot =>
      snapshot.2.state.terminal && snapshot.2.state ≠ .attached &&
        awaitsCleanup snapshot.2.cleanupState &&
          snapshot.2.cleanupNextAttemptAt.any (· ≤ current))).take limit

/-- The object to delete for a row of the page, if the row is parsed and not skipped. -/
def FrameRequest.cleanupObject (row : FrameRequest) : Option String :=
  match row.parse with
  | .error _ => none
  | .ok request => if awaitsCleanup request.cleanupState then request.storageId else none

/-- The fields that a worker updates. -/
def FrameRequest.setCleanup (row : FrameRequest) (state : FrameRequestCleanupState) (attempts : ℤ)
    (nextAttemptAt : Option ℤ) : FrameRequest :=
  { row with
    cleanupState := state
    cleanupAttempts := attempts
    cleanupNextAttemptAt := nextAttemptAt }

def FrameAccount.updateRequest (a : FrameAccount) (current : ℤ)
    (snapshot : String × FrameRequest) (deleted : Bool) : Option FrameAccount :=
  (a.requests.get snapshot.1).map fun stored =>
    { a with
      requests := a.requests.set snapshot.1
        (stored.setCleanup (if deleted then .deleted else .failed)
          (snapshot.2.cleanupAttempts + 1)
          (if deleted then none
          else some (current + retryDelay snapshot.2.cleanupAttempts.toNat))) }

/-! ### The queue and its workers -/

structure FrameWorld where
  account : FrameAccount
  receiptRuns : List (CleanupRun Receipt) := []
  rowRuns : List (CleanupRun FrameRequest) := []

inductive EvidenceAction (owner : String) where
  | reserve (requestId permanentStorageId : String) (now : ℤ)
  | request (requestId : String) (action : FrameAction owner)
  | queryReceipts (now : ℤ) (limit : ℕ)
  | receiptTurn (run : ℕ) (deleted : Bool)
  | receiptUpdate (run : ℕ)
  | queryRows (now : ℤ) (limit : ℕ)
  | rowTurn (run : ℕ) (deleted : Bool)
  | rowUpdate (run : ℕ)

namespace FrameWorld

/-- The limits a worker accepts. -/
def limitValid (limit : ℕ) : Bool := 1 ≤ limit && limit ≤ frameRequestMaxBatch

/-- The next snapshot of a run, whose storage object is deleted unless `delete_storage` raises; a
malformed or finished receipt is deleted itself. -/
def receiptTurn (world : FrameWorld) (index : ℕ) (deleted : Bool) : FrameWorld :=
  match world.receiptRuns[index]? with
  | some ⟨current, snapshot :: rest, none⟩ =>
    if snapshot.2.cleanupObject.isSome then
      { world with
        receiptRuns := world.receiptRuns.set index ⟨current, rest, some (snapshot, deleted)⟩ }
    else
      { world with
        account := world.account.deleteReceipt snapshot.1
        receiptRuns := world.receiptRuns.set index ⟨current, rest, none⟩ }
  | _ => world

/-- The update behind a storage delete. A run that raises is over. -/
def receiptUpdate (world : FrameWorld) (index : ℕ) : FrameWorld :=
  match world.receiptRuns[index]? with
  | some ⟨current, rest, some (snapshot, deleted)⟩ =>
    match world.account.updateReceipt current snapshot deleted with
    | some account =>
      { world with
        account := account
        receiptRuns := world.receiptRuns.set index ⟨current, rest, none⟩ }
    | none => { world with receiptRuns := world.receiptRuns.set index ⟨current, [], none⟩ }
  | _ => world

def rowTurn (world : FrameWorld) (index : ℕ) (deleted : Bool) : FrameWorld :=
  match world.rowRuns[index]? with
  | some ⟨current, (requestId, row) :: rest, none⟩ =>
    match row.parse with
    | .error _ => { world with rowRuns := world.rowRuns.set index ⟨current, [], none⟩ }
    | .ok request =>
      if row.cleanupObject.isSome then
        { world with
          rowRuns := world.rowRuns.set index
            ⟨current, rest, some ((requestId, request), deleted)⟩ }
      else { world with rowRuns := world.rowRuns.set index ⟨current, rest, none⟩ }
  | _ => world

def rowUpdate (world : FrameWorld) (index : ℕ) : FrameWorld :=
  match world.rowRuns[index]? with
  | some ⟨current, rest, some (snapshot, deleted)⟩ =>
    match world.account.updateRequest current snapshot deleted with
    | some account =>
      { world with
        account := account
        rowRuns := world.rowRuns.set index ⟨current, rest, none⟩ }
    | none => { world with rowRuns := world.rowRuns.set index ⟨current, [], none⟩ }
  | _ => world

variable {owner : String}

def step (world : FrameWorld) : EvidenceAction owner → FrameWorld
  | .reserve requestId permanentStorageId now =>
    match world.account.reservePromotionCopy requestId permanentStorageId now with
    | .ok account => { world with account := account }
    | .error _ => world
  | .request requestId action =>
    match world.account.act requestId action with
    | .ok account => { world with account := account }
    | .error _ => world
  | .queryReceipts now limit =>
    if limitValid limit then
      { world with
        receiptRuns := world.receiptRuns ++ [⟨now, world.account.dueReceipts now limit, none⟩] }
    else world
  | .receiptTurn run deleted => world.receiptTurn run deleted
  | .receiptUpdate run => world.receiptUpdate run
  | .queryRows now limit =>
    if limitValid limit then
      { world with
        rowRuns := world.rowRuns ++ [⟨now, world.account.dueRequests now limit, none⟩] }
    else world
  | .rowTurn run deleted => world.rowTurn run deleted
  | .rowUpdate run => world.rowUpdate run

/-- The storage id that the step passes to `delete_storage`. -/
def deletes (world : FrameWorld) : EvidenceAction owner → Option String
  | .receiptTurn run _ =>
    match world.receiptRuns[run]? with
    | some ⟨_, snapshot :: _, none⟩ => snapshot.2.cleanupObject
    | _ => none
  | .rowTurn run _ =>
    match world.rowRuns[run]? with
    | some ⟨_, snapshot :: _, none⟩ => snapshot.2.cleanupObject
    | _ => none
  | _ => none

end FrameWorld
end Omi.Frames
