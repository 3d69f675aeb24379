import Mathlib
import Omi.Foundation.Runs
import Omi.Frames.Cleanup

/-! The cleanup workers among the operations on the requests: when no worker deletes an object
that is permanent evidence. -/
namespace Omi.Frames
open Omi.Foundation

variable {owner : String} {object : Bool × String}

/-! ### What a worker is still to delete -/

section runs
variable {α : Type} {runs : List (CleanupRun α)} {named : α → Option String}

/-- A run has a snapshot that names the object, still to process. -/
def Awaits (runs : List (CleanupRun α)) (named : α → Option String) (object : Bool × String) :
    Prop :=
  ∃ run ∈ runs, ∃ snapshot ∈ run.snapshots, (named snapshot.2).map storageObject = some object

/-- A run that goes on has no new snapshot. -/
theorem Awaits.of_set {index : ℕ} {run next : CleanupRun α}
    (h : Awaits (runs.set index next) named object) (hrun : runs[index]? = some run)
    (hsub : next.snapshots ⊆ run.snapshots) : Awaits runs named object := by
  obtain ⟨other, hother, snapshot, hsnapshot, hnamed⟩ := h
  rcases List.mem_or_eq_of_mem_set hother with hold | rfl
  · exact ⟨other, hold, snapshot, hsnapshot, hnamed⟩
  · exact ⟨run, List.mem_of_getElem? hrun, snapshot, hsub hsnapshot, hnamed⟩

/-- A new run awaits what its page names. -/
theorem Awaits.of_append {current : ℤ} {page : List (String × α)}
    (h : Awaits (runs ++ [⟨current, page, none⟩]) named object) :
    Awaits runs named object ∨
      ∃ snapshot ∈ page, (named snapshot.2).map storageObject = some object := by
  obtain ⟨run, hrun, snapshot, hsnapshot, hnamed⟩ := h
  rcases List.mem_append.mp hrun with hold | hnew
  · exact .inl ⟨run, hold, snapshot, hsnapshot, hnamed⟩
  · obtain rfl := List.mem_singleton.mp hnew
    exact .inr ⟨snapshot, hsnapshot, hnamed⟩

end runs

/-- No snapshot of the page names permanent evidence. -/
def FrameAccount.Spares {α : Type} (a : FrameAccount) (named : α → Option String)
    (page : List (String × α)) : Prop :=
  ∀ snapshot ∈ page, ∀ object,
    (named snapshot.2).map storageObject = some object → ¬ a.Evidence object

namespace FrameWorld
variable {world next : FrameWorld}

/-- A worker has still to delete the object. -/
def Holds (world : FrameWorld) (object : Bool × String) : Prop :=
  Awaits world.receiptRuns Receipt.cleanupObject object ∨
    Awaits world.rowRuns FrameRequest.cleanupObject object

/-- No query of a worker reads a snapshot that names evidence; an uploaded row is attached only
to an object that no worker has still to delete; and a transition makes no second attached
request in a conversation. -/
def Careful (world : FrameWorld) : EvidenceAction owner → Prop
  | .queryReceipts now limit =>
    world.account.Spares Receipt.cleanupObject (world.account.dueReceipts now limit)
  | .queryRows now limit =>
    world.account.Spares FrameRequest.cleanupObject (world.account.dueRequests now limit)
  | .request requestId (.attach _ call) =>
    ∀ row, world.account.requests.get requestId = some row → row.state = .uploaded →
      ¬ world.Holds (storageObject call.permanentStorageId)
  | .request requestId (.transition _ call) =>
    ∀ row, world.account.requests.get requestId = some row → row.state = .uploaded →
      call.nextState = .attached → ¬ world.account.HasAttached row.conversationId
  | _ => True

/-- The account is orderly, and no worker has an evidence object still to delete. -/
structure Guarded (world : FrameWorld) : Prop where
  orderly : world.account.Orderly
  spared : ∀ object, world.Holds object → ¬ world.account.Evidence object

/-- A step that gives the workers nothing new to delete and makes no evidence. -/
theorem Guarded.of_step (h : world.Guarded) (horderly : next.account.Orderly)
    (hholds : ∀ object, next.Holds object → world.Holds object)
    (hevidence : ∀ object, next.account.Evidence object → world.account.Evidence object) :
    next.Guarded :=
  ⟨horderly, fun object hheld hobject =>
    h.spared object (hholds object hheld) (hevidence object hobject)⟩

/-- A step that leaves the rows and the photos. -/
theorem Guarded.congr (h : world.Guarded)
    (hrequests : next.account.requests = world.account.requests)
    (hphotos : next.account.photos = world.account.photos)
    (hholds : ∀ object, next.Holds object → world.Holds object) : next.Guarded :=
  h.of_step (h.orderly.congr hrequests hphotos) hholds
    fun _ hobject => hobject.congr hrequests hphotos

/-! ### One step -/

theorem reserve_guarded {requestId permanentStorageId : String} {now : ℤ} (h : world.Guarded) :
    (world.step (.reserve requestId permanentStorageId now : EvidenceAction owner)).Guarded := by
  cases hreserve : world.account.reservePromotionCopy requestId permanentStorageId now with
  | error error =>
    simp only [step, hreserve]
    exact h
  | ok account =>
    simp only [step, hreserve]
    obtain ⟨_, -, hset⟩ := bind_eq_ok_iff.mp hreserve
    obtain rfl := Except.ok.inj hset
    exact h.congr (setReceipt_requests _ _) (setReceipt_photos _ _) fun _ hheld => hheld

theorem request_guarded {requestId : String} {action : FrameAction owner} (h : world.Guarded)
    (hcareful : world.Careful (.request requestId action)) :
    (world.step (.request requestId action)).Guarded := by
  cases hact : world.account.act requestId action with
  | error error =>
    simp only [step, hact]
    exact h
  | ok account =>
    simp only [step, hact]
    rcases act_cases h.orderly hact with ⟨row, hrow, hvalid, hacts⟩ | ⟨hrequests, hphotos⟩
    · refine ⟨hacts.orderly hrow hvalid h.orderly ?_, fun object hheld hobject => ?_⟩
      · rintro huploaded ⟨caller, call, rfl, hnext⟩
        exact hcareful row hrow huploaded hnext
      · rcases hacts.evidence hrow hvalid h.orderly hobject with
          hold | ⟨caller, call, rfl, huploaded, rfl⟩
        · exact h.spared object hheld hold
        · exact hcareful row hrow huploaded hheld
    · exact h.congr hrequests hphotos fun _ hheld => hheld

theorem queryReceipts_guarded {now : ℤ} {limit : ℕ} (h : world.Guarded)
    (hcareful : world.Careful (.queryReceipts now limit : EvidenceAction owner)) :
    (world.step (.queryReceipts now limit : EvidenceAction owner)).Guarded := by
  cases hlimit : limitValid limit with
  | false =>
    simp only [step, hlimit]
    exact h
  | true =>
    simp only [step, hlimit, if_true]
    refine ⟨h.orderly, fun object hheld => ?_⟩
    rcases hheld with hreceipt | hrow
    · rcases hreceipt.of_append with hold | ⟨snapshot, hsnapshot, hnamed⟩
      · exact h.spared object (.inl hold)
      · exact hcareful snapshot hsnapshot object hnamed
    · exact h.spared object (.inr hrow)

theorem queryRows_guarded {now : ℤ} {limit : ℕ} (h : world.Guarded)
    (hcareful : world.Careful (.queryRows now limit : EvidenceAction owner)) :
    (world.step (.queryRows now limit : EvidenceAction owner)).Guarded := by
  cases hlimit : limitValid limit with
  | false =>
    simp only [step, hlimit]
    exact h
  | true =>
    simp only [step, hlimit, if_true]
    refine ⟨h.orderly, fun object hheld => ?_⟩
    rcases hheld with hreceipt | hrow
    · exact h.spared object (.inl hreceipt)
    · rcases hrow.of_append with hold | ⟨snapshot, hsnapshot, hnamed⟩
      · exact h.spared object (.inr hold)
      · exact hcareful snapshot hsnapshot object hnamed

/-- A turn or an update of a receipt worker changes receipts only. -/
theorem receiptTurn_guarded (index : ℕ) (deleted : Bool) (h : world.Guarded) :
    (world.receiptTurn index deleted).Guarded := by
  unfold receiptTurn
  split
  next current snapshot rest hrun =>
    have hholds : ∀ deleting object,
        Holds { world with receiptRuns := world.receiptRuns.set index ⟨current, rest, deleting⟩ }
          object → world.Holds object := by
      intro deleting object hheld
      exact hheld.imp (fun hreceipt => hreceipt.of_set hrun (List.subset_cons_self snapshot rest)) id
    split
    · exact h.congr rfl rfl (hholds _)
    · exact h.congr rfl rfl (hholds _)
  next => exact h

theorem receiptUpdate_guarded (index : ℕ) (h : world.Guarded) :
    (world.receiptUpdate index).Guarded := by
  unfold receiptUpdate
  split
  next current rest snapshot deleted hrun =>
    split
    next account hupdate =>
      obtain ⟨stored, -, rfl⟩ := Option.map_eq_some_iff.mp hupdate
      refine h.congr rfl rfl fun object hheld => ?_
      exact hheld.imp (fun hreceipt => hreceipt.of_set hrun (List.Subset.refl rest)) id
    next =>
      refine h.congr rfl rfl fun object hheld => ?_
      exact hheld.imp (fun hreceipt => hreceipt.of_set hrun (List.nil_subset rest)) id
  next => exact h

theorem rowTurn_guarded (index : ℕ) (deleted : Bool) (h : world.Guarded) :
    (world.rowTurn index deleted).Guarded := by
  unfold rowTurn
  split
  next current requestId row rest hrun =>
    have hholds : ∀ snapshots deleting object, snapshots ⊆ rest →
        Holds { world with rowRuns := world.rowRuns.set index ⟨current, snapshots, deleting⟩ }
          object → world.Holds object := by
      intro snapshots deleting object hsub hheld
      exact hheld.imp id fun hrow => hrow.of_set hrun (List.subset_cons_of_subset _ hsub)
    split
    · exact h.congr rfl rfl fun object => hholds [] _ object (List.nil_subset rest)
    · split
      · exact h.congr rfl rfl fun object => hholds rest _ object (List.Subset.refl rest)
      · exact h.congr rfl rfl fun object => hholds rest _ object (List.Subset.refl rest)
  next => exact h

end FrameWorld

section update
variable {a next : FrameAccount} {current : ℤ} {snapshot : String × FrameRequest} {deleted : Bool}

/-- The update of a row worker writes the cleanup fields of one row. -/
theorem updateRequest_eq (h : a.updateRequest current snapshot deleted = some next) :
    ∃ stored state attempts nextAttemptAt, a.requests.get snapshot.1 = some stored ∧
      next.requests =
        a.requests.set snapshot.1 (stored.setCleanup state attempts nextAttemptAt) ∧
      next.photos = a.photos := by
  obtain ⟨stored, hstored, rfl⟩ := Option.map_eq_some_iff.mp h
  exact ⟨stored, _, _, _, hstored, rfl, rfl⟩

theorem updateRequest_orderly (horderly : a.Orderly)
    (h : a.updateRequest current snapshot deleted = some next) : next.Orderly := by
  obtain ⟨stored, state, attempts, nextAttemptAt, hstored, hwritten, hphotos⟩ := updateRequest_eq h
  obtain ⟨hid, hnormal⟩ := horderly.row_normal hstored
  refine horderly.set hwritten hid (congrArg (·.setCleanup state attempts nextAttemptAt) hnormal)
    (fun hopen conversationId => ?_) (fun otherId _ conversationId => photo_congr hphotos _ _) ?_
  · rw [photo_congr hphotos]
    exact horderly.photos snapshot.1 stored hstored hopen conversationId
  · intro hattached otherId other conversationId hother hotherAttached hown hotherOwn
    exact horderly.one otherId other snapshot.1 stored conversationId hother hstored hotherAttached
      hattached hotherOwn hown

theorem evidence_of_updateRequest (h : a.updateRequest current snapshot deleted = some next)
    (hobject : next.Evidence object) : a.Evidence object := by
  obtain ⟨stored, state, attempts, nextAttemptAt, hstored, hwritten, hphotos⟩ := updateRequest_eq h
  obtain ⟨requestId, row, conversationId, photo, hrow, hattached, hown, hphoto, hobjects⟩ :=
    hobject
  rw [photo_congr hphotos] at hphoto
  rw [hwritten, Table.get_set] at hrow
  by_cases hsame : requestId = snapshot.1
  · rw [if_pos hsame] at hrow
    obtain rfl := Option.some.inj hrow
    rw [← hsame] at hstored
    exact ⟨requestId, stored, conversationId, photo, hstored, hattached, hown, hphoto, hobjects⟩
  · rw [if_neg hsame] at hrow
    exact ⟨requestId, row, conversationId, photo, hrow, hattached, hown, hphoto, hobjects⟩

end update

namespace FrameWorld
variable {world : FrameWorld}

theorem rowUpdate_guarded (index : ℕ) (h : world.Guarded) : (world.rowUpdate index).Guarded := by
  unfold rowUpdate
  split
  next current rest snapshot deleted hrun =>
    split
    next account hupdate =>
      refine h.of_step (updateRequest_orderly h.orderly hupdate) (fun object hheld => ?_)
        fun object hobject => evidence_of_updateRequest hupdate hobject
      exact hheld.imp id fun hrow => hrow.of_set hrun (List.Subset.refl rest)
    next =>
      refine h.congr rfl rfl fun object hheld => ?_
      exact hheld.imp id fun hrow => hrow.of_set hrun (List.nil_subset rest)
  next => exact h

/-- Every careful step keeps the evidence guarded. -/
theorem step_guarded (action : EvidenceAction owner) (h : world.Guarded)
    (hcareful : world.Careful action) : (world.step action).Guarded := by
  cases action with
  | reserve => exact reserve_guarded h
  | request => exact request_guarded h hcareful
  | queryReceipts => exact queryReceipts_guarded h hcareful
  | receiptTurn run deleted => exact receiptTurn_guarded run deleted h
  | receiptUpdate run => exact receiptUpdate_guarded run h
  | queryRows => exact queryRows_guarded h hcareful
  | rowTurn run deleted => exact rowTurn_guarded run deleted h
  | rowUpdate run => exact rowUpdate_guarded run h

/-- What a step deletes a worker had still to delete. -/
theorem holds_of_deletes {action : EvidenceAction owner} {storageId : String}
    (h : world.deletes action = some storageId) : world.Holds (storageObject storageId) := by
  cases action with
  | receiptTurn index deleted =>
    simp only [deletes] at h
    split at h
    next current snapshot rest hrun =>
      exact .inl ⟨_, List.mem_of_getElem? hrun, snapshot, List.mem_cons_self, by rw [h]; rfl⟩
    next => cases h
  | rowTurn index deleted =>
    simp only [deletes] at h
    split at h
    next current snapshot rest hrun =>
      exact .inr ⟨_, List.mem_of_getElem? hrun, snapshot, List.mem_cons_self, by rw [h]; rfl⟩
    next => cases h
  | reserve | request | queryReceipts | receiptUpdate | queryRows | rowUpdate => cases h

/-- The step deletes no permanent evidence, and leaves at most one attached request in each
conversation. -/
def KeepsEvidence (world : FrameWorld) (action : EvidenceAction owner) : Prop :=
  (∀ storageId, world.deletes action = some storageId →
    ¬ world.account.Evidence (storageObject storageId)) ∧
  (world.step action).account.OneAttached

/-- In every run of careful steps no worker ever deletes permanent evidence, and a conversation
never has two attached requests. -/
theorem evidence_kept {start : FrameWorld} {actions : List (EvidenceAction owner)}
    (horderly : start.account.Orderly) (hreceipts : start.receiptRuns = [])
    (hrows : start.rowRuns = []) (hcareful : EveryStep step Careful start actions) :
    EveryStep step KeepsEvidence start actions := by
  have hstart : start.Guarded := by
    refine ⟨horderly, fun object hheld => ?_⟩
    rcases hheld with ⟨run, hrun, -⟩ | ⟨run, hrun, -⟩
    · rw [hreceipts] at hrun
      exact absurd hrun List.not_mem_nil
    · rw [hrows] at hrun
      exact absurd hrun List.not_mem_nil
  refine (hcareful.guarded hstart fun world action h hcareful =>
    step_guarded action h hcareful).imp ?_
  rintro world action ⟨hguarded, hcareful⟩
  exact ⟨fun storageId hdeletes => hguarded.spared _ (holds_of_deletes hdeletes),
    (step_guarded action hguarded hcareful).orderly.one⟩

end FrameWorld

/-! ### Two runs of a promotion -/

def uploadedRow : FrameRequest where
  requestId := "frame-d"
  uid := "u"
  deviceId := "mac"
  dedupeKey := "d"
  conversationId := some "c"
  state := .uploaded
  createdAt := 0
  expiresAt := seconds frameRequestMaxTtlSeconds
  uploadedAt := some 2
  byteCount := 1000
  contentType := some "image/jpeg"
  storageId := some "temporary-1"
  cleanupState := .pending
  cleanupNextAttemptAt := some 2

def uploadedWorld : FrameWorld where
  account :=
    { requests := [("frame-d", uploadedRow)]
      conversations := [("c", {})] }

/-- Two uploads of one conversation. -/
def pairWorld : FrameWorld where
  account :=
    { requests :=
        [("frame-d", uploadedRow), ("frame-e", { uploadedRow with requestId := "frame-e" })]
      conversations := [("c", {})] }

/-- Before any promotion an account is orderly. -/
theorem orderly_of_unattached {a : FrameAccount} (hkeys : a.requests.keys.Nodup)
    (hrows : ∀ entry ∈ a.requests, entry.2.requestId = entry.1 ∧ entry.2.normalise = entry.2)
    (hopen : ∀ entry ∈ a.requests, entry.2.state ≠ .attached) (hphotos : a.photos = []) :
    a.Orderly := by
  refine ⟨hkeys, hrows, fun requestId row hrow hstate conversationId => ?_, ?_⟩
  · rw [FrameAccount.photo, hphotos]
    rfl
  · intro requestId row _ _ _ hrow _ hattached
    exact absurd hattached (hopen _ (Table.mem_of_get hrow))

theorem uploadedWorld_orderly : uploadedWorld.account.Orderly :=
  orderly_of_unattached (by decide) (List.forall_mem_singleton.mpr ⟨rfl, rfl⟩)
    (List.forall_mem_singleton.mpr nofun) rfl

theorem pairWorld_orderly : pairWorld.account.Orderly :=
  orderly_of_unattached (by decide)
    (List.forall_mem_cons.mpr ⟨⟨rfl, rfl⟩, List.forall_mem_singleton.mpr ⟨rfl, rfl⟩⟩)
    (List.forall_mem_cons.mpr ⟨nofun, List.forall_mem_singleton.mpr nofun⟩) rfl

def promote (requestId : String) (now : ℤ) : EvidenceAction (strip "u") :=
  .request requestId (.attach ⟨"u", rfl⟩
    { deviceId := "mac"
      accountGeneration := 0
      conversationId := "c"
      permanentStorageId := "permanent-d"
      now := now })

/-- Two copies are reserved, and the promotion of one commits before the receipts are due; the worker
deletes the other. -/
def promptPromotion : List (EvidenceAction (strip "u")) :=
  [.reserve "frame-d" "permanent-d" 0, .reserve "frame-d" "permanent-x" 0,
    promote "frame-d" (seconds 1), .queryReceipts (seconds 3600) 32, .receiptTurn 0 true,
    .receiptUpdate 0]

/-- What no row names is no evidence. -/
theorem not_evidence_of_rows {a : FrameAccount} {object : Bool × String}
    (h : ∀ entry ∈ a.requests, entry.2.storageId.map storageObject ≠ some object) :
    ¬ a.Evidence object := by
  rintro ⟨requestId, row, _, _, hrow, -, -, -, hstored, -⟩
  exact h _ (Table.mem_of_get hrow) hstored

/-- The page of the worker has the other copy only. -/
theorem careful_promptQuery :
    ((promptPromotion.take 3).foldl FrameWorld.step uploadedWorld).Careful
      (.queryReceipts (seconds 3600) 32 : EvidenceAction (strip "u")) := by
  let account := ((promptPromotion.take 3).foldl FrameWorld.step uploadedWorld).account
  have hpage : ∀ snapshot ∈ account.dueReceipts (seconds 3600) 32,
      snapshot.2.cleanupObject.map storageObject = some (true, "permanent-x") := by
    decide +kernel
  have hrows : ∀ entry ∈ account.requests,
      entry.2.storageId.map storageObject ≠ some (true, "permanent-x") := by
    decide +kernel
  intro snapshot hsnapshot object hobject
  rw [hpage snapshot hsnapshot] at hobject
  obtain rfl := Option.some.inj hobject
  exact not_evidence_of_rows hrows

theorem evidence_kept_prompt :
    EveryStep FrameWorld.step FrameWorld.KeepsEvidence uploadedWorld promptPromotion ∧
      ((promptPromotion.take 4).foldl FrameWorld.step uploadedWorld).deletes
        (.receiptTurn 0 true : EvidenceAction (strip "u")) = some "permanent-x" := by
  refine ⟨FrameWorld.evidence_kept uploadedWorld_orderly rfl rfl ?_, by decide +kernel⟩
  refine ⟨trivial, trivial, ?_, careful_promptQuery, trivial, trivial, trivial⟩
  rintro row - - (⟨run, hrun, -⟩ | ⟨run, hrun, -⟩)
  · exact absurd hrun List.not_mem_nil
  · exact absurd hrun List.not_mem_nil

/-- A worker reads the receipt an hour later, and the promotion commits before the worker's
turn. -/
def latePromotion : List (EvidenceAction (strip "u")) :=
  [.reserve "frame-d" "permanent-d" 0, .queryReceipts (seconds 3600) 32,
    promote "frame-d" (seconds 3601), .receiptTurn 0 true]

/-- One of the two is promoted, the other moved to `attached` by a transition. -/
def secondAttached : List (EvidenceAction (strip "u")) :=
  [promote "frame-d" (seconds 1),
    .request "frame-e" (.transition ⟨"u", rfl⟩
      { nextState := .attached, deviceId := "mac", accountGeneration := 0, now := seconds 2 })]

/-- The worker deletes the promoted object; and a transition leaves a second attached request. -/
theorem evidence_lost :
    (uploadedWorld.account.Orderly ∧
      ¬ EveryStep FrameWorld.step FrameWorld.KeepsEvidence uploadedWorld latePromotion) ∧
    (pairWorld.account.Orderly ∧
      ¬ EveryStep FrameWorld.step FrameWorld.KeepsEvidence pairWorld secondAttached) := by
  refine ⟨⟨uploadedWorld_orderly, ?_⟩, pairWorld_orderly, ?_⟩
  · rintro ⟨-, -, -, hturn, -⟩
    exact hturn.1 "permanent-d" rfl ⟨"frame-d", _, "c", _, rfl, rfl, rfl, rfl, rfl, rfl⟩
  · rintro ⟨-, htransition, -⟩
    have hsame := htransition.2 "frame-d" _ "frame-e" _ "c" rfl rfl rfl rfl rfl rfl
    exact absurd hsame (by decide)

end Omi.Frames
