import Omi.Memory.CommitChain

/-! The rows of one commit: when each of them is in it once, and none is superseded by itself. The
patch brings the id of the row it changes and the ids of those it supersedes, which nothing keeps
apart. -/
namespace Omi.Memory
open Omi.Foundation

/-- A committed apply. -/
structure AppliedCommit (env : MemoryEnv) where
  control : MemoryControlState
  call : ApplyCall
  result : ApplyResult
  applied : applyLongTermPatchTransaction env control call.operation call.payload call.clock
    call.allowTriggerFeedbackArguments = .ok result
  committed : result.status = .committed

/-- The authoritative rows that a payload brings. -/
def PatchPayload.rows (payload : PatchPayload) : List MemoryItem :=
  payload.existingItem.toList ++ payload.supersededItems.getD []

/-- The row is a first version, or one revision on from a row of its id in the payload. -/
def Stepped (payload : PatchPayload) (item : MemoryItem) : Prop :=
  (item.version = 1 ∧ item.itemRevision = 1) ∨
    ∃ existing ∈ payload.rows, existing.memoryId = item.memoryId ∧
      item.version = existing.version + 1 ∧ item.itemRevision = existing.itemRevision + 1

/-- No row is in the commit twice or superseded by itself, and storing the rows leaves each
document as its row, one step on. -/
structure ChangesOnce (payload : PatchPayload) (result : ApplyResult) : Prop where
  distinct : (result.memoryItems.map (·.memoryId)).Nodup
  notBySelf : ∀ item ∈ result.memoryItems, item.supersededBy ≠ some item.memoryId
  stored : ∀ items, ∀ item ∈ result.memoryItems,
    (writeItems items result.memoryItems).get item.memoryId = some item
  stepped : ∀ item ∈ result.memoryItems, Stepped payload item

/-- What the changed row is recorded as superseded by: what the payload says of it, or what an
update finds. -/
def PatchPayload.successor (payload : PatchPayload) : Option String :=
  payload.extras.successor
    (if payload.patch.decision = .update then payload.existingItem.bind (·.supersededBy) else none)

/-- The call names no row twice, and does not record the row it changes as superseded by itself. -/
def ApplyCall.NamesApart (env : MemoryEnv) (call : ApplyCall) (control : MemoryControlState) :
    Prop :=
  call.DistinctRows env control ∧
    (call.payload.patch.decision = .skipDuplicate ∨
      call.payload.successor ≠ some (call.changedId env control))

section
variable {env : MemoryEnv} {control : MemoryControlState} {operation : MemoryOperation}
  {payload : PatchPayload} {clock : ApplyClock} {flag : Bool} {evidence : List MemoryEvidence}
  {point : CommitPoint} {now : ℤ} {item attached : MemoryItem} {superseded : List MemoryItem}

theorem changedItem_stepped {changed : MemoryItem × Bool}
    (h : changedItem env control operation payload evidence point now flag = .ok changed) :
    changed.1.supersededBy = payload.successor ∧ Stepped payload changed.1 := by
  obtain ⟨hupdate, existing, hcheck, -, hcopy, -⟩ | ⟨hbuilt, hmade, -⟩ := changedItem_ok h
  · have hrow := (checkUpdate_ok hcheck).1
    obtain ⟨hversion, hrevision⟩ :=
      updatedMemoryItem_revision env payload evidence point now existing
    rw [hcopy]
    constructor
    · rw [updatedMemoryItem_supersededBy, PatchPayload.successor, if_pos hupdate, hrow,
        Option.bind_some]
    · refine .inr ⟨existing, ?_, ?_, hversion, hrevision⟩
      · simp [PatchPayload.rows, hrow]
      · rw [updatedMemoryItem_memoryId]
  · obtain ⟨hversion, hrevision, hsuccessor, -⟩ := materializeMemoryItem_fresh hmade
    constructor
    · rw [hsuccessor, PatchPayload.successor, if_neg hbuilt]
    · exact .inl ⟨hversion, hrevision⟩

/-- The rows that are superseded have the changed one as their successor. -/
theorem supersedeItems_stepped
    (h : supersedeItems operation payload attached point clock = .ok superseded) :
    ∀ row ∈ superseded, row.memoryId ∈ payload.patch.supersedes ∧
      row.supersededBy = some attached.memoryId ∧ Stepped payload row := by
  intro row hrow
  obtain ⟨supersededId, hid, existing, hexisting, -, rfl, -, rfl⟩ :=
    exists_left_of_forall₂ (supersedeItems_ok h) hrow
  refine ⟨hid, rfl, .inr ⟨existing, ?_, rfl, rfl, rfl⟩⟩
  exact List.mem_append_right _ hexisting

end

namespace AppliedCommit
variable {env : MemoryEnv} (c : AppliedCommit env)

theorem runs : runApply env c.control c.call.operation c.call.payload c.call.clock
    c.call.allowTriggerFeedbackArguments = .ok c.result :=
  runApply_of_committed c.applied c.committed

/-- A skipped duplicate changes nothing; any other commit has the changed row in front of those it
supersedes. -/
theorem rows_cases :
    (c.call.payload.patch.decision = .skipDuplicate ∧ c.result.memoryItems = []) ∨
      (c.call.payload.patch.decision ≠ .skipDuplicate ∧ ∃ changed superseded,
        c.result.memoryItems = changed :: superseded ∧
        c.result.memoryItems.map (·.memoryId) =
          c.call.changedId env c.control :: c.call.payload.patch.supersedes ∧
        changed.supersededBy = c.call.payload.successor ∧ Stepped c.call.payload changed ∧
        ∀ row ∈ superseded, row.memoryId ∈ c.call.payload.patch.supersedes ∧
          row.supersededBy = some changed.memoryId ∧ Stepped c.call.payload row) := by
  obtain ⟨evidence, -, -, -, ⟨hskip, hcommit⟩ | ⟨hskip, items, assertions, hitems, hcommit⟩⟩ :=
    runApply_ok c.runs
  · exact .inl ⟨hskip, (commitResult_ok hcommit).2.2.1⟩
  · have hids := appliedItems_ids hitems
    obtain ⟨changed, attached, superseded, hchanged, hattached, hsuperseded, rfl⟩ :=
      appliedItems_ok hitems
    obtain ⟨hsuccessor, hstepped⟩ := changedItem_stepped hchanged
    obtain ⟨_, _, _, _, _, hgraph⟩ := attached_eq hattached
    have hresult := (commitResult_ok hcommit).2.2.1
    refine .inr ⟨hskip, attached, superseded, hresult, ?_, ?_, ?_,
      supersedeItems_stepped hsuperseded⟩
    · rw [hresult]
      exact hids
    · rw [hgraph]
      exact hsuccessor
    · rw [hgraph]
      exact hstepped

end AppliedCommit

/-- The rows of a commit are there once, and none is superseded by itself, exactly when its call
names no row twice and no row as its own successor. -/
theorem changesOnce_iff {env : MemoryEnv} (c : AppliedCommit env) :
    ChangesOnce c.call.payload c.result ↔ c.call.NamesApart env c.control := by
  obtain ⟨hskip, hnone⟩ | ⟨hskip, changed, superseded, hitems, hids, hsuccessor, hstepped,
    hsuperseded⟩ := c.rows_cases
  · constructor
    · intro _
      exact ⟨.inl hskip, .inl hskip⟩
    · intro _
      constructor <;> simp [hnone]
  · have hchanged : changed.memoryId = c.call.changedId env c.control := by
      rw [hitems, List.map_cons] at hids
      exact (List.cons.inj hids).1
    constructor
    · intro honce
      have hdistinct := honce.distinct
      rw [hids] at hdistinct
      refine ⟨.inr hdistinct, .inr ?_⟩
      rw [← hsuccessor, ← hchanged]
      apply honce.notBySelf
      rw [hitems]
      exact List.mem_cons_self
    · rintro ⟨hdistinct, happart⟩
      have hnodup : (c.result.memoryItems.map (·.memoryId)).Nodup := by
        rw [hids]
        exact hdistinct.resolve_left hskip
      refine ⟨hnodup, ?_, fun items item hitem => get_writeItems hnodup hitem, ?_⟩
      · rw [hitems, List.forall_mem_cons]
        constructor
        · rw [hsuccessor, hchanged]
          exact happart.resolve_left hskip
        · intro row hrow hself
          obtain ⟨hmem, hby, -⟩ := hsuperseded row hrow
          have hsame : changed.memoryId = row.memoryId := Option.some.inj (hby.symm.trans hself)
          -- the changed row would be among those it supersedes
          rw [hids, List.nodup_cons, ← hchanged, hsame] at hnodup
          exact hnodup.1 hmem
      · rw [hitems, List.forall_mem_cons]
        exact ⟨hstepped, fun row hrow => (hsuperseded row hrow).2.2⟩

/-- An update that supersedes the row it updates has it in its commit twice, the second time as
superseded by itself. -/
theorem not_changesOnce : ¬ ∃ env : MemoryEnv, ∀ c : AppliedCommit env,
    ChangesOnce c.call.payload c.result := by
  rintro ⟨env, honce⟩
  let rows : Table MemoryItem := [("a", teaRow "a" .shortTerm (some 2))]
  let call := teaUpdate env "e" ["a"]
  have hevidence : proposedEvidence (call.payload.withRows rows) = .ok [teaEvidence] := by
    rfl
  have hitems : ∃ updated superseded, appliedItems env teaControl call.operation
      (call.payload.withRows rows) [teaEvidence] call.clock false =
        .ok ([updated, superseded], []) ∧
      [updated, superseded].all (·.labelSet.isSome) = true ∧
      superseded.supersededBy = some superseded.memoryId := by
    exact ⟨_, _, rfl, rfl, rfl⟩
  obtain ⟨updated, superseded, hitems, hlabels, hself⟩ := hitems
  obtain ⟨result, hreply, hcommitted, hresult⟩ :=
    teaUpdate_committed hevidence rfl hitems hlabels
  have h := honce
    { control := teaControl
      call := { call with payload := call.payload.withRows rows }
      result := result
      applied := hreply
      committed := hcommitted }
  apply h.notBySelf superseded
  · rw [hresult]
    exact List.mem_cons_of_mem _ List.mem_cons_self
  · exact hself

end Omi.Memory
