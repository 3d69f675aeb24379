import Omi.Memory.ChangesOnce

/-! The content hash of a row against its content and evidence: which applies keep the two
together. A new row is hashed with the evidence ids of its patch, and an update without new text
takes the old hash over, whatever evidence the row then has. -/
namespace Omi.Memory
open Omi.Foundation

/-- The hash of the row is that of its content and its evidence. -/
def MemoryItem.HashesContent (env : MemoryEnv) (item : MemoryItem) : Prop :=
  item.contentHash = some (memoryContentHash env item.content (evidenceIdsOf item.evidence))

/-- The hashes of all rows are those of their content and evidence. -/
def RowsHashed (env : MemoryEnv) (items : Table MemoryItem) : Prop :=
  ∀ memoryId row, items.get memoryId = some row → row.HashesContent env

structure HashedBook (env : MemoryEnv) extends MemoryBook where
  hashed : RowsHashed env items

/-- The evidence ids that a payload brings: those of its records, or else those of its patch. -/
def PatchPayload.evidenceIds (payload : PatchPayload) : List String :=
  if payload.evidence.isEmpty then payload.patch.evidenceIds
  else evidenceIdsOf (payload.evidence.map (·.record))

/-- Two lists of evidence ids are the same, in their order, unless the digests of different ones
happen to be equal. -/
def SameEvidence (env : MemoryEnv) (content : Option String) (ids ids' : List String) : Prop :=
  ids = ids' ∨ (ids ≠ ids' ∧ memoryContentHash env content ids = memoryContentHash env content ids')

/-- The call leaves the evidence that is hashed: an update without new text brings that of its row
or none, and what a new row is built from is what its patch names. -/
structure KeepsHashedEvidence (env : MemoryEnv) (book : MemoryBook) (call : ApplyCall) : Prop where
  update : call.payload.patch.decision = .update →
    saysNothing call.payload.patch.memoryText = true →
      ∀ existing ∈ call.payload.patch.targetMemoryId.bind book.items.get,
        call.payload.evidenceIds = [] ∨
          SameEvidence env existing.content call.payload.evidenceIds
            (evidenceIdsOf existing.evidence)
  build : call.payload.patch.decision ≠ .skipDuplicate → call.payload.patch.decision ≠ .update →
    SameEvidence env call.payload.patch.memoryText call.payload.evidenceIds
      call.payload.patch.evidenceIds

section
variable {env : MemoryEnv} {control : MemoryControlState} {operation : MemoryOperation}
  {payload : PatchPayload} {clock : ApplyClock} {flag : Bool} {evidence : List MemoryEvidence}
  {point : CommitPoint} {now : ℤ} {item existing : MemoryItem} {content : Option String}
  {ids ids' : List String}

theorem sameEvidence_iff : SameEvidence env content ids ids' ↔
    memoryContentHash env content ids = memoryContentHash env content ids' := by
  constructor
  · rintro (rfl | ⟨-, hhash⟩)
    · rfl
    · exact hhash
  · intro hhash
    by_cases hids : ids = ids'
    · exact .inl hids
    · exact .inr ⟨hids, hhash⟩

/-- The records an apply works with have the ids that its payload brings. -/
theorem evidenceIdsOf_proposed (h : proposedEvidence payload = .ok evidence) :
    evidenceIdsOf evidence = payload.evidenceIds := by
  unfold proposedEvidence at h
  rw [PatchPayload.evidenceIds]
  split_ifs at h ⊢ with hnone
  · have hids : List.Forall₂ (fun evidenceId (record : MemoryEvidence) =>
        record.evidenceId = evidenceId) payload.patch.evidenceIds evidence := by
      apply (mapM_eq_ok_iff.mp h).imp
      intro evidenceId record hmade
      dsimp only at hmade
      split_ifs at hmade
      cases hmade
      rfl
    have hmap : List.Forall₂ (· = ·) (evidenceIdsOf evidence) payload.patch.evidenceIds :=
      List.forall₂_map_left_iff.mpr hids.flip
    rw [List.forall₂_eq_eq_eq] at hmap
    exact hmap
  · cases h
    rfl

/-! ### The rows of a commit -/

/-- The copy of a hashed row is hashed exactly if it has new text or the evidence of the row. -/
theorem updated_hashesContent_iff (hrow : existing.HashesContent env) :
    (updatedMemoryItem env existing payload evidence point now).HashesContent env ↔
      (saysNothing payload.patch.memoryText = true → evidenceIdsOf evidence = [] ∨
        SameEvidence env existing.content (evidenceIdsOf evidence)
          (evidenceIdsOf existing.evidence)) := by
  rw [MemoryItem.HashesContent, updatedMemoryItem_contentHash, updatedMemoryItem_content,
    updatedMemoryItem_evidence, resolvedUpdateContent]
  by_cases hblank : saysNothing payload.patch.memoryText = true
  · rw [if_pos hblank, if_pos hblank, hrow, Option.some_inj, sameEvidence_iff]
    by_cases hnone : evidence = []
    · simp [hnone, evidenceOr, evidenceIdsOf]
    · have hsome : evidenceOr evidence existing = evidence :=
        if_neg (by rwa [List.isEmpty_iff])
      have hids : evidenceIdsOf evidence ≠ [] := by simpa [evidenceIdsOf] using hnone
      rw [hsome, eq_comm]
      simp [hblank, hids]
  · rw [if_neg hblank, if_neg hblank]
    simp [hblank]

theorem materialized_hashesContent_iff
    (h : materializeMemoryItem env control operation payload evidence point now = .ok item) :
    item.HashesContent env ↔
      SameEvidence env payload.patch.memoryText (evidenceIdsOf evidence)
        payload.patch.evidenceIds := by
  obtain ⟨-, -, -, hcontent, hevidence, hhash⟩ := materializeMemoryItem_fresh h
  rw [MemoryItem.HashesContent, hcontent, hevidence, hhash, Option.some_inj, sameEvidence_iff,
    eq_comm]

end

/-! ### Runs -/

/-- The committed rows of a reply have the hashes of their content and evidence. -/
def CommitsHashed (env : MemoryEnv) (reply : Except String ApplyResult) : Prop :=
  ∀ result ∈ committedReply reply, ∀ item ∈ result.memoryItems, item.HashesContent env

section
variable {env : MemoryEnv} {book : MemoryBook} {call : ApplyCall} {result : ApplyResult}
  {items : Table MemoryItem}

theorem mem_withRows {row : MemoryItem}
    (h : row ∈ (call.payload.withRows items).supersededItems.getD []) :
    ∃ memoryId, items.get memoryId = some row := by
  rw [PatchPayload.withRows] at h
  dsimp only at h
  split_ifs at h
  · cases h
  · obtain ⟨memoryId, -, hrow⟩ := List.mem_filterMap.mp h
    exact ⟨memoryId, hrow⟩

/-- The rows of a commit over hashed rows are hashed exactly if the call keeps the evidence that is
hashed. -/
theorem commit_hashed_iff (hrows : RowsHashed env book.items)
    (hrun : runApply env book.control call.operation (call.payload.withRows book.items) call.clock
      call.allowTriggerFeedbackArguments = .ok result) :
    (∀ item ∈ result.memoryItems, item.HashesContent env) ↔
      KeepsHashedEvidence env book call := by
  obtain ⟨evidence, hproposed, -, -, ⟨hskip, hcommit⟩ |
    ⟨hskip, rows, assertions, hitems, hcommit⟩⟩ := runApply_ok hrun
  · rw [PatchPayload.withRows_patch] at hskip
    rw [(commitResult_ok hcommit).2.2.1]
    constructor
    · intro _
      constructor <;> simp [hskip]
    · intro _ item hitem
      cases hitem
  · rw [PatchPayload.withRows_patch] at hskip
    have hids : evidenceIdsOf evidence = call.payload.evidenceIds := evidenceIdsOf_proposed hproposed
    obtain ⟨changed, attached, superseded, hchanged, hattached, hsuperseded, rfl⟩ :=
      appliedItems_ok hitems
    have hold : ∀ row ∈ superseded, row.HashesContent env := by
      intro row hrow
      obtain ⟨supersededId, -, existing, hexisting, -, -, -, rfl⟩ :=
        exists_left_of_forall₂ (supersedeItems_ok hsuperseded) hrow
      obtain ⟨memoryId, hfound⟩ := mem_withRows hexisting
      exact hrows memoryId existing hfound
    have hgraph : attached.HashesContent env ↔ changed.1.HashesContent env := by
      obtain ⟨_, _, _, _, _, rfl⟩ := attached_eq hattached
      rfl
    rw [(commitResult_ok hcommit).2.2.1, List.forall_mem_cons, and_iff_left hold, hgraph]
    obtain ⟨hupdate, existing, hcheck, -, hcopy, -⟩ | ⟨hbuilt, hmade, -⟩ := changedItem_ok hchanged
    · have htarget : call.payload.patch.targetMemoryId.bind book.items.get = some existing :=
        (checkUpdate_ok hcheck).1
      have hrow : existing.HashesContent env := by
        obtain ⟨memoryId, -, hfound⟩ := Option.bind_eq_some_iff.mp htarget
        exact hrows memoryId existing hfound
      rw [PatchPayload.withRows_patch] at hupdate
      rw [hcopy, updated_hashesContent_iff hrow, PatchPayload.withRows_patch, hids]
      constructor
      · intro hkept
        refine ⟨fun _ hblank row hfound => ?_, fun _ hother => absurd hupdate hother⟩
        rw [htarget] at hfound
        cases hfound
        exact hkept hblank
      · intro hkept hblank
        exact hkept.update hupdate hblank existing htarget
    · rw [PatchPayload.withRows_patch] at hbuilt
      rw [materialized_hashesContent_iff hmade, PatchPayload.withRows_patch, hids]
      constructor
      · intro hkept
        exact ⟨fun hupdate => absurd hupdate hbuilt, fun _ _ => hkept⟩
      · intro hkept
        exact hkept.build hskip hbuilt

/-- The same of a step, which need not commit. -/
theorem step_hashed_iff (hrows : RowsHashed env book.items) :
    CommitsHashed env (applyReply env book call) ↔
      ((committedReply (applyReply env book call)).isSome = true →
        KeepsHashedEvidence env book call) := by
  rw [CommitsHashed]
  cases hcommitted : committedReply (applyReply env book call) with
  | none => simp
  | some result =>
    obtain ⟨hreply, hstatus⟩ := committedReply_eq_some hcommitted
    have hrun := runApply_of_committed hreply hstatus
    simp [← commit_hashed_iff hrows hrun]

/-- Rows that are hashed stay so where the commit is. -/
theorem step_rowsHashed (hrows : RowsHashed env book.items)
    (hreply : CommitsHashed env (applyReply env book call)) :
    RowsHashed env (applyStep env book call).1.items := by
  cases hcommitted : committedReply (applyReply env book call) with
  | none =>
    rw [applyStep_uncommitted hcommitted]
    exact hrows
  | some result =>
    obtain ⟨happlied, hstatus⟩ := committedReply_eq_some hcommitted
    rw [(applyStep_committed happlied hstatus).2]
    intro memoryId row hrow
    rcases mem_of_get_writeItems hrow with hnew | hkept
    · exact hreply result hcommitted row hnew
    · exact hrows memoryId row hkept

end

/-- In every run from rows that are hashed, all committed rows are so exactly if each call that is
committed keeps the evidence that is hashed. -/
theorem contentHashes_iff (env : MemoryEnv) (start : HashedBook env) (calls : List ApplyCall) :
    (∀ result ∈ commits env start.toMemoryBook calls, ∀ item ∈ result.memoryItems,
        item.HashesContent env) ↔
      EveryStep (fun book call => (applyStep env book call).1)
        (fun book call => (committedReply (applyReply env book call)).isSome = true →
          KeepsHashedEvidence env book call) start.toMemoryBook calls := by
  have hevents : (∀ result ∈ commits env start.toMemoryBook calls, ∀ item ∈ result.memoryItems,
      item.HashesContent env) ↔
      ∀ event ∈ (applies env).trace start.toMemoryBook calls, CommitsHashed env event.2 := by
    simp only [commits, List.mem_filterMap, CommitsHashed]
    constructor
    · intro h event hevent result hresult
      exact h result ⟨event, hevent, hresult⟩
    · rintro h result ⟨event, hevent, hresult⟩
      exact h event hevent result hresult
  rw [hevents]
  apply Machine.forall_trace_iff (I := fun book => RowsHashed env book.items)
  · intro book call hrows
    exact step_hashed_iff hrows
  · intro book call hrows hanswer
    exact step_rowsHashed hrows hanswer
  · exact start.hashed

/-! ### An update that brings new evidence and no text -/

/-- Digests that tell only whether there is an "f" in a text. -/
def markingEnv : MemoryEnv where
  scalars := ⟨fun _ => "", fun _ => ""⟩
  sha256Hex text := String.ofList (List.replicate 64 (if 'f' ∈ text.toList then '1' else '0'))
  length_sha256Hex := by simp
  hex_sha256Hex := by
    intro text c hc
    rw [String.toList_ofList] at hc
    rw [List.eq_of_mem_replicate hc]
    split_ifs <;> decide
  lower := id
  lower_eq_self := fun _ _ _ => rfl
  casefold := id
  nfkc := id
  isoformat := fun _ => ""
  fromIsoformat := fun _ => none
  intText := fun _ => none
  laxMoment := fun _ => none
  laxBool := fun _ => none

/-- An update that replaces the evidence of a row and brings no text leaves the row with the hash of
the evidence it had, under any digests that tell the two apart. -/
theorem stale_of_hashes_ne {env : MemoryEnv}
    (hne : memoryContentHash env (some "tea") ["f"] ≠ memoryContentHash env (some "tea") ["e"]) :
    ∃ (start : HashedBook env) (calls : List ApplyCall),
      ∃ result ∈ commits env start.toMemoryBook calls, ∃ item ∈ result.memoryItems,
        ¬ item.HashesContent env := by
  let row : MemoryItem :=
    { teaRow "a" .shortTerm (some 2) with
      contentHash := some (memoryContentHash env (some "tea") ["e"]) }
  let start : HashedBook env :=
    { control := teaControl
      items := [("a", row)]
      hashed := by
        intro memoryId found hfound
        obtain rfl : found = row := by
          have hmem := Table.mem_of_get hfound
          simpa using (Prod.mk.inj (List.mem_singleton.mp hmem)).2
        rfl }
  let call := teaUpdate env "f" []
  have hevidence : proposedEvidence (call.payload.withRows start.items) =
      .ok [{ teaEvidence with evidenceId := "f", sourceId := some "source_for_f" }] := by
    rfl
  have hitems : ∃ item, appliedItems env teaControl call.operation
      (call.payload.withRows start.items)
      [{ teaEvidence with evidenceId := "f", sourceId := some "source_for_f" }] call.clock false =
        .ok ([item], []) ∧ [item].all (·.labelSet.isSome) = true ∧
          item.contentHash = row.contentHash ∧ item.content = some "tea" ∧
          evidenceIdsOf item.evidence = ["f"] := by
    exact ⟨_, rfl, rfl, rfl, rfl, rfl⟩
  obtain ⟨item, hitems, hlabels, hhash, hcontent, hids⟩ := hitems
  obtain ⟨result, hreply, hcommitted, hresult⟩ :=
    teaUpdate_committed hevidence rfl hitems hlabels
  refine ⟨start, [call], result, ?_, item, ?_, ?_⟩
  · have hfirst : committedReply (applyReply env start.toMemoryBook call) = some result := by
      rw [hreply, committedReply, if_pos hcommitted]
    rw [commits_cons, hfirst]
    exact List.mem_cons_self
  · rw [hresult]
    exact List.mem_singleton_self item
  · rw [MemoryItem.HashesContent, hhash, hcontent, hids]
    intro hsame
    exact hne (Option.some.inj hsame).symm

/-- Not every run from rows that are hashed commits such rows only. -/
theorem not_contentHashes : ¬ ∀ (env : MemoryEnv) (start : HashedBook env)
    (calls : List ApplyCall), ∀ result ∈ commits env start.toMemoryBook calls,
      ∀ item ∈ result.memoryItems, item.HashesContent env := by
  intro hall
  have hne : memoryContentHash markingEnv (some "tea") ["f"] ≠
      memoryContentHash markingEnv (some "tea") ["e"] := by
    decide
  obtain ⟨start, calls, result, hresult, item, hitem, hstale⟩ := stale_of_hashes_ne hne
  exact hstale (hall markingEnv start calls result hresult item hitem)

end Omi.Memory
