import Omi.Memory.RowLog
import Omi.Memory.SourceReplacement

/-! What a replacement relies on once its plan is checked, and the commits that it makes of it. -/
namespace Omi.Memory
open Omi.Foundation

/-- Every row is under its own id. -/
def KeyedRows (items : Table MemoryItem) : Prop :=
  ∀ memoryId item, items.get memoryId = some item → item.memoryId = memoryId

/-- The id of the row that a write adds. -/
def CanonicalApplyWrite.memoryId (write : CanonicalApplyWrite) : String :=
  strip (write.payload.patch.newMemoryId.getD "")

/-- A write is what the planner makes of an extracted memory: it adds a row under the id it names,
and brings no rows of its own. -/
structure CanonicalApplyWrite.Plain (write : CanonicalApplyWrite) : Prop where
  adds : write.payload.patch.decision = .add
  untargeted : present write.payload.patch.targetMemoryId = false
  named : write.payload.patch.newMemoryId = some write.memoryId
  bare : write.payload.supersededItems = none

/-- What the transaction checks of a write by itself: it names an id, and brings evidence from the
next generation of the conversation. -/
structure CanonicalApplyWrite.Checked (store : MemoryStore) (call : ReplacementCall)
    (write : CanonicalApplyWrite) : Prop where
  nonblank : isBlank (write.payload.patch.newMemoryId.getD "") = false
  some_evidence : write.payload.evidence.isEmpty = false
  evidence : ∀ one ∈ write.payload.evidence, one.record.sourceId = some call.conversationId ∧
    one.record.sourceVersion = some (sourceVersionText (store.control.sourceGeneration + 1))

section
variable {env : MemoryEnv} {store : MemoryStore} {call : ReplacementCall} {memoryId : String}
  {item : MemoryItem} {terminalIds sourceIds oldEvidenceIds : List String}
  {staged next : StagedWrites} {write : CanonicalApplyWrite} {generation : ℤ}

/-! ### The rows of the plan -/

theorem readItem_keyed (hkeyed : KeyedRows store.items)
    (hread : readItem env store.items memoryId = .ok (some item)) : item.memoryId = memoryId := by
  obtain ⟨stored, hstored, rfl⟩ := readItem_ok hread
  exact hkeyed memoryId stored hstored

/-- A retracted row is live and from the conversation, as its stored evidence is. -/
theorem sourceRow_ok {source : MemoryItem × List MemoryEvidence}
    (h : sourceRow env store call memoryId = .ok source) :
    readItem env store.items memoryId = .ok (some source.1) ∧ source.1.status ≠ .tombstoned ∧
      itemHasConversationSource source.1 call.conversationId = true := by
  obtain ⟨found, hread, h⟩ := bind_eq_ok_iff.mp h
  cases found with
  | none => cases h
  | some item =>
    simp only [bind_eq_ok_iff, check_eq_ok_iff, Bool.and_eq_true, decide_eq_true_eq] at h
    obtain ⟨_, ⟨⟨⟨⟨-, hlive⟩, -⟩, -⟩, hsource⟩, evidence, -, hresult⟩ := h
    cases hresult
    exact ⟨hread, hlive, hsource⟩

/-- A row that may come back is superseded, and not from the conversation. -/
theorem lineageRow_ok (h : lineageRow env store call terminalIds memoryId = .ok item) :
    readItem env store.items memoryId = .ok (some item) ∧ item.status = .superseded ∧
      itemHasConversationSource item call.conversationId = false := by
  obtain ⟨found, hread, h⟩ := bind_eq_ok_iff.mp h
  cases found with
  | none => cases h
  | some found =>
    simp only [bind_eq_ok_iff, check_eq_ok_iff, Bool.and_eq_true, decide_eq_true_eq,
      Bool.not_eq_true'] at h
    obtain ⟨_, ⟨⟨⟨⟨⟨⟨-, hsuperseded⟩, -⟩, -⟩, -⟩, hother⟩, -⟩, _, -, hresult⟩ := h
    cases hresult
    exact ⟨hread, hsuperseded, hother⟩

/-! ### The writes of the plan -/

/-- The ids of the writes are distinct, and the row under each that is not retracted is known, and
was the conversation's. -/
structure StagedWrites.Sound (env : MemoryEnv) (store : MemoryStore) (call : ReplacementCall)
    (sourceIds : List String) (staged : StagedWrites) : Prop where
  distinct : staged.memoryIds.Nodup
  found : ∀ memoryId ∈ staged.memoryIds, memoryId ∉ sourceIds →
    readItem env store.items memoryId = .ok (staged.priorItems.get memoryId) ∧
      ∀ prior ∈ staged.priorItems.get memoryId,
        itemHasConversationSource prior call.conversationId = true
  others : ∀ memoryId, memoryId ∉ staged.memoryIds → staged.priorItems.get memoryId = none

theorem stageEvidence_ok {evidence : EvidenceObject}
    (h : stageEvidence call oldEvidenceIds generation staged evidence = .ok next) :
    next.memoryIds = staged.memoryIds ∧ next.priorItems = staged.priorItems ∧
      evidence.record.sourceId = some call.conversationId ∧
      evidence.record.sourceVersion = some (sourceVersionText generation) := by
  simp only [stageEvidence, bind_eq_ok_iff, check_eq_ok_iff, Bool.and_eq_true,
    decide_eq_true_eq] at h
  obtain ⟨_, ⟨⟨⟨⟨-, hsource⟩, -⟩, hversion⟩, -⟩, _, -, hresult⟩ := h
  cases hresult
  exact ⟨rfl, rfl, hsource, hversion⟩

theorem stageEvidences_ok {evidence : List EvidenceObject}
    (h : evidence.foldlM (stageEvidence call oldEvidenceIds generation) staged = .ok next) :
    next.memoryIds = staged.memoryIds ∧ next.priorItems = staged.priorItems ∧
      ∀ one ∈ evidence, one.record.sourceId = some call.conversationId ∧
        one.record.sourceVersion = some (sourceVersionText generation) := by
  induction evidence generalizing staged with
  | nil =>
    cases h
    exact ⟨rfl, rfl, by simp⟩
  | cons first rest ih =>
    rw [List.foldlM_cons] at h
    obtain ⟨mid, hfirst, hrest⟩ := bind_eq_ok_iff.mp h
    obtain ⟨hids, hpriors, hsource⟩ := stageEvidence_ok hfirst
    obtain ⟨hids', hpriors', hsources⟩ := ih hrest
    exact ⟨hids'.trans hids, hpriors'.trans hpriors, List.forall_mem_cons.mpr ⟨hsource, hsources⟩⟩

theorem stagePrior_ok (h : stagePrior env store call staged memoryId = .ok next) :
    ∃ prior, readItem env store.items memoryId = .ok prior ∧
      next.memoryIds = staged.memoryIds ∧
      (prior = none ∧ next.priorItems = staged.priorItems ∨
        ∃ item, prior = some item ∧ itemHasConversationSource item call.conversationId = true ∧
          next.priorItems = staged.priorItems.set memoryId item) := by
  simp only [stagePrior, bind_eq_ok_iff, check_eq_ok_iff] at h
  obtain ⟨mid, hmid, _, -, hresult⟩ := h
  cases hresult
  obtain ⟨prior, hread, hmid⟩ := bind_eq_ok_iff.mp hmid
  cases prior with
  | none =>
    cases hmid
    exact ⟨none, hread, rfl, .inl ⟨rfl, rfl⟩⟩
  | some item =>
    simp only [bind_eq_ok_iff, check_eq_ok_iff, Bool.and_eq_true] at hmid
    obtain ⟨_, ⟨⟨-, hsource⟩, -⟩, hresult⟩ := hmid
    cases hresult
    exact ⟨some item, hread, rfl, .inr ⟨item, rfl, hsource, rfl⟩⟩

/-- Staging a write adds its id, and learns the row that is under it. -/
theorem stageWrite_ok (hsound : staged.Sound env store call sourceIds)
    (h : stageWrite env store call sourceIds oldEvidenceIds staged write = .ok next) :
    next.memoryIds = staged.memoryIds ++ [write.memoryId] ∧
      next.Sound env store call sourceIds ∧ write.Checked store call := by
  simp only [stageWrite, bind_eq_ok_iff, check_eq_ok_iff, Bool.not_eq_true'] at h
  obtain ⟨_, -, _, -, _, hnonblank, _, hnew, mid, hmid, _, hsome, hevidence⟩ := h
  have hnew : write.memoryId ∉ staged.memoryIds := of_decide_eq_true hnew
  obtain ⟨hids, hpriors, hsources⟩ := stageEvidences_ok hevidence
  have hdistinct : (staged.memoryIds ++ [write.memoryId]).Nodup :=
    hsound.distinct.append (List.nodup_singleton _) (by simpa using hnew)
  have hcases : ∀ memoryId, memoryId ∈ staged.memoryIds ++ [write.memoryId] →
      memoryId ∈ staged.memoryIds ∨ memoryId = write.memoryId := by
    intro memoryId hmem
    simpa using hmem
  -- what is known of the ids before stays so, as the new one is another
  suffices hnext : mid.memoryIds = staged.memoryIds ++ [write.memoryId] ∧
      mid.Sound env store call sourceIds by
    refine ⟨hids.trans hnext.1, ⟨?_, ?_, ?_⟩, hnonblank, hsome, hsources⟩
    · rw [hids]
      exact hnext.2.distinct
    · rw [hids, hpriors]
      exact hnext.2.found
    · rw [hids, hpriors]
      exact hnext.2.others
  unfold stageMemoryId at hmid
  split_ifs at hmid with hsource
  · cases hmid
    refine ⟨rfl, hdistinct, ?_, ?_⟩
    · intro memoryId hmem houtside
      rcases hcases memoryId hmem with hold | rfl
      · exact hsound.found memoryId hold houtside
      · exact absurd hsource houtside
    · intro memoryId hmem
      exact hsound.others memoryId fun hold => hmem (List.mem_append_left _ hold)
  · obtain ⟨prior, hread, hids, hprior⟩ := stagePrior_ok hmid
    refine ⟨hids, ?_, ?_, ?_⟩
    · rw [hids]
      exact hdistinct
    · intro memoryId hmem houtside
      rw [hids] at hmem
      obtain ⟨rfl, hsame⟩ | ⟨item, rfl, hconversation, hset⟩ := hprior
      · rw [hsame]
        rcases hcases memoryId hmem with hold | rfl
        · exact hsound.found memoryId hold houtside
        · have hnone : staged.priorItems.get write.memoryId = none := hsound.others _ hnew
          refine ⟨hread.trans (congrArg _ hnone.symm), fun prior hprior => ?_⟩
          rw [hnone] at hprior
          cases hprior
      · rw [hset, Table.get_set]
        by_cases hid : memoryId = strip (write.payload.patch.newMemoryId.getD "")
        · rw [if_pos hid, hid]
          refine ⟨hread, fun prior hprior => ?_⟩
          obtain rfl := Option.some.inj hprior
          exact hconversation
        · rw [if_neg hid]
          rcases hcases memoryId hmem with hold | hsame
          · exact hsound.found memoryId hold houtside
          · exact absurd hsame hid
    · intro memoryId hmem
      rw [hids, List.mem_append, not_or, List.mem_singleton] at hmem
      obtain ⟨hold, hother⟩ := hmem
      obtain ⟨-, hsame⟩ | ⟨item, -, -, hset⟩ := hprior
      · rw [hsame]
        exact hsound.others memoryId hold
      · rw [hset, Table.get_set, if_neg hother]
        exact hsound.others memoryId hold

theorem stageWrites_ok {writes : List CanonicalApplyWrite}
    (hsound : staged.Sound env store call sourceIds)
    (h : writes.foldlM (stageWrite env store call sourceIds oldEvidenceIds) staged = .ok next) :
    next.memoryIds = staged.memoryIds ++ writes.map (·.memoryId) ∧
      next.Sound env store call sourceIds ∧ ∀ write ∈ writes, write.Checked store call := by
  induction writes generalizing staged with
  | nil =>
    cases h
    exact ⟨by simp, hsound, by simp⟩
  | cons write writes ih =>
    rw [List.foldlM_cons] at h
    obtain ⟨mid, hfirst, hrest⟩ := bind_eq_ok_iff.mp h
    obtain ⟨hids, hmid, hchecked⟩ := stageWrite_ok hsound hfirst
    obtain ⟨hids', hnext, hrest⟩ := ih hmid hrest
    refine ⟨?_, hnext, List.forall_mem_cons.mpr ⟨hchecked, hrest⟩⟩
    rw [hids', hids, List.append_assoc]
    rfl

/-- What a checked plan says of the rows it was made from. -/
structure ReplacementPlan.Sound (env : MemoryEnv) (store : MemoryStore) (call : ReplacementCall)
    (plan : ReplacementPlan) : Prop where
  sourceIds : ∀ memoryId, memoryId ∈ plan.sourceIds ↔
    memoryId ∈ call.expectedSourceItems.map (·.memoryId)
  sources : ∀ source ∈ plan.sources,
    readItem env store.items source.1.memoryId = .ok (some source.1) ∧
      source.1.status ≠ .tombstoned ∧
      itemHasConversationSource source.1 call.conversationId = true
  lineage : ∀ item ∈ plan.lineage,
    readItem env store.items item.memoryId = .ok (some item) ∧ item.status = .superseded ∧
      itemHasConversationSource item call.conversationId = false ∧
      item.memoryId ∉ plan.sourceIds
  lineageIds : ∀ item ∈ plan.lineage,
    item.memoryId ∈ call.expectedReactivationItems.map (·.memoryId)
  lineageDistinct : (plan.lineage.map (·.memoryId)).Nodup
  memoryIds : plan.staged.memoryIds = call.writes.map (·.memoryId)
  staged : plan.staged.Sound env store call plan.sourceIds
  checked : ∀ write ∈ call.writes, write.Checked store call

/-- Rows that are read under some ids have these ids. -/
theorem ids_of_forall₂ {β : Type} {read : String → Except String β} {memoryIdOf : β → String}
    {ids : List String} {rows : List β}
    (h : List.Forall₂ (fun memoryId row => read memoryId = .ok row) ids rows)
    (hid : ∀ memoryId row, read memoryId = .ok row → memoryIdOf row = memoryId) :
    rows.map memoryIdOf = ids := by
  induction h with
  | nil => rfl
  | @cons memoryId row ids rows hfirst _ ih => rw [List.map_cons, ih, hid memoryId row hfirst]

theorem mem_sortedIds {ids : List String} : memoryId ∈ sortedIds ids ↔ memoryId ∈ ids := by
  simp [sortedIds]

theorem planReplacement_ok {plan : ReplacementPlan} (hkeyed : KeyedRows store.items)
    (h : planReplacement env store call = .ok plan) : plan.Sound env store call := by
  simp only [planReplacement, bind_eq_ok_iff, check_eq_ok_iff, mapM_eq_ok_iff] at h
  obtain ⟨_, -, sources, hsources, _, -, _, hapart, lineage, hlineage, staged, hstaged, _, -,
    hresult⟩ := h
  cases hresult
  have hsourceIds : sources.map (·.1.memoryId) =
      sortedIds (call.expectedSourceItems.map (·.memoryId)) :=
    ids_of_forall₂ hsources fun memoryId source hsource =>
      readItem_keyed hkeyed (sourceRow_ok hsource).1
  have hlineageIds : lineage.map (·.memoryId) =
      sortedIds (call.expectedReactivationItems.map (·.memoryId)) :=
    ids_of_forall₂ hlineage fun memoryId item hitem =>
      readItem_keyed hkeyed (lineageRow_ok hitem).1
  have hids : ∀ memoryId, memoryId ∈ sources.map (·.1.memoryId) ↔
      memoryId ∈ call.expectedSourceItems.map (·.memoryId) := by
    intro memoryId
    rw [hsourceIds, mem_sortedIds]
  have hempty : StagedWrites.Sound env store call
      (call.expectedSourceItems.map (·.memoryId)) {} := by
    constructor <;> simp [Table.get]
  obtain ⟨hmemoryIds, hsound, hchecked⟩ := stageWrites_ok hempty hstaged
  refine ⟨hids, ?_, ?_, ?_, ?_, hmemoryIds, ?_, hchecked⟩
  · intro source hmem
    obtain ⟨memoryId, -, hsource⟩ := exists_left_of_forall₂ hsources hmem
    obtain ⟨hread, hlive, hconversation⟩ := sourceRow_ok hsource
    rw [readItem_keyed hkeyed hread]
    exact ⟨hread, hlive, hconversation⟩
  · intro item hmem
    obtain ⟨memoryId, hid, hitem⟩ := exists_left_of_forall₂ hlineage hmem
    obtain ⟨hread, hsuperseded, hother⟩ := lineageRow_ok hitem
    rw [readItem_keyed hkeyed hread]
    refine ⟨hread, hsuperseded, hother, fun hsource => ?_⟩
    have hfresh := (List.all_eq_true.mp hapart) memoryId (mem_sortedIds.mp hid)
    rw [decide_eq_true_eq] at hfresh
    exact hfresh ((hids memoryId).mp hsource)
  · intro item hmem
    have hlisted : item.memoryId ∈ lineage.map (·.memoryId) := List.mem_map_of_mem hmem
    rw [hlineageIds] at hlisted
    exact mem_sortedIds.mp hlisted
  · rw [hlineageIds, sortedIds]
    exact (List.perm_insertionSort _ _).nodup_iff.mpr (List.nodup_dedup _)
  · refine ⟨hsound.distinct, fun memoryId hmem houtside => ?_, hsound.others⟩
    exact hsound.found memoryId hmem fun hsource => houtside ((hids memoryId).mpr hsource)

end

end Omi.Memory
