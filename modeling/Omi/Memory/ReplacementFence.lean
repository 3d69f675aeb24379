import Omi.Memory.Retraction

/-! The graph through replacements: the rows that a replacement retracts lose their assertion with
it, and those that it brings back have one of their new revision, so that the fence between rows and
assertions is kept in every run of all that writes memory rows. -/
namespace Omi.Memory
open Omi.Foundation

section
variable {env : MemoryEnv} {plan : ReplacementPlan} {control : MemoryControlState}
  {store next : MemoryStore} {call : ReplacementCall} {commits : ReplacementCommits}
  {replacement : ApplyResult} {back : List (MemoryItem × MemoryGraphAssertion)}
  {added results : List ApplyResult} {memoryId : String} {row item : MemoryItem}
  {writes : List CanonicalApplyWrite}

/-! ### The rows that are retracted -/

theorem StoreSound.retract (h : StoreSound store) (hstatus : row.status = .tombstoned)
    (htrimmed : row.Trimmed) : StoreSound (store.retract row) := by
  refine ⟨⟨?_, ?_⟩, ?_, ?_⟩
  · intro memoryId assertion hassertion
    simp only [MemoryStore.retract, Table.get_erase, Table.get_set] at hassertion ⊢
    split_ifs at hassertion ⊢
    exact h.owned memoryId assertion hassertion
  all_goals
    intro memoryId item hitem
    simp only [MemoryStore.retract, Table.get_set] at hitem
    split_ifs at hitem with hid
  · obtain rfl := Option.some.inj hitem
    rw [RowFenced, if_pos hstatus]
    simp [MemoryStore.retract, hid]
  · simp only [MemoryStore.retract, Table.get_erase, if_neg hid]
    exact h.rows memoryId item hitem
  · obtain rfl := Option.some.inj hitem
    exact hid.symm
  · exact h.keyed memoryId item hitem
  · obtain rfl := Option.some.inj hitem
    exact htrimmed
  · exact h.trimmed memoryId item hitem

theorem StoreSound.retracts {rows : List MemoryItem} (h : StoreSound store)
    (hrows : ∀ row ∈ rows, row.status = .tombstoned ∧ row.Trimmed) :
    StoreSound (rows.foldl MemoryStore.retract store) := by
  induction rows generalizing store with
  | nil => exact h
  | cons row rows ih =>
    obtain ⟨⟨hstatus, htrimmed⟩, hrest⟩ := List.forall_mem_cons.mp hrows
    exact ih (h.retract hstatus htrimmed) hrest

/-! ### The rows that come back, and those of the writes -/

/-- What every planner keeps of a replacement and the transaction does not check: its writes are
those of extracted memories, and it brings rows back under trimmed ids. -/
structure ReplacementCall.KeepsGraph (call : ReplacementCall) : Prop where
  plain : ∀ write ∈ call.writes, write.Plain
  trimmed : ∀ item ∈ call.expectedReactivationItems, strip item.memoryId = item.memoryId

theorem ids_of_reactivated {point : CommitPoint} {accountGeneration now : ℤ}
    {lineage : List MemoryItem} (h : List.Forall₂ (fun item pair =>
      reactivateLineageItem env point accountGeneration now item = .ok pair) lineage back) :
    back.map (·.1.memoryId) = lineage.map (·.memoryId) := by
  induction h with
  | nil => rfl
  | cons hfirst _ ih => rw [List.map_cons, List.map_cons, ih, (reactivateLineageItem_ok hfirst).1]

/-- The rows that come back each find their own assertion. -/
theorem ReplacementCommits.Made.back_writesFenced
    (hmade : commits.Made env store call plan replacement back added)
    (hsound : plan.Sound env store call) (hstore : StoreSound store)
    (htrimmed : ∀ item ∈ call.expectedReactivationItems, strip item.memoryId = item.memoryId) :
    ∀ row ∈ replacement.memoryItems, WritesFenced replacement.graphAssertions row := by
  have hback : ∀ pair ∈ back, pair.2.memoryId = pair.1.memoryId ∧
      pair.2.itemRevision = pair.1.itemRevision ∧ pair.1.status = .active ∧
      pair.1.graphReady = true ∧ pair.1.contentHash = some pair.2.contentHash ∧
      pair.1.Trimmed := by
    intro pair hpair
    obtain ⟨item, hitem, hmadeBack⟩ := exists_left_of_forall₂ hmade.reactivated hpair
    have hlineage := (List.mem_filter.mp hitem).1
    obtain ⟨expected, hexpected, hsame⟩ := List.mem_map.mp (hsound.lineageIds item hlineage)
    have hid := htrimmed expected hexpected
    rw [hsame] at hid
    have hread := hstore.readItem_trimmed (hsound.lineage item hlineage).1
    obtain ⟨hrow, hrevision, -, -, hactive, hready, hcontent, hassertion, hnext, contentHash,
      hhash, hsaid⟩ := reactivateLineageItem_ok hmadeBack
    rw [hread.contentHash contentHash hhash] at hsaid
    refine ⟨?_, ?_, hactive, hready, ?_, ?_, ?_⟩
    · rw [hassertion, hid, hrow]
    · rw [hnext, hrevision]
    · rw [hcontent, hhash, hsaid]
    · rw [hcontent]
      exact hread.contentHash
    · rw [hrow]
      exact fun _ => hid
  have hdistinct : (back.map (·.1.memoryId)).Nodup := by
    rw [ids_of_reactivated hmade.reactivated]
    exact hsound.lineageDistinct.sublist (List.filter_sublist.map _)
  intro row hrow
  rw [hmade.items] at hrow
  obtain ⟨pair, hpair, rfl⟩ := List.mem_map.mp hrow
  obtain ⟨hid, hrevision, hactive, hready, hcontent, hrow⟩ := hback pair hpair
  refine writesFenced_inside hrow ?_ hactive hready hrevision hcontent
  rw [hmade.assertions, matchingAssertion]
  cases hfound : (back.map Prod.snd).find? (·.memoryId = pair.1.memoryId) with
  | none =>
    have hnone := List.find?_eq_none.mp hfound pair.2 (List.mem_map_of_mem hpair)
    exact absurd (decide_eq_true hid) hnone
  | some assertion =>
    obtain ⟨other, hother, rfl⟩ := List.mem_map.mp (List.mem_of_find?_eq_some hfound)
    have hsame : other.2.memoryId = pair.1.memoryId := by
      have hkey := List.find?_some hfound
      simpa using hkey
    rw [(hback other hother).1] at hsame
    rw [List.inj_on_of_nodup_map hdistinct hother hpair hsame]

/-- The rows of the writes are written one after another, without an assertion. -/
theorem AddedInTurn.sound (h : StoreSound store) (hturn : AddedInTurn plan control writes results) :
    StoreSound (results.foldl MemoryStore.writeApplyResult store) := by
  induction writes generalizing store control results with
  | nil =>
    obtain rfl : results = [] := hturn
    exact h
  | cons write writes ih =>
    obtain ⟨result, rest, rfl, hstatus, hnone, -, ⟨row, hrow⟩, hrest⟩ := hturn
    have htrimmed : row.Trimmed := by
      constructor
      · exact hrow.trimmed
      · intro hready
        rw [hrow.outside] at hready
        cases hready
    have hwritten : StoreSound (store.writeApplyResult result) := by
      refine h.writeApplyResult fun _ => (h.withControl _).writeItems ?_
      rw [hrow.only, hnone, List.forall_mem_singleton]
      exact writesFenced_outside htrimmed rfl (by simp [hrow.active]) fun _ => hrow.outside
    rw [List.foldl_cons]
    exact ih hwritten hrest

/-- A replacement keeps the fence. -/
theorem replaceConversationSource_sound {result : ConversationSourceReplacementResult}
    (h : StoreSound store) (hkept : call.KeepsGraph)
    (hrun : replaceConversationSource env store call = .ok (next, result, results)) :
    StoreSound next := by
  obtain ⟨rfl, -⟩ | ⟨plan, commits, replacement, back, added, -, hsound, hmade, -, rfl, -⟩ :=
    replaceConversationSource_ok h.keyed hkept.plain hrun
  · exact h
  rw [MemoryStore.writeReplacement, hmade.results, List.foldl_cons]
  have hretracted : StoreSound ((commits.retracted.filter
      (·.memoryId ∉ plan.staged.memoryIds)).foldl MemoryStore.retract store) := by
    refine h.retracts fun row hrow => ?_
    have hmem := (List.mem_filter.mp hrow).1
    rw [hmade.retracted] at hmem
    obtain ⟨source, -, rfl⟩ := List.mem_map.mp hmem
    exact ⟨rfl, by simp [retractedItem, privacyTombstonedMemoryItem],
      by simp [retractedItem, privacyTombstonedMemoryItem]⟩
  refine hmade.added.sound (hretracted.writeApplyResult fun _ => ?_)
  refine (hretracted.withControl _).writeItems ?_
  exact hmade.back_writesFenced hsound h hkept.trimmed

/-! ### The assertions that are deleted -/

theorem get_writeApplyResult_assertions {result : ApplyResult} (hstatus : result.status = .committed)
    (houtside : memoryId ∉ result.memoryItems.map (·.memoryId)) :
    (store.writeApplyResult result).assertions.get memoryId = store.assertions.get memoryId := by
  rw [MemoryStore.writeApplyResult, if_neg (not_not.mpr hstatus)]
  have hrows : ∀ (rows : List MemoryItem) (store : MemoryStore),
      memoryId ∉ rows.map (·.memoryId) →
        (rows.foldl (MemoryStore.writeItem result.graphAssertions) store).assertions.get memoryId =
          store.assertions.get memoryId := by
    intro rows
    induction rows with
    | nil => exact fun _ _ => rfl
    | cons row rows ih =>
      intro store hnot
      rw [List.map_cons, List.mem_cons, not_or] at hnot
      rw [List.foldl_cons, ih _ hnot.2, get_writeItem_assertions, if_neg hnot.1]
  exact hrows _ _ houtside

/-- The rows of the writes have no assertion, and the others keep theirs. -/
theorem AddedInTurn.assertions (hturn : AddedInTurn plan control writes results)
    (store : MemoryStore) :
    (results.foldl MemoryStore.writeApplyResult store).assertions.get memoryId =
      if memoryId ∈ writes.map (·.memoryId) then none else store.assertions.get memoryId := by
  induction writes generalizing store control results with
  | nil =>
    obtain rfl : results = [] := hturn
    simp
  | cons write writes ih =>
    obtain ⟨result, rest, rfl, hstatus, hnone, -, ⟨row, hrow⟩, hrest⟩ := hturn
    rw [List.foldl_cons, ih hrest, List.map_cons]
    by_cases hlater : memoryId ∈ writes.map (·.memoryId)
    · simp [hlater]
    rw [if_neg hlater]
    by_cases hid : memoryId = write.memoryId
    · rw [if_pos (by simp [hid]), MemoryStore.writeApplyResult, if_neg (not_not.mpr hstatus),
        hrow.only, List.foldl_cons, List.foldl_nil, get_writeItem_assertions,
        if_pos (hid.trans hrow.memoryId.symm), hnone]
      simp [documentAfter, matchingAssertion, hrow.active, hrow.outside]
    · rw [if_neg (by simp [hid, hlater]), get_writeApplyResult_assertions hstatus]
      rw [hrow.only, List.map_singleton, List.mem_singleton, hrow.memoryId]
      exact hid

theorem get_retracts_assertions (rows : List MemoryItem) (store : MemoryStore) :
    (rows.foldl MemoryStore.retract store).assertions.get memoryId =
      if memoryId ∈ rows.map (·.memoryId) then none else store.assertions.get memoryId := by
  induction rows generalizing store with
  | nil => simp
  | cons row rows ih =>
    rw [List.foldl_cons, ih, List.map_cons, MemoryStore.retract, Table.get_erase]
    by_cases hlater : memoryId ∈ rows.map (·.memoryId)
    · simp [hlater]
    · by_cases hid : memoryId = row.memoryId <;> simp [hid, hlater]

/-- The rows that a replacement retracts, or writes anew, have no assertion after it. -/
theorem replaceConversationSource_assertions {result : ConversationSourceReplacementResult}
    (hkeyed : KeyedRows store.items) (hplain : ∀ write ∈ call.writes, write.Plain)
    (hrun : replaceConversationSource env store call = .ok (next, result, results))
    (hcommitted : results ≠ [])
    (hmem : memoryId ∈ call.expectedSourceItems.map (·.memoryId) ∨
      memoryId ∈ call.writes.map (·.memoryId)) : next.assertions.get memoryId = none := by
  obtain ⟨-, hnone⟩ | ⟨plan, commits, replacement, back, added, -, hsound, hmade, -, rfl, -⟩ :=
    replaceConversationSource_ok hkeyed hplain hrun
  · exact absurd hnone hcommitted
  rw [MemoryStore.writeReplacement, hmade.results, List.foldl_cons, hmade.added.assertions]
  split_ifs with hnew
  · rfl
  have hsource : memoryId ∈ plan.sourceIds :=
    (hsound.sourceIds memoryId).mpr (hmem.resolve_right hnew)
  have hretracted : memoryId ∈
      (commits.retracted.filter (·.memoryId ∉ plan.staged.memoryIds)).map (·.memoryId) := by
    obtain ⟨source, hmem, hid⟩ := List.mem_map.mp hsource
    refine List.mem_map.mpr ⟨retractedItem call (replacementPoint env store.control call)
      replacement.controlState.accountGeneration source, List.mem_filter.mpr ⟨?_, ?_⟩, hid⟩
    · rw [hmade.retracted]
      exact List.mem_map_of_mem hmem
    · have hsame : (retractedItem call (replacementPoint env store.control call)
          replacement.controlState.accountGeneration source).memoryId = memoryId := hid
      rw [decide_eq_true_eq, hsame, hsound.memoryIds]
      exact hnew
  rw [get_writeApplyResult_assertions hmade.status, get_retracts_assertions, if_pos hretracted]
  -- the rows that come back are others
  intro hback
  rw [hmade.items, List.map_map] at hback
  have hids := ids_of_reactivated hmade.reactivated
  rw [← Function.comp_def MemoryItem.memoryId] at hids
  rw [hids] at hback
  obtain ⟨item, hitem, rfl⟩ := List.mem_map.mp hback
  exact (hsound.lineage item (List.mem_filter.mp hitem).1).2.2.2 hsource

/-! ### Runs -/

/-- A replacement is a replay, or commits. -/
theorem replaceConversationSource_commits {result : ConversationSourceReplacementResult}
    (hrun : replaceConversationSource env store call = .ok (next, result, results)) :
    (next = store ∧ results = []) ∨
      ∃ first rest, results = first :: rest ∧ first.status = .committed := by
  simp only [replaceConversationSource, bind_eq_ok_iff] at hrun
  obtain ⟨_, -, replay, -, hrun⟩ := hrun
  cases replay with
  | some replay =>
    cases hrun
    exact .inl ⟨rfl, rfl⟩
  | none =>
    simp only [bind_eq_ok_iff] at hrun
    obtain ⟨_, -, plan, -, commits, hcommits, hresult⟩ := hrun
    cases hresult
    simp only [replacementCommits, bind_eq_ok_iff] at hcommits
    obtain ⟨results, -, back, -, committed, -, _, -, hmade⟩ := hcommits
    cases hmade
    exact .inr ⟨_, results, rfl, rfl⟩

/-- A call keeps the bookkeeping of the graph. -/
def RowCall.KeepsGraph (env : MemoryEnv) (store : MemoryStore) : RowCall → Prop
  | .memory call => call.KeepsGraph env store
  | .replace call => call.KeepsGraph
  | .bump _ => True

/-- The call is answered with a commit. -/
def RowCall.Commits (env : MemoryEnv) (store : MemoryStore) (call : RowCall) : Prop :=
  ∃ results result, (rowStep env store call).2 = .ok results ∧ result ∈ results ∧
    result.status = .committed

theorem rowStep_sound {call : RowCall} (h : StoreSound store)
    (hkept : call.Commits env store → call.KeepsGraph env store) :
    StoreSound (rowStep env store call).1 := by
  unfold RowCall.Commits rowStep at hkept
  unfold rowStep
  cases hrun : rowTransaction env store call with
  | error message => exact h
  | ok answer =>
    obtain ⟨next, results⟩ := answer
    rw [hrun] at hkept
    cases call with
    | memory call =>
      obtain ⟨⟨next', result⟩, hcall, hanswer⟩ := map_eq_ok hrun
      cases hanswer
      cases call with
      | tombstone call => exact tombstoneTransaction_sound h hcall
      | apply call =>
        refine applyPatchTransaction_sound h hcall fun hstatus => hkept ?_
        exact ⟨[result], result, rfl, List.mem_singleton_self result, hstatus⟩
    | replace call =>
      obtain ⟨⟨next', result, results'⟩, hcall, hanswer⟩ := map_eq_ok hrun
      cases hanswer
      obtain ⟨rfl, -⟩ | ⟨first, rest, rfl, hstatus⟩ := replaceConversationSource_commits hcall
      · exact h
      · refine replaceConversationSource_sound h (hkept ?_) hcall
        exact ⟨first :: rest, first, rfl, List.mem_cons_self, hstatus⟩
    | bump now =>
      obtain ⟨next', hcall, hanswer⟩ := map_eq_ok hrun
      cases hanswer
      obtain ⟨_, -, hresult⟩ := bind_eq_ok_iff.mp hcall
      cases hresult
      exact h.withControl _

/-- In every run from a store without rows, of applies, privacy tombstones, conversation
replacements and generation bumps in any order, the rows and their graph assertions stay fenced, if
the committed calls keep the bookkeeping of the graph. A replacement that follows leaves no
assertion of the rows that it retracts or writes. -/
theorem graphFenced_rows (env : MemoryEnv) (start : MemoryControlState) (calls : List RowCall)
    (hkept : EveryStep (fun store call => (rowStep env store call).1)
      (fun store call => call.Commits env store → call.KeepsGraph env store) (.empty start) calls) :
    let store := (rowTransactions env).state (.empty start) calls
    GraphFencedToTombstones store ∧
    ∀ call next result results, call.KeepsGraph →
      replaceConversationSource env store call = .ok (next, result, results) → results ≠ [] →
      ∀ memoryId, memoryId ∈ call.expectedSourceItems.map (·.memoryId) ∨
          memoryId ∈ call.writes.map (·.memoryId) → next.assertions.get memoryId = none := by
  intro store
  have hsound : StoreSound store := by
    apply Machine.invariant_of_everyStep hkept
    · intro store call h hstep
      exact rowStep_sound h hstep
    · exact empty_sound start
  refine ⟨hsound.toGraphFencedToTombstones, ?_⟩
  intro call next result results hcall hrun hcommitted memoryId hmem
  exact replaceConversationSource_assertions hsound.keyed hcall.plain hrun hcommitted hmem

/-- The row of `retractTea` is added, and retracted. -/
theorem graphFenced_rows_retractTea : ∃ env : MemoryEnv,
    GraphFencedToTombstones ((rowTransactions env).state (.empty teaControl)
      [.memory (.apply (addTea env)), .replace (retractTea env)]) := by
  obtain ⟨env⟩ := MemoryEnv.nonempty
  have hadded : (RowCall.memory (.apply (addTea env))).KeepsGraph env (.empty teaControl) := by
    intro existing hread
    cases hread
  have hretracted : (retractTea env).KeepsGraph := by
    constructor
    · intro write hwrite
      cases hwrite
    · intro item hitem
      cases hitem
  obtain ⟨hfenced, -⟩ := graphFenced_rows env teaControl
    [.memory (.apply (addTea env)), .replace (retractTea env)]
    ⟨fun _ => hadded, fun _ => hretracted, trivial⟩
  exact ⟨env, hfenced⟩

end

end Omi.Memory
