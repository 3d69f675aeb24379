import Omi.Foundation.Machine
import Omi.Memory.ApplyCases

/-! Folding applies over a control state and the rows it guards: committed results form a chain
in which each names its predecessor as parent and announces its rows, and nothing else moves the
fold. -/
namespace Omi.Memory
open Omi.Foundation

/-- The control state and the rows a fold of applies carries along. -/
structure MemoryBook where
  control : MemoryControlState
  items : Table MemoryItem

structure ApplyCall where
  operation : MemoryOperation
  payload : PatchPayload
  clock : ApplyClock
  allowTriggerFeedbackArguments : Bool := false

/-- The payload with the authoritative rows its patch names. -/
def PatchPayload.withRows (payload : PatchPayload) (items : Table MemoryItem) : PatchPayload :=
  let superseded := payload.patch.supersedes.filterMap items.get
  { payload with
    existingItem := payload.patch.targetMemoryId.bind items.get
    supersededItems := if superseded.isEmpty then none else some superseded }

@[simp] theorem PatchPayload.withRows_patch (payload : PatchPayload) (items : Table MemoryItem) :
    (payload.withRows items).patch = payload.patch := rfl

@[simp] theorem PatchPayload.withRows_keys (payload : PatchPayload) (items : Table MemoryItem) :
    (payload.withRows items).keys = payload.keys := rfl

@[simp] theorem PatchPayload.withRows_evidence (payload : PatchPayload)
    (items : Table MemoryItem) : (payload.withRows items).evidence = payload.evidence := rfl

/-- Write rows under their ids. -/
def writeItems (items : Table MemoryItem) (changed : List MemoryItem) : Table MemoryItem :=
  changed.foldl (fun items item => items.set item.memoryId item) items

theorem writeItems_cons (items : Table MemoryItem) (item : MemoryItem)
    (changed : List MemoryItem) :
    writeItems items (item :: changed) = writeItems (items.set item.memoryId item) changed := rfl

section writes
variable {items : Table MemoryItem} {changed : List MemoryItem} {item row : MemoryItem}
  {memoryId : String}

theorem get_writeItems_other (h : memoryId ∉ changed.map (·.memoryId)) :
    (writeItems items changed).get memoryId = items.get memoryId := by
  induction changed generalizing items with
  | nil => rfl
  | cons first changed ih =>
    obtain ⟨hfirst, hrest⟩ := List.ne_and_not_mem_of_not_mem_cons h
    rw [writeItems_cons, ih hrest, Table.get_set, if_neg hfirst]

/-- Rows of different ids are all there after they are written. -/
theorem get_writeItems (hnodup : (changed.map (·.memoryId)).Nodup) (hitem : item ∈ changed) :
    (writeItems items changed).get item.memoryId = some item := by
  induction changed generalizing items with
  | nil => cases hitem
  | cons first changed ih =>
    obtain ⟨hfirst, hrest⟩ := List.nodup_cons.mp hnodup
    rw [writeItems_cons]
    rcases List.mem_cons.mp hitem with rfl | hitem
    · rw [get_writeItems_other hfirst, Table.get_set, if_pos rfl]
    · exact ih hrest hitem

/-- What is there after some rows are written is one of them, or was there before. -/
theorem mem_of_get_writeItems (h : (writeItems items changed).get memoryId = some row) :
    row ∈ changed ∨ items.get memoryId = some row := by
  induction changed generalizing items with
  | nil => exact .inr h
  | cons first changed ih =>
    rw [writeItems_cons] at h
    rcases ih h with hlater | hbefore
    · exact .inl (List.mem_cons_of_mem _ hlater)
    · rw [Table.get_set] at hbefore
      split_ifs at hbefore with hkey
      · obtain rfl := Option.some.inj hbefore
        exact .inl List.mem_cons_self
      · exact .inr hbefore

end writes

section
variable (env : MemoryEnv)

/-- The apply of one call, on the control state and the rows of the fold. -/
def applyReply (book : MemoryBook) (call : ApplyCall) : Except String ApplyResult :=
  applyLongTermPatchTransaction env book.control call.operation
    (call.payload.withRows book.items) call.clock call.allowTriggerFeedbackArguments

/-- A commit is fed on, any other answer is not. -/
def MemoryBook.fed (book : MemoryBook) : Except String ApplyResult → MemoryBook
  | .ok result =>
    if result.status = .committed then
      { control := result.controlState
        items := writeItems book.items result.memoryItems }
    else book
  | .error _ => book

def applyStep (book : MemoryBook) (call : ApplyCall) :
    MemoryBook × Except String ApplyResult :=
  (book.fed (applyReply env book call), applyReply env book call)

def applies : Machine MemoryBook ApplyCall (Except String ApplyResult) := ⟨applyStep env⟩

/-- The result of a reply that is a commit. -/
def committedReply : Except String ApplyResult → Option ApplyResult
  | .ok result => if result.status = .committed then some result else none
  | .error _ => none

theorem committedReply_eq_some {reply : Except String ApplyResult} {result : ApplyResult}
    (h : committedReply reply = some result) :
    reply = .ok result ∧ result.status = .committed := by
  cases reply with
  | error message => cases h
  | ok answer =>
    rw [committedReply] at h
    split_ifs at h with hstatus
    obtain rfl := Option.some.inj h
    exact ⟨rfl, hstatus⟩

/-- The committed results of a run, in its order. -/
def commits (book : MemoryBook) (calls : List ApplyCall) : List ApplyResult :=
  ((applies env).trace book calls).filterMap fun event => committedReply event.2

theorem commits_cons (book : MemoryBook) (call : ApplyCall) (calls : List ApplyCall) :
    commits env book (call :: calls) =
      (committedReply (applyReply env book call)).toList ++
        commits env (applyStep env book call).1 calls := by
  have htrace : (applies env).trace book (call :: calls) =
      (call, applyReply env book call) ::
        (applies env).trace (applyStep env book call).1 calls := rfl
  rw [commits, htrace, List.filterMap_cons]
  cases committedReply (applyReply env book call) <;> rfl

/-- The id of the row a call changes or adds, before the rows it supersedes. -/
def ApplyCall.changedId (call : ApplyCall) (control : MemoryControlState) : String :=
  materializedMemoryId env call.operation.uid call.payload.patch
    (commitPoint env control call.operation).commitId

/-- The call names no row twice. -/
def ApplyCall.DistinctRows (call : ApplyCall) (control : MemoryControlState) : Prop :=
  call.payload.patch.decision = .skipDuplicate ∨
    (call.changedId env control :: call.payload.patch.supersedes).Nodup

end

/-- A commit one past a control state: it is the new head, and all its events name the old head
as parent. -/
structure FollowsHead (control : MemoryControlState) (result : ApplyResult) : Prop where
  sequence : result.controlState.commitSequence = control.commitSequence + 1
  journal : result.operation.committedHeadCommitId = some result.controlState.headCommitId ∧
    result.operation.committedSequence = some result.controlState.commitSequence
  announced : result.outboxEvents ≠ []
  events : ∀ event ∈ result.outboxEvents,
    event.commitId = result.controlState.headCommitId ∧
    event.parentCommitId = control.headCommitId ∧
    event.commitSequence = result.controlState.commitSequence

/-- Commits each of which follows the one before it. -/
def CommitsFollow : MemoryControlState → List ApplyResult → Prop
  | _, [] => True
  | control, result :: results =>
    FollowsHead control result ∧ CommitsFollow result.controlState results

/-- Every changed row has one event of each kind, with the row's revision and content hash. -/
def AnnouncedOnce (result : ApplyResult) : Prop :=
  ∀ item ∈ result.memoryItems,
    ∀ eventType ∈ [MemoryOutboxEventType.projectionSync, .vectorSync],
      ∃ event,
        result.outboxEvents.filter (fun event =>
          event.eventType = eventType ∧ event.memoryId = some item.memoryId) = [event] ∧
        event.commitSequence = result.controlState.commitSequence ∧
        event.payload.get "item_revision" = .int item.itemRevision ∧
        event.payload.get "content_hash" = optionalText item.contentHash

/-- Nothing was changed, asserted or announced. -/
def NothingWritten (control : MemoryControlState) (result : ApplyResult) : Prop :=
  result.controlState = control ∧ result.memoryItems = [] ∧ result.graphAssertions = [] ∧
    result.outboxEvents = []

section
variable {env : MemoryEnv} {control : MemoryControlState} {operation : MemoryOperation}
  {payload : PatchPayload} {clock : ApplyClock} {flag : Bool} {evidence : List MemoryEvidence}
  {result : ApplyResult} {items : List MemoryItem} {assertions : List MemoryGraphAssertion}
  {changes : List (Option MemoryItem)}

theorem commitResult_followsHead (hchanges : changes ≠ [])
    (h : commitResult env control operation clock items assertions changes = .ok result) :
    FollowsHead control result := by
  obtain ⟨-, hcontrol, -, -, hevents, itemIds, eventIds, hmarked⟩ := commitResult_ok h
  have hmarked := MemoryOperation.markCommitted_ok hmarked
  refine ⟨?_, ?_, ?_, ?_⟩
  · rw [hcontrol]
    rfl
  · rw [hcontrol, hmarked]
    exact ⟨rfl, rfl⟩
  · obtain ⟨change, changes, rfl⟩ := List.exists_cons_of_ne_nil hchanges
    simp [hevents, outboxEvents]
  · intro event hevent
    rw [hevents] at hevent
    obtain ⟨change, -, hevent⟩ := List.mem_flatMap.mp hevent
    obtain ⟨eventType, -, rfl⟩ := List.mem_map.mp hevent
    rw [hcontrol]
    exact ⟨rfl, rfl, rfl⟩

/-- The events of one kind about one id are those of the changed rows of that id. -/
theorem filter_outboxEvents {point : CommitPoint} {eventType : MemoryOutboxEventType}
    (heventType : eventType ∈ [MemoryOutboxEventType.projectionSync, .vectorSync])
    (items : List MemoryItem) (memoryId : String) :
    (outboxEvents env control operation point clock (items.map some)).filter (fun event =>
        event.eventType = eventType ∧ event.memoryId = some memoryId) =
      (items.filter (·.memoryId = memoryId)).map fun item =>
        outboxEvent env control operation point clock (some item) eventType := by
  induction items with
  | nil => rfl
  | cons item items ih =>
    have hhead : outboxEvents env control operation point clock ((item :: items).map some) =
        [outboxEvent env control operation point clock (some item) .projectionSync,
          outboxEvent env control operation point clock (some item) .vectorSync] ++
        outboxEvents env control operation point clock (items.map some) := rfl
    rw [hhead, List.filter_append, ih]
    have hid (eventType : MemoryOutboxEventType) :
        (outboxEvent env control operation point clock (some item) eventType).memoryId =
          some item.memoryId := rfl
    have htype (eventType : MemoryOutboxEventType) :
        (outboxEvent env control operation point clock (some item) eventType).eventType =
          eventType := rfl
    by_cases hitem : item.memoryId = memoryId
    · simp only [List.mem_cons, List.not_mem_nil, or_false] at heventType
      rcases heventType with rfl | rfl <;> simp [hid, htype, hitem]
    · simp [hid, htype, hitem]

/-- Rows are announced once exactly when no two of them share an id. -/
theorem announcedOnce_iff
    (h : commitResult env control operation clock items assertions (items.map some) =
      .ok result) :
    AnnouncedOnce result ↔ (items.map (·.memoryId)).Nodup := by
  obtain ⟨-, hcontrol, hitems, -, hevents, -⟩ := commitResult_ok h
  unfold AnnouncedOnce
  rw [hitems, hevents, hcontrol]
  constructor
  · intro honce
    rw [List.nodup_iff_count_le_one]
    intro memoryId
    by_contra hmany
    have hcount : 1 < (items.filter (·.memoryId = memoryId)).length := by
      rw [← List.countP_eq_length_filter]
      simpa [List.count, List.countP_map, Function.comp_def, beq_eq_decide] using hmany
    obtain ⟨item, hitem⟩ := List.exists_mem_of_length_pos (by omega :
      0 < (items.filter (·.memoryId = memoryId)).length)
    obtain ⟨hmem, hid⟩ := List.mem_filter.mp hitem
    obtain ⟨event, hevent, -⟩ := honce item hmem .projectionSync (by simp)
    rw [filter_outboxEvents (by simp), of_decide_eq_true hid] at hevent
    have hlength := congrArg List.length hevent
    rw [List.length_map, List.length_singleton] at hlength
    omega
  · intro hnodup item hmem eventType heventType
    have hsingle : items.filter (·.memoryId = item.memoryId) = [item] := by
      have hcount : (items.filter (·.memoryId = item.memoryId)).length = 1 := by
        rw [← List.countP_eq_length_filter]
        have := List.count_eq_one_of_mem hnodup (List.mem_map_of_mem hmem)
        simpa [List.count, List.countP_map, Function.comp_def, beq_eq_decide] using this
      obtain ⟨only, honly⟩ := List.length_eq_one_iff.mp hcount
      have hin : item ∈ items.filter (·.memoryId = item.memoryId) :=
        List.mem_filter.mpr ⟨hmem, by simp⟩
      rw [honly] at hin ⊢
      rw [List.mem_singleton.mp hin]
    refine ⟨outboxEvent env control operation (commitPoint env control operation) clock
      (some item) eventType, ?_, rfl, rfl, rfl⟩
    rw [filter_outboxEvents heventType, hsingle]
    rfl

/-- The rows of a commit are the changed one and the superseded ones, under the ids the patch
gives them. -/
theorem appliedItems_ids
    (h : appliedItems env control operation payload evidence clock flag =
      .ok (items, assertions)) :
    items.map (·.memoryId) =
      materializedMemoryId env operation.uid payload.patch
        (commitPoint env control operation).commitId :: payload.patch.supersedes := by
  obtain ⟨changed, attached, superseded, hchanged, hattached, hsuperseded, rfl⟩ :=
    appliedItems_ok h
  have hid : attached.memoryId = changed.1.memoryId := by
    obtain ⟨_, _, _, _, _, rfl⟩ := attached_eq hattached
    rfl
  rw [List.map_cons, hid, supersedeItems_ids hsuperseded]
  congr 1
  rcases changedItem_ok hchanged with ⟨-, existing, hupdate, -, hitem, -⟩ | ⟨-, hitem, -⟩
  · obtain ⟨-, htarget, hne, -⟩ := checkUpdate_ok hupdate
    have hmaterialized : materializedMemoryId env operation.uid payload.patch
        (commitPoint env control operation).commitId = existing.memoryId := by
      simp [materializedMemoryId, present, htarget, hne]
    rw [hmaterialized, hitem, updatedMemoryItem_memoryId]
  · exact (materializeMemoryItem_ok hitem).1

theorem runApply_followsHead
    (h : runApply env control operation payload clock flag = .ok result) :
    FollowsHead control result := by
  obtain ⟨evidence, -, -, -, ⟨-, hcommit⟩ | ⟨-, items, assertions, hitems, hcommit⟩⟩ :=
    runApply_ok h
  · exact commitResult_followsHead (by simp) hcommit
  · obtain ⟨_, attached, superseded, -, -, -, rfl⟩ := appliedItems_ok hitems
    exact commitResult_followsHead (by simp) hcommit

theorem runApply_announcedOnce_iff
    (h : runApply env control operation payload clock flag = .ok result) :
    AnnouncedOnce result ↔ payload.patch.decision = .skipDuplicate ∨
      (materializedMemoryId env operation.uid payload.patch
        (commitPoint env control operation).commitId :: payload.patch.supersedes).Nodup := by
  obtain ⟨evidence, -, -, -, ⟨hskip, hcommit⟩ | ⟨hskip, items, assertions, hitems, hcommit⟩⟩ :=
    runApply_ok h
  · have hnone : AnnouncedOnce result := by
      intro item hitem
      rw [(commitResult_ok hcommit).2.2.1] at hitem
      cases hitem
    exact ⟨fun _ => .inl hskip, fun _ => hnone⟩
  · rw [announcedOnce_iff hcommit, appliedItems_ids hitems]
    exact ⟨.inr, fun h => h.resolve_left hskip⟩

/-- A committed operation applied again is skipped, whatever the control state, the rows and
the time are then. -/
theorem runApply_again
    (h : runApply env control operation payload clock flag = .ok result)
    {again : PatchPayload} (hpatch : again.patch = payload.patch)
    (hkeys : again.keys = payload.keys) (hevidence : again.evidence = payload.evidence)
    (later : MemoryControlState) (clock' : ApplyClock) (flag' : Bool) :
    applyLongTermPatchTransaction env later result.operation again clock' flag' =
      .ok
        { status := .idempotentSkip
          controlState := later
          operation := result.operation } := by
  obtain ⟨evidence, hproposed, hcheck, -, hcommit⟩ := runApply_ok h
  obtain ⟨itemIds, eventIds, hmarked⟩ : ∃ itemIds eventIds,
      operation.markCommitted env.toContractHash (commitPoint env control operation).commitId
        (commitPoint env control operation).sequence itemIds eventIds clock.operation =
          .ok result.operation := by
    rcases hcommit with ⟨-, hcommit⟩ | ⟨-, items, assertions, -, hcommit⟩
    · exact (commitResult_ok hcommit).2.2.2.2.2
    · exact (commitResult_ok hcommit).2.2.2.2.2
  have hmarked := MemoryOperation.markCommitted_ok hmarked
  have hproposed' : proposedEvidence again = .ok evidence := by
    rw [← hproposed]
    unfold proposedEvidence
    rw [hpatch, hevidence]
  have hdigest : patchLogicalPayload env result.operation again =
      patchLogicalPayload env operation payload := by
    unfold patchLogicalPayload buildPatchMutationIdentity
    rw [hpatch, hkeys, hmarked]
    rfl
  have hcheck' : checkPatch env result.operation again = .ok () := by
    simp only [checkPatch, bind_eq_ok_iff, check_eq_ok_iff] at hcheck ⊢
    obtain ⟨_, hvalid, _, hids, _, hledger, hsame⟩ := hcheck
    refine ⟨(), ?_, (), ?_, (), ?_, ?_⟩
    · rwa [hpatch]
    · rw [hpatch, hmarked]
      exact hids
    · rw [hpatch, hmarked]
      exact hledger
    · rw [hdigest, hmarked]
      exact hsame
  have hstatus : result.operation.status = .committed := by
    rw [hmarked]
    rfl
  have hrefused : runApply env later result.operation again clock' flag' =
      .error (.refused ⟨.idempotentSkip, result.operation, none, by decide⟩) := by
    simp only [runApply, hproposed', hcheck', checkOperation, check, hstatus]
    rfl
  exact apply_of_refused hrefused

end

section
variable {env : MemoryEnv} {book : MemoryBook} {call : ApplyCall} {result : ApplyResult}

/-- A commit of the fold was reached by the body of the apply, and is fed on. -/
theorem applyStep_committed (h : applyReply env book call = .ok result)
    (hstatus : result.status = .committed) :
    runApply env book.control call.operation (call.payload.withRows book.items) call.clock
        call.allowTriggerFeedbackArguments = .ok result ∧
      (applyStep env book call).1 =
        { control := result.controlState
          items := writeItems book.items result.memoryItems } := by
  constructor
  · exact runApply_of_committed h hstatus
  · simp [applyStep, h, MemoryBook.fed, hstatus]

/-- Any other answer leaves the fold where it was, and writes nothing. -/
theorem applyStep_refused (h : applyReply env book call = .ok result)
    (hstatus : result.status ≠ .committed) :
    NothingWritten book.control result ∧ (applyStep env book call).1 = book := by
  refine ⟨?_, ?_⟩
  · rcases apply_cases h with hrun | ⟨refusal, -, rfl⟩
    · exact absurd (runApply_committed hrun) hstatus
    · exact ⟨rfl, rfl, rfl, rfl⟩
  · simp [applyStep, h, MemoryBook.fed, hstatus]

/-- A step that commits nothing leaves the fold where it was. -/
theorem applyStep_uncommitted (h : committedReply (applyReply env book call) = none) :
    (applyStep env book call).1 = book := by
  rw [applyStep]
  dsimp only
  cases hreply : applyReply env book call with
  | error message => rfl
  | ok result =>
    rw [hreply, committedReply] at h
    split_ifs at h with hstatus
    exact if_neg hstatus

theorem applyStep_raised {message : String} (h : applyReply env book call = .error message) :
    (applyStep env book call).1 = book := by
  simp [applyStep, h, MemoryBook.fed]

end

/-- The commits of a run follow one another from the control state it starts with. -/
theorem commitsFollow (env : MemoryEnv) (book : MemoryBook) (calls : List ApplyCall) :
    CommitsFollow book.control (commits env book calls) := by
  induction calls generalizing book with
  | nil => trivial
  | cons call calls ih =>
    have htail := ih (applyStep env book call).1
    rw [commits_cons]
    cases hcommitted : committedReply (applyReply env book call) with
    | none =>
      rw [applyStep_uncommitted hcommitted] at htail ⊢
      exact htail
    | some result =>
      obtain ⟨hreply, hstatus⟩ := committedReply_eq_some hcommitted
      obtain ⟨hrun, hnext⟩ := applyStep_committed hreply hstatus
      rw [hnext] at htail ⊢
      exact ⟨runApply_followsHead hrun, htail⟩

/-- Folding applies over any calls, from any control state and rows. The commits form a chain;
each is fed on, changes each of its rows with one event of each kind exactly when its patch
names no row twice, and is skipped when it is applied again; every other answer writes nothing
and leaves the fold where it was. -/
theorem commitChain (env : MemoryEnv) (start : MemoryBook) (calls : List ApplyCall) :
    CommitsFollow start.control (commits env start calls) ∧
    ∀ before call after, calls = before ++ call :: after →
      let book := (applies env).state start before
      let next := (applies env).state start (before ++ [call])
      (∀ result, applyReply env book call = .ok result → result.status = .committed →
        FollowsHead book.control result ∧
        next = ⟨result.controlState, writeItems book.items result.memoryItems⟩ ∧
        (AnnouncedOnce result ↔ call.DistinctRows env book.control) ∧
        ∀ later items clock flag,
          applyLongTermPatchTransaction env later result.operation (call.payload.withRows items)
            clock flag =
          .ok
            { status := .idempotentSkip
              controlState := later
              operation := result.operation }) ∧
      (∀ result, applyReply env book call = .ok result → result.status ≠ .committed →
        NothingWritten book.control result ∧ next = book) ∧
      (∀ message, applyReply env book call = .error message → next = book) := by
  refine ⟨commitsFollow env start calls, ?_⟩
  rintro before call after - book next
  have hnext : next = (applyStep env book call).1 := by
    show (applies env).state start (before ++ [call]) = _
    rw [Machine.state_append]
    rfl
  refine ⟨?_, ?_, ?_⟩
  · intro result hreply hstatus
    obtain ⟨hrun, hstate⟩ := applyStep_committed hreply hstatus
    have honce := runApply_announcedOnce_iff hrun
    rw [PatchPayload.withRows_patch] at honce
    refine ⟨runApply_followsHead hrun, hnext.trans hstate, honce, ?_⟩
    intro later items clock flag
    exact runApply_again hrun (by simp) (by simp) (by simp) later clock flag
  · intro result hreply hstatus
    obtain ⟨hnothing, hstate⟩ := applyStep_refused hreply hstatus
    exact ⟨hnothing, hnext.trans hstate⟩
  · intro message hreply
    exact hnext.trans (applyStep_raised hreply)

/-! ### An update of one stored memory -/

/-- An update of the row "a" that says nothing new of it. -/
def teaUpdate (env : MemoryEnv) (evidenceId : String) (supersedes : List String) : ApplyCall :=
  let fields : MemoryOperation :=
    { operationId := ""
      uid := "u"
      operationType := .userMutation
      evidenceIds := [evidenceId]
      targetMemoryId := some "a"
      logicalPayload :=
        { decision := "update"
          targetMemoryId := some "a"
          resultStatus := some "active"
          supersedes := supersedes }
      logicalPayloadDigest := ""
      accountGeneration := 0
      sourceGeneration := 0
      createdAt := 0
      updatedAt := 0 }
  { operation := .new env.toContractHash fields 0
    payload :=
      { patch :=
          { patchId := "p"
            idempotencyKey := "k"
            decision := .update
            resultStatus := .active
            evidenceIds := [evidenceId]
            targetMemoryId := some "a"
            supersedes := supersedes } }
    clock := ⟨1, 1, fun _ => 1, fun _ => 1, 1⟩ }

/-- The update is committed if its rows can be built. -/
theorem teaUpdate_committed {env : MemoryEnv} {evidenceId : String} {supersedes : List String}
    {rows : Table MemoryItem} {evidence : List MemoryEvidence} {items : List MemoryItem}
    {assertions : List MemoryGraphAssertion}
    (hevidence : proposedEvidence ((teaUpdate env evidenceId supersedes).payload.withRows rows) =
      .ok evidence)
    (hactive : evidence.all (·.sourceState = .active) = true)
    (hitems : appliedItems env teaControl (teaUpdate env evidenceId supersedes).operation
      ((teaUpdate env evidenceId supersedes).payload.withRows rows) evidence
      (teaUpdate env evidenceId supersedes).clock false = .ok (items, assertions))
    (hlabels : items.all (·.labelSet.isSome) = true) :
    ∃ result, applyReply env ⟨teaControl, rows⟩ (teaUpdate env evidenceId supersedes) =
        .ok result ∧ result.status = .committed ∧ result.memoryItems = items := by
  have hpatch : checkPatch env (teaUpdate env evidenceId supersedes).operation
      ((teaUpdate env evidenceId supersedes).payload.withRows rows) = .ok () := by
    apply checkPatch_new
    · rfl
    · rfl
    · rfl
    · rfl
  have hoperation : checkOperation env teaControl (teaUpdate env evidenceId supersedes).operation
      ((teaUpdate env evidenceId supersedes).payload.withRows rows) evidence
      (teaUpdate env evidenceId supersedes).clock = .ok () := by
    have hsame : checkGenerations env teaControl (teaUpdate env evidenceId supersedes).operation
        (teaUpdate env evidenceId supersedes).clock = .ok () := rfl
    simp only [checkOperation, bind_eq_ok_iff, check_eq_ok_iff]
    refine ⟨(), rfl, (), hsame, (), rfl, (), rfl, hactive⟩
  have huid : isBlank "u" = false := by decide
  have hnow : (0 : ℤ) ≤ 1 := by decide
  have hupdate : DurablePatchDecision.update ≠ .skipDuplicate := by decide
  obtain ⟨result, hrun, hresult⟩ := runApply_new huid le_rfl le_rfl le_rfl
    hnow hevidence hpatch hoperation hupdate hitems hlabels
  exact ⟨result, apply_of_run hrun, runApply_committed hrun, hresult⟩

/-- An update that supersedes the row it updates announces that row twice. -/
theorem not_announcedOnce :
    ¬ ∃ env : MemoryEnv, ∀ (book : MemoryBook) (call : ApplyCall) (result : ApplyResult),
      applyReply env book call = .ok result → result.status = .committed →
        AnnouncedOnce result := by
  rintro ⟨env, honce⟩
  let rows : Table MemoryItem := [("a", teaRow "a" .shortTerm (some 172800000000))]
  let call := teaUpdate env "e" ["a"]
  have hevidence : proposedEvidence (call.payload.withRows rows) = .ok [teaEvidence] := by
    rfl
  have hitems : ∃ items, appliedItems env teaControl call.operation (call.payload.withRows rows)
      [teaEvidence] call.clock false = .ok (items, []) ∧
        items.all (·.labelSet.isSome) = true := by
    exact ⟨_, rfl, rfl⟩
  obtain ⟨items, hitems, hlabels⟩ := hitems
  obtain ⟨result, hreply, hcommitted, -⟩ := teaUpdate_committed hevidence rfl hitems hlabels
  have hrun := runApply_of_committed hreply hcommitted
  have hdistinct := (runApply_announcedOnce_iff hrun).mp
    (honce ⟨teaControl, rows⟩ call result hreply hcommitted)
  rcases hdistinct with hskip | hnodup
  · cases hskip
  · exact absurd hnodup (by decide : ¬ (["a", "a"] : List String).Nodup)

end Omi.Memory
