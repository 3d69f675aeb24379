import Omi.Memory.ReplacementLog

/-! Runs of everything that writes memory rows: applies, privacy tombstones, conversation
replacements and source generation bumps, in any order. The rows are always those of an append-only
log of commits, so that a revision or a commit number read again means that nothing changed. -/
namespace Omi.Memory
open Omi.Foundation

inductive RowCall where
  | memory (call : MemoryCall)
  | replace (call : ReplacementCall)
  | bump (now : ℤ)

section
variable (env : MemoryEnv)

/-- A transaction with the commits it writes. -/
def rowTransaction (store : MemoryStore) : RowCall →
    Except String (MemoryStore × List ApplyResult)
  | .memory call => (runTransaction env store call).map fun answer => (answer.1, [answer.2])
  | .replace call => (replaceConversationSource env store call).map fun answer =>
      (answer.1, answer.2.2)
  | .bump now => (bumpSourceGeneration store now).map fun next => (next, [])

/-- A transaction that raises writes nothing. -/
def rowStep (store : MemoryStore) (call : RowCall) :
    MemoryStore × Except String (List ApplyResult) :=
  match rowTransaction env store call with
  | .ok (next, results) => (next, .ok results)
  | .error message => (store, .error message)

def rowTransactions : Machine MemoryStore RowCall (Except String (List ApplyResult)) :=
  ⟨rowStep env⟩

/-- The rows a call adds are under free ids, and the writes of a replacement are its planner's. -/
def RowCall.Apart (store : MemoryStore) : RowCall → Prop
  | .memory (.apply call) => call.AddsApart env store
  | .memory (.tombstone _) => True
  | .replace call => ∀ write ∈ call.writes, write.Plain
  | .bump _ => True

/-- A run of such calls. -/
def ApartRun (store : MemoryStore) (calls : List RowCall) : Prop :=
  EveryStep (fun store call => (rowStep env store call).1) (RowCall.Apart env) store calls

end

section
variable {env : MemoryEnv} {start : MemoryControlState} {store next : MemoryStore}
  {log : List LoggedCommit} {call : RowCall} {calls : List RowCall} {results : List ApplyResult}
  {item row : MemoryItem} {memoryId : String}

/-! ### The log of a run -/

theorem rowStep_of_ok (h : rowTransaction env store call = .ok (next, results)) :
    rowStep env store call = (next, .ok results) := by
  rw [rowStep, h]

theorem map_eq_ok {α β : Type} {x : Except String α} {f : α → β} {b : β}
    (h : x.map f = .ok b) : ∃ a, x = .ok a ∧ f a = b := by
  cases x with
  | error message => cases h
  | ok a => exact ⟨a, rfl, Except.ok.inj h⟩

theorem rowTransaction_logged (h : Logged start store log) (hapart : call.Apart env store)
    (hrun : rowTransaction env store call = .ok (next, results)) :
    ∃ commits, Logged start next (log ++ commits) := by
  cases call with
  | memory call =>
    obtain ⟨⟨next', result⟩, hcall, hanswer⟩ := map_eq_ok hrun
    cases hanswer
    cases call with
    | apply call => exact applyPatchTransaction_logged h hcall fun _ => hapart
    | tombstone call => exact tombstoneTransaction_logged h hcall
  | replace call =>
    obtain ⟨⟨next', result, results'⟩, hcall, hanswer⟩ := map_eq_ok hrun
    cases hanswer
    exact replaceConversationSource_logged h hapart hcall
  | bump now =>
    obtain ⟨next', hcall, hanswer⟩ := map_eq_ok hrun
    cases hanswer
    obtain ⟨_, -, hresult⟩ := bind_eq_ok_iff.mp hcall
    cases hresult
    -- the generation is no part of the log
    exact ⟨[], by simpa using ⟨h.lawful, h.rows, h.sequence, h.head⟩⟩

/-- A step appends commits to the log, or none. -/
theorem rowStep_logged (h : Logged start store log) (hapart : call.Apart env store) :
    ∃ commits, Logged start (rowStep env store call).1 (log ++ commits) := by
  unfold rowStep
  cases hrun : rowTransaction env store call with
  | error message => exact ⟨[], by simpa using h⟩
  | ok answer => exact rowTransaction_logged h hapart hrun

theorem ApartRun.logged (h : Logged start store log) (hapart : ApartRun env store calls) :
    ∃ commits, Logged start ((rowTransactions env).state store calls) (log ++ commits) := by
  induction calls generalizing store log with
  | nil => exact ⟨[], by simpa using h⟩
  | cons call calls ih =>
    obtain ⟨commits, hstep⟩ := rowStep_logged h hapart.1
    obtain ⟨more, hrest⟩ := ih hstep hapart.2
    refine ⟨commits ++ more, ?_⟩
    rw [← List.append_assoc]
    exact hrest

theorem apartRun_append {calls calls' : List RowCall} :
    ApartRun env store (calls ++ calls') ↔
      ApartRun env store calls ∧ ApartRun env ((rowTransactions env).state store calls) calls' :=
  @Machine.everyStep_append _ _ _ (rowTransactions env) (RowCall.Apart env) store calls calls'

/-- The log at two points of a run: the later one goes on from the earlier one. -/
theorem ApartRun.logs {calls calls' : List RowCall}
    (hapart : ApartRun env (.empty start) (calls ++ calls')) :
    ∃ log more, Logged start ((rowTransactions env).state (.empty start) calls) log ∧
      Logged start ((rowTransactions env).state (.empty start) (calls ++ calls'))
        (log ++ more) := by
  obtain ⟨hbefore, hafter⟩ := apartRun_append.mp hapart
  obtain ⟨log, hlog⟩ := hbefore.logged (logged_empty start)
  obtain ⟨more, hmore⟩ := hafter.logged hlog
  rw [← Machine.state_append] at hmore
  exact ⟨[] ++ log, more, hlog, hmore⟩

/-- A row that is there is of the commit that it names, and in its journal. -/
structure WrittenBy (log : List LoggedCommit) (row : MemoryItem) (commit : LoggedCommit) : Prop where
  committed : commit ∈ log
  wrote : row ∈ commit.rows
  commitId : row.ledgerCommitId = some commit.commitId
  sequence : row.ledgerSequence = some commit.sequence
  journaled : row.memoryId ∈ commit.journaled

theorem Logged.writtenBy (h : Logged start store log)
    (hrow : store.items.get memoryId = some row) : ∃ commit, WrittenBy log row commit := by
  rw [h.rows] at hrow
  obtain ⟨rows, hrows, hmem⟩ := exists_mem_of_latest hrow
  obtain ⟨commit, hcommit, rfl⟩ := List.mem_map.mp hrows
  obtain ⟨before, after, hsplit⟩ := List.append_of_mem hcommit
  have hfits := h.lawful before commit after hsplit
  obtain ⟨hid, hsequence⟩ := hfits.stamped row hmem
  exact ⟨commit, hcommit, hmem, hid, hsequence, hfits.journaled row hmem⟩

/-- In every run the rows are what the commits of an append-only log left: the commits are numbered
without a gap, each row names the commit that wrote it and is in its journal, and a row is only
written over by a later revision, and never after a privacy deletion. -/
theorem rowHistory (env : MemoryEnv) (start : MemoryControlState) (calls calls' : List RowCall)
    (hapart : ApartRun env (.empty start) (calls ++ calls')) :
    ∃ log more, Logged start ((rowTransactions env).state (.empty start) calls) log ∧
      Logged start ((rowTransactions env).state (.empty start) (calls ++ calls'))
        (log ++ more) ∧
      ∀ memoryId row, ((rowTransactions env).state (.empty start) calls).items.get memoryId =
        some row → ∃ commit, WrittenBy log row commit := by
  obtain ⟨log, more, hlog, hmore⟩ := hapart.logs
  exact ⟨log, more, hlog, hmore, fun _ _ hrow => hlog.writtenBy hrow⟩

/-- A privacy deletion that was planned before there was a row. -/
def lateForget (env : MemoryEnv) : TombstoneCall where
  uid := "u"
  reason := "forget"
  observedControl := teaControl
  expectedItems := [shortTea env]
  deletionGateToken := "t"
  evidence := [teaRecord]
  opened := 2
  head := 2
  now := 2
  marked := 2

/-- It comes too late, and changes nothing. -/
theorem lateForget_step (env : MemoryEnv) :
    (rowStep env (addedTea env) (.memory (.tombstone (lateForget env)))).1 = addedTea env := by
  have hreason : isBlank "forget" = false := by decide
  have hmoved : controlFence (addedTea env).control ≠ controlFence teaControl := by
    intro hsame
    have hsequence : (1 : ℤ) = 0 := congrArg (·.2.2.2) hsame
    omega
  have hraised : ∃ message, rowTransaction env (addedTea env)
      (.memory (.tombstone (lateForget env))) = .error message := by
    refine ⟨"memory control changed during privacy tombstone", ?_⟩
    simp [rowTransaction, runTransaction, tombstoneTransaction, tombstoneResult, lateForget,
      hreason, hmoved, check, Except.map, bind, Except.bind]
  obtain ⟨message, hraised⟩ := hraised
  rw [rowStep, hraised]

/-- A row is added and promoted, with the late deletion between. -/
def teaRows (env : MemoryEnv) : List RowCall :=
  [.memory (.apply (addTea env)), .memory (.tombstone (lateForget env)),
    .memory (.apply (promoteTea env))]

theorem addTea_apart (env : MemoryEnv) :
    RowCall.Apart env (.empty teaControl) (.memory (.apply (addTea env))) := by
  have hblank : isBlank "a" = false := by decide
  exact .inr (.inr (.inl ⟨rfl, rfl, hblank⟩))

theorem teaRows_apart (env : MemoryEnv) : ApartRun env (.empty teaControl) (teaRows env) :=
  ⟨addTea_apart env, trivial, .inl rfl, trivial⟩

theorem addTea_rows (env : MemoryEnv) : (rowTransactions env).state (.empty teaControl)
    [.memory (.apply (addTea env))] = addedTea env := by
  obtain ⟨result, hadded, -⟩ := addTea_step env
  have hrun : rowTransaction env (.empty teaControl) (.memory (.apply (addTea env))) =
      .ok (addedTea env, [result]) := by
    rw [rowTransaction, runTransaction, hadded]
    rfl
  simp only [Machine.state_cons, Machine.state_nil, rowTransactions, rowStep_of_ok hrun]

theorem teaRows_row (env : MemoryEnv) : ∃ assertion,
    ((rowTransactions env).state (.empty teaControl) (teaRows env)).items.get "a" =
      some (graphTea env assertion) := by
  obtain ⟨assertion, result, -, -, hpromoted, -⟩ := promoteTea_step env
  have hrun : rowTransaction env (addedTea env) (.memory (.apply (promoteTea env))) =
      .ok (promotedTea env assertion, [result]) := by
    rw [rowTransaction, runTransaction, hpromoted]
    rfl
  have hlate := lateForget_step env
  have hsplit : teaRows env = [.memory (.apply (addTea env))] ++
      [.memory (.tombstone (lateForget env)), .memory (.apply (promoteTea env))] := rfl
  refine ⟨assertion, ?_⟩
  rw [hsplit, Machine.state_append, addTea_rows]
  simp only [Machine.state_cons, Machine.state_nil]
  show ((rowStep env (rowStep env (addedTea env) _).1 _).1.items).get "a" = _
  rw [hlate, rowStep_of_ok hrun]
  rfl

/-- The promoted row is in the log, which a bump of the source generation goes on from. -/
theorem rowHistory_teaRows : ∃ env : MemoryEnv, ∃ log more row commit,
    Logged teaControl ((rowTransactions env).state (.empty teaControl) (teaRows env)) log ∧
    Logged teaControl ((rowTransactions env).state (.empty teaControl) (teaRows env ++ [.bump 3]))
      (log ++ more) ∧
    ((rowTransactions env).state (.empty teaControl) (teaRows env)).items.get "a" = some row ∧
    row.itemRevision = 2 ∧ WrittenBy log row commit := by
  obtain ⟨env⟩ := MemoryEnv.nonempty
  obtain ⟨assertion, hrow⟩ := teaRows_row env
  have hapart : ApartRun env (.empty teaControl) (teaRows env ++ [.bump 3]) :=
    apartRun_append.mpr ⟨teaRows_apart env, trivial, trivial⟩
  obtain ⟨log, more, hlog, hmore, hwritten⟩ :=
    rowHistory env teaControl (teaRows env) [.bump 3] hapart
  obtain ⟨commit, hcommit⟩ := hwritten "a" _ hrow
  exact ⟨env, log, more, _, commit, hlog, hmore, hrow, rfl, hcommit⟩

/-! ### What is read again -/

/-- A row that was read stays there as the log goes on, and is followed by later revisions only. -/
theorem Logged.continues {more : List LoggedCommit} (h : Logged start store log)
    (hnext : Logged start next (log ++ more)) (hrow : store.items.get memoryId = some row) :
    ∃ row', next.items.get memoryId = some row' ∧
      Continues (·.itemRevision) MemoryItem.Scrubbed row row' := by
  rw [h.rows] at hrow
  rw [hnext.rows, latestRow, List.map_append]
  refine latest_continues ?_ hrow
  rw [← List.map_append]
  refine hnext.lawful.map (·.rows) fun before commit hfits => ?_
  exact hfits.succeeds

/-- An equal commit number means that nothing was written between. -/
theorem Logged.same_of_sequence {more : List LoggedCommit} (h : Logged start store log)
    (hnext : Logged start next (log ++ more))
    (hsame : next.control.commitSequence = store.control.commitSequence) (memoryId : String) :
    next.items.get memoryId = store.items.get memoryId := by
  rw [h.sequence, hnext.sequence, List.length_append] at hsame
  have hnone : more.length = 0 := by
    push_cast at hsame
    omega
  rw [List.length_eq_zero_iff.mp hnone, List.append_nil] at hnext
  rw [h.rows, hnext.rows]

/-- A row that is read twice in a run is there both times; under the same revision it is the same
row, and a row that a privacy deletion left is the same in any case. Under the same commit number
all rows are the same. -/
theorem revision_fences (env : MemoryEnv) (start : MemoryControlState)
    (calls calls' : List RowCall) (hapart : ApartRun env (.empty start) (calls ++ calls')) :
    let store := (rowTransactions env).state (.empty start) calls
    let next := (rowTransactions env).state (.empty start) (calls ++ calls')
    (∀ memoryId row, store.items.get memoryId = some row →
      ∃ row', next.items.get memoryId = some row' ∧ row.itemRevision ≤ row'.itemRevision ∧
        (row'.itemRevision = row.itemRevision → row' = row) ∧ (row.Scrubbed → row' = row)) ∧
    (next.control.commitSequence = store.control.commitSequence →
      ∀ memoryId, next.items.get memoryId = store.items.get memoryId) := by
  intro store next
  obtain ⟨log, more, hlog, hmore⟩ := hapart.logs
  constructor
  · intro memoryId row hrow
    obtain ⟨row', hrow', hcontinues⟩ := hlog.continues hmore hrow
    refine ⟨row', hrow', hcontinues.revision_le, fun hsame => ?_, hcontinues.eq_of_final⟩
    exact hcontinues.eq_of_revision hsame.le
  · exact hlog.same_of_sequence hmore

/-- The row that is added is changed by its promotion, so that its revision has grown. -/
theorem revision_fences_teaRows : ∃ env : MemoryEnv, ∃ row row',
    ((rowTransactions env).state (.empty teaControl) [.memory (.apply (addTea env))]).items.get
      "a" = some row ∧
    ((rowTransactions env).state (.empty teaControl) (teaRows env)).items.get "a" = some row' ∧
    row.itemRevision < row'.itemRevision := by
  obtain ⟨env⟩ := MemoryEnv.nonempty
  obtain ⟨hrows, -⟩ := revision_fences env teaControl [.memory (.apply (addTea env))]
    [.memory (.tombstone (lateForget env)), .memory (.apply (promoteTea env))]
    (teaRows_apart env)
  have hadded : ((rowTransactions env).state (.empty teaControl)
      [.memory (.apply (addTea env))]).items.get "a" = some (shortTea env) := by
    rw [addTea_rows]
    rfl
  obtain ⟨row', hrow', hlater, hsame, -⟩ := hrows "a" (shortTea env) hadded
  obtain ⟨assertion, hpromoted⟩ := teaRows_row env
  obtain rfl : graphTea env assertion = row' := Option.some.inj (hpromoted.symm.trans hrow')
  refine ⟨env, _, _, hadded, hrow', lt_of_le_of_ne hlater fun hrevision => ?_⟩
  have hready : (graphTea env assertion).graphReady = (shortTea env).graphReady := by
    rw [hsame hrevision.symm]
  cases hready

end

end Omi.Memory
