import Omi.Foundation.ListCuts
import Omi.Foundation.Machine

/-! The assignment of synced segments to conversations. Segments are transcribed side by side, and
pass a turnstile one after another, oldest first: as long as no wait runs out, the account comes to
what the segments make of it in turn. -/
namespace Omi.Sync
open Omi.Foundation

/-! ### The turnstile -/

/-- `_OrderedTurnstile`. -/
structure OrderedTurnstile (κ : Type) where
  pending : List κ
  done : List κ := []

namespace OrderedTurnstile
variable {κ : Type} [DecidableEq κ] (turnstile : OrderedTurnstile κ)

def advance : OrderedTurnstile κ :=
  { turnstile with pending := turnstile.pending.dropWhile (· ∈ turnstile.done) }

/-- The condition of `wait_turn`: every earlier key is complete. -/
def waitTurn (key : κ) : OrderedTurnstile κ × Bool :=
  (turnstile.advance, turnstile.advance.pending.head?.all (· = key))

def complete (key : κ) : OrderedTurnstile κ :=
  { turnstile with done := key :: turnstile.done }.advance

end OrderedTurnstile

/-! ### The threads of a batch -/

/-- Where the thread of a segment is; while it assigns, with its own variables. -/
inductive SegmentStage (τ : Type) where
  | queued
  | transcribing
  | waiting
  | assigning (own : τ)
  | finished

/-- What the assignment of a segment does: its own variables at first, and what its next call on the
account makes of the account and of them. -/
structure SegmentWork (κ σ τ : Type) where
  start : κ → τ
  call : κ → σ × τ → σ × τ

/-- The threads of `sync_executor`, and how many segments it is handed before they are awaited. -/
structure SegmentPool where
  workers : ℕ
  chunkSize : ℕ

structure AssignmentBatch (κ σ τ : Type) where
  account : σ
  turnstile : OrderedTurnstile κ
  queue : List κ
  stage : κ → SegmentStage τ

inductive SegmentAction (κ : Type) where
  | start
  | transcribed (path : κ)
  | takeTurn (path : κ)
  | timeOut (path : κ)
  | call (path : κ)
  | finish (path : κ)

def SegmentStage.running {τ : Type} : SegmentStage τ → Bool
  | .transcribing | .waiting | .assigning _ => true
  | .queued | .finished => false

section batch
variable {κ σ τ : Type} [DecidableEq κ]

namespace AssignmentBatch
variable (s : AssignmentBatch κ σ τ)

def withStage (path : κ) (stage : SegmentStage τ) : AssignmentBatch κ σ τ :=
  { s with stage := Function.update s.stage path stage }

/-- The next segment is handed to a free thread, the first one of a chunk only once the chunk before
it has been awaited. -/
def mayStart (pool : SegmentPool) (paths : List κ) : Bool :=
  let running := paths.countP fun path => (s.stage path).running
  let started := paths.length - s.queue.length
  running < pool.workers && (started % pool.chunkSize ≠ 0 || running = 0)

/-- A segment that was processed before, has no words or raises is finished without an assignment;
one that raises in its assignment is finished on the way. -/
def step (work : SegmentWork κ σ τ) (pool : SegmentPool) (paths : List κ) :
    SegmentAction κ → AssignmentBatch κ σ τ × Bool
  | .start =>
    match s.queue with
    | [] => (s, false)
    | path :: queue =>
      if s.mayStart pool paths then
        ({ s with queue := queue }.withStage path .transcribing, true)
      else (s, false)
  | .transcribed path =>
    match s.stage path with
    | .transcribing => (s.withStage path .waiting, true)
    | _ => (s, false)
  | .takeTurn path =>
    match s.stage path with
    | .waiting =>
      let waited := s.turnstile.waitTurn path
      if waited.2 then
        ({ s with turnstile := waited.1 }.withStage path (.assigning (work.start path)), true)
      else ({ s with turnstile := waited.1 }, false)
    | _ => (s, false)
  | .timeOut path =>
    match s.stage path with
    | .waiting => (s.withStage path (.assigning (work.start path)), true)
    | _ => (s, false)
  | .call path =>
    match s.stage path with
    | .assigning own =>
      let called := work.call path (s.account, own)
      ({ s with account := called.1 }.withStage path (.assigning called.2), true)
    | _ => (s, false)
  | .finish path =>
    match s.stage path with
    | .transcribing | .assigning _ =>
      ({ s with turnstile := s.turnstile.complete path }.withStage path .finished, true)
    | _ => (s, false)

/-- A batch with nothing begun. -/
def first (account : σ) (paths : List κ) : AssignmentBatch κ σ τ where
  account := account
  turnstile := { pending := paths }
  queue := paths
  stage := fun _ => .queued

/-- The segment is at work on the account. -/
def Assigning (path : κ) : Prop := ∃ own, s.stage path = .assigning own

end AssignmentBatch

def assignmentMachine (work : SegmentWork κ σ τ) (pool : SegmentPool) (paths : List κ) :
    Machine (AssignmentBatch κ σ τ) (SegmentAction κ) Bool :=
  ⟨fun s => s.step work pool paths⟩

/-- What the account comes to if segments work on it one after another, each for some calls. -/
def assignInTurn (work : SegmentWork κ σ τ) (account : σ) (log : List (κ × ℕ)) : σ :=
  log.foldl (fun account entry =>
    ((work.call entry.1)^[entry.2] (account, work.start entry.1)).1) account

namespace AssignmentBatch
variable {s : AssignmentBatch κ σ τ} {path other : κ} {stage : SegmentStage τ}

@[simp] theorem turnstile_withStage : (s.withStage path stage).turnstile = s.turnstile := rfl

@[simp] theorem queue_withStage : (s.withStage path stage).queue = s.queue := rfl

@[simp] theorem account_withStage : (s.withStage path stage).account = s.account := rfl

@[simp] theorem stage_withStage : (s.withStage path stage).stage path = stage :=
  Function.update_self _ _ _

theorem stage_withStage_of_ne (h : other ≠ path) :
    (s.withStage path stage).stage other = s.stage other :=
  Function.update_of_ne h _ _

end AssignmentBatch

/-! ### Every run -/

/-- The turnstile knows the segments that are finished, and the threads begin in order. -/
structure Ordered (paths : List κ) (s : AssignmentBatch κ σ τ) : Prop where
  pending : s.turnstile.pending = paths.dropWhile (· ∈ s.turnstile.done)
  done : ∀ path, path ∈ s.turnstile.done ↔ s.stage path = .finished
  begun : ∃ begun, paths = begun ++ s.queue
  queued : ∀ path, s.stage path = .queued ↔ (path ∈ paths → path ∈ s.queue)

section ordered
variable {work : SegmentWork κ σ τ} {pool : SegmentPool} {paths : List κ}
  {s : AssignmentBatch κ σ τ} {path : κ} {stage : SegmentStage τ} {account : σ}

theorem Ordered.mem (h : Ordered paths s) (hstage : s.stage path ≠ .queued) : path ∈ paths := by
  by_contra hpath
  exact hstage ((h.queued path).mpr fun hmem => absurd hmem hpath)

theorem Ordered.advance (h : Ordered paths s) : s.turnstile.advance = s.turnstile := by
  have hpending : s.turnstile.pending.dropWhile (· ∈ s.turnstile.done) = s.turnstile.pending := by
    rw [h.pending]
    exact dropWhile_dropWhile fun _ hdone => hdone
  rw [OrderedTurnstile.advance, hpending]

theorem ordered_first (account : σ) (paths : List κ) :
    Ordered paths (.first account paths : AssignmentBatch κ σ τ) := by
  constructor
  · cases paths with
    | nil => rfl
    | cons path paths => simp [AssignmentBatch.first]
  · simp [AssignmentBatch.first]
  · exact ⟨[], rfl⟩
  · simp [AssignmentBatch.first]

theorem Ordered.withAccount (h : Ordered paths s) (account : σ) :
    Ordered paths { s with account := account } :=
  ⟨h.pending, h.done, h.begun, h.queued⟩

/-- A thread goes on without finishing. -/
theorem Ordered.moved (h : Ordered paths s) (hold : (s.stage path).running = true)
    (hnew : stage.running = true) : Ordered paths (s.withStage path stage) := by
  refine ⟨h.pending, fun other => ?_, h.begun, fun other => ?_⟩
  · by_cases hother : other = path
    · subst hother
      rw [AssignmentBatch.stage_withStage, AssignmentBatch.turnstile_withStage, h.done]
      constructor
      · intro hfinished
        rw [hfinished] at hold
        cases hold
      · intro hfinished
        rw [hfinished] at hnew
        cases hnew
    · rw [AssignmentBatch.stage_withStage_of_ne hother]
      exact h.done other
  · by_cases hother : other = path
    · subst hother
      rw [AssignmentBatch.stage_withStage, AssignmentBatch.queue_withStage, ← h.queued]
      constructor
      · intro hqueued
        rw [hqueued] at hnew
        cases hnew
      · intro hqueued
        rw [hqueued] at hold
        cases hold
    · rw [AssignmentBatch.stage_withStage_of_ne hother]
      exact h.queued other

theorem Ordered.finish (h : Ordered paths s) (hold : (s.stage path).running = true) :
    Ordered paths
      ({ s with turnstile := s.turnstile.complete path }.withStage path .finished) := by
  have hqueued : s.stage path ≠ .queued := by
    intro hqueued
    rw [hqueued] at hold
    cases hold
  refine ⟨?_, fun other => ?_, h.begun, fun other => ?_⟩
  · change s.turnstile.pending.dropWhile (· ∈ path :: s.turnstile.done) =
      paths.dropWhile (· ∈ path :: s.turnstile.done)
    rw [h.pending]
    apply dropWhile_dropWhile
    simp +contextual
  · change other ∈ path :: s.turnstile.done ↔ _
    by_cases hother : other = path
    · simp [hother]
    · rw [AssignmentBatch.stage_withStage_of_ne hother, List.mem_cons, h.done]
      simp [hother]
  · by_cases hother : other = path
    · subst hother
      rw [AssignmentBatch.stage_withStage]
      constructor
      · intro hfinished
        cases hfinished
      · intro hqueue
        exact absurd ((h.queued other).mpr hqueue) hqueued
    · rw [AssignmentBatch.stage_withStage_of_ne hother]
      exact h.queued other

theorem Ordered.start (hnodup : paths.Nodup) (h : Ordered paths s) {queue : List κ}
    (hqueue : s.queue = path :: queue) :
    Ordered paths ({ s with queue := queue }.withStage path .transcribing) := by
  obtain ⟨begun, hbegun⟩ := h.begun
  rw [hqueue] at hbegun
  have hpath : path ∈ paths := by simp [hbegun]
  have hnew : path ∉ queue := by
    rw [hbegun] at hnodup
    exact (List.nodup_cons.mp hnodup.of_append_right).1
  have hstage : s.stage path = .queued := (h.queued path).mpr fun _ => by simp [hqueue]
  refine ⟨h.pending, fun other => ?_, ⟨begun ++ [path], by simp [hbegun]⟩, fun other => ?_⟩
  · by_cases hother : other = path
    · subst hother
      rw [AssignmentBatch.stage_withStage]
      change other ∈ s.turnstile.done ↔ _
      rw [h.done, hstage]
      simp
    · rw [AssignmentBatch.stage_withStage_of_ne hother]
      exact h.done other
  · by_cases hother : other = path
    · subst hother
      rw [AssignmentBatch.stage_withStage]
      simp [hpath, hnew]
    · rw [AssignmentBatch.stage_withStage_of_ne hother]
      change s.stage other = .queued ↔ (other ∈ paths → other ∈ queue)
      rw [h.queued, hqueue]
      simp [hother]

theorem ordered_step (hnodup : paths.Nodup) (h : Ordered paths s) (action : SegmentAction κ) :
    Ordered paths (s.step work pool paths action).1 := by
  cases action with
  | start =>
    simp only [AssignmentBatch.step]
    cases hqueue : s.queue with
    | nil => exact h
    | cons path queue =>
      dsimp only
      split_ifs
      · exact h.start hnodup hqueue
      · exact h
  | transcribed path =>
    simp only [AssignmentBatch.step]
    cases hstage : s.stage path with
    | transcribing => exact h.moved (by rw [hstage]; rfl) rfl
    | _ => exact h
  | takeTurn path =>
    simp only [AssignmentBatch.step, OrderedTurnstile.waitTurn, h.advance]
    cases hstage : s.stage path with
    | waiting =>
      dsimp only
      split_ifs
      · exact h.moved (by rw [hstage]; rfl) rfl
      · exact h
    | _ => exact h
  | timeOut path =>
    simp only [AssignmentBatch.step]
    cases hstage : s.stage path with
    | waiting => exact h.moved (by rw [hstage]; rfl) rfl
    | _ => exact h
  | call path =>
    simp only [AssignmentBatch.step]
    cases hstage : s.stage path with
    | assigning own =>
      apply (h.withAccount _).moved
      · change (s.stage path).running = true
        rw [hstage]
        rfl
      · rfl
    | _ => exact h
  | finish path =>
    simp only [AssignmentBatch.step]
    cases hstage : s.stage path with
    | transcribing => exact h.finish (by rw [hstage]; rfl)
    | assigning own => exact h.finish (by rw [hstage]; rfl)
    | _ => exact h

/-- While the oldest segment that is left has not begun, no thread is running. -/
theorem Ordered.idle (hnodup : paths.Nodup) (h : Ordered paths s) {key : κ} {rest : List κ}
    (hsplit : paths = paths.takeWhile (· ∈ s.turnstile.done) ++ key :: rest)
    (hqueue : key ∈ s.queue) : ∀ path ∈ paths, (s.stage path).running = false := by
  obtain ⟨begun, hbegun⟩ := h.begun
  intro path hpath
  rw [hbegun] at hpath
  obtain hpath | hpath := List.mem_append.mp hpath
  · have htaken : path ∈ paths.takeWhile (· ∈ s.turnstile.done) := by
      have hcuts := hbegun.symm.trans hsplit
      obtain ⟨more, htaken, -⟩ | ⟨more, hmore, hrest⟩ := List.append_eq_append_iff.mp hcuts
      · rw [htaken]
        exact List.mem_append_left _ hpath
      · cases more with
        | nil => rwa [hmore, List.append_nil] at hpath
        | cons first more =>
          have hfirst : key = first := (List.cons.inj hrest).1
          have hbegan : key ∈ begun := by simp [hmore, hfirst]
          rw [hbegun] at hnodup
          exact absurd hqueue ((List.nodup_append.mp hnodup).2.2 key hbegan key · rfl)
    have hdone := List.mem_takeWhile_imp htaken
    rw [(h.done path).mp (of_decide_eq_true hdone)]
    rfl
  · rw [(h.queued path).mpr fun _ => hpath]
    rfl

end ordered

/-! ### Runs in which no wait runs out -/

/-- The segment at the turnstile is the only one at work, and the account is what the segments
before it and its own calls have made of it. -/
structure InTurn (work : SegmentWork κ σ τ) (account : σ) (paths : List κ)
    (s : AssignmentBatch κ σ τ) : Prop where
  turn : ∀ path, s.Assigning path → s.turnstile.pending.head? = some path
  log : ∃ log : List (κ × ℕ),
    (log.map Prod.fst).Sublist (paths.takeWhile (· ∈ s.turnstile.done)) ∧
    ((∀ path, ¬ s.Assigning path) → s.account = assignInTurn work account log) ∧
    ∀ path own, s.stage path = .assigning own → ∃ calls,
      (s.account, own) = (work.call path)^[calls] (assignInTurn work account log, work.start path)

section inTurn
variable {work : SegmentWork κ σ τ} {pool : SegmentPool} {paths : List κ}
  {s next : AssignmentBatch κ σ τ} {path other : κ} {stage : SegmentStage τ} {account : σ} {own : τ}

theorem inTurn_first (work : SegmentWork κ σ τ) (account : σ) (paths : List κ) :
    InTurn work account paths (.first account paths) := by
  constructor
  · rintro path ⟨own, hown⟩
    cases hown
  · refine ⟨[], List.nil_sublist _, fun _ => rfl, ?_⟩
    intro path own hown
    cases hown

theorem InTurn.sole (h : InTurn work account paths s) (hpath : s.Assigning path)
    (hother : s.Assigning other) : other = path := by
  have hsame : some other = some path := (h.turn other hother).symm.trans (h.turn path hpath)
  exact Option.some.inj hsame

theorem InTurn.congr (h : InTurn work account paths s) (haccount : next.account = s.account)
    (hturnstile : next.turnstile = s.turnstile)
    (hstage : ∀ path own, next.stage path = .assigning own ↔ s.stage path = .assigning own) :
    InTurn work account paths next := by
  have hassigning : ∀ path, next.Assigning path ↔ s.Assigning path :=
    fun path => exists_congr fun own => hstage path own
  obtain ⟨log, hlog, hdone, hcalls⟩ := h.log
  constructor
  · intro path hpath
    rw [hturnstile]
    exact h.turn path ((hassigning path).mp hpath)
  · refine ⟨log, by rw [hturnstile]; exact hlog, ?_, ?_⟩
    · intro hnone
      rw [haccount]
      exact hdone fun path hpath => hnone path ((hassigning path).mpr hpath)
    · intro path own hown
      rw [haccount]
      exact hcalls path own ((hstage path own).mp hown)

/-- A thread that is not at work on the account goes on to another such stage. -/
theorem InTurn.moved (h : InTurn work account paths s) (hold : ∀ own, s.stage path ≠ .assigning own)
    (hnew : ∀ own, stage ≠ .assigning own) :
    InTurn work account paths (s.withStage path stage) := by
  refine h.congr rfl rfl fun other own => ?_
  by_cases hother : other = path
  · subst hother
    rw [AssignmentBatch.stage_withStage]
    exact iff_of_false (hnew own) (hold own)
  · rw [AssignmentBatch.stage_withStage_of_ne hother]

/-- Whose turn it is, is at the turnstile, and nobody else is at work. -/
theorem InTurn.free (hordered : Ordered paths s) (h : InTurn work account paths s)
    (hstage : s.stage path = .waiting) (hturn : (s.turnstile.waitTurn path).2 = true) :
    s.turnstile.pending.head? = some path ∧ ∀ other, ¬ s.Assigning other := by
  have hhead : s.turnstile.pending.head? = some path := by
    rw [OrderedTurnstile.waitTurn, hordered.advance] at hturn
    cases hpending : s.turnstile.pending with
    | nil =>
      have hmem : path ∈ paths := hordered.mem (by rw [hstage]; simp)
      have hall := List.dropWhile_eq_nil_iff.mp (hordered.pending.symm.trans hpending) path hmem
      have hdone := (hordered.done path).mp (of_decide_eq_true hall)
      rw [hstage] at hdone
      cases hdone
    | cons key rest =>
      rw [hpending] at hturn
      have hkey : key = path := by simpa using hturn
      rw [hkey]
      rfl
  refine ⟨hhead, fun other hother => ?_⟩
  have hsame : path = other := Option.some.inj (hhead.symm.trans (h.turn other hother))
  obtain ⟨own, hown⟩ := hother
  rw [← hsame, hstage] at hown
  cases hown

theorem InTurn.takeTurn (hordered : Ordered paths s) (h : InTurn work account paths s)
    (hstage : s.stage path = .waiting) (hturn : (s.turnstile.waitTurn path).2 = true) :
    InTurn work account paths (s.withStage path (.assigning (work.start path))) := by
  obtain ⟨hhead, hnone⟩ := h.free hordered hstage hturn
  obtain ⟨log, hlog, hdone, -⟩ := h.log
  have honly : ∀ other own, (s.withStage path (.assigning (work.start path))).stage other =
      .assigning own → other = path := by
    intro other own hown
    by_contra hother
    rw [AssignmentBatch.stage_withStage_of_ne hother] at hown
    exact hnone other ⟨own, hown⟩
  constructor
  · rintro other ⟨own, hown⟩
    rw [honly other own hown]
    exact hhead
  · refine ⟨log, hlog, fun hno => ?_, fun other own hown => ?_⟩
    · exact absurd ⟨_, AssignmentBatch.stage_withStage⟩ (hno path)
    · obtain rfl := honly other own hown
      rw [AssignmentBatch.stage_withStage] at hown
      obtain rfl : work.start other = own := SegmentStage.assigning.inj hown
      exact ⟨0, congrArg (·, work.start other) (hdone hnone)⟩

theorem InTurn.call (h : InTurn work account paths s) (hstage : s.stage path = .assigning own) :
    InTurn work account paths
      ({ s with account := (work.call path (s.account, own)).1 }.withStage path
        (.assigning (work.call path (s.account, own)).2)) := by
  obtain ⟨log, hlog, -, hcalls⟩ := h.log
  have honly : ∀ other, s.Assigning other → other = path := fun _ => h.sole ⟨own, hstage⟩
  constructor
  · rintro other ⟨own', hown⟩
    by_cases hother : other = path
    · rw [hother]
      exact h.turn path ⟨own, hstage⟩
    · rw [AssignmentBatch.stage_withStage_of_ne hother] at hown
      exact h.turn other ⟨own', hown⟩
  · refine ⟨log, hlog, fun hno => ?_, fun other own' hown => ?_⟩
    · exact absurd ⟨_, AssignmentBatch.stage_withStage⟩ (hno path)
    · by_cases hother : other = path
      · subst hother
        rw [AssignmentBatch.stage_withStage] at hown
        obtain rfl := SegmentStage.assigning.inj hown
        obtain ⟨calls, hmade⟩ := hcalls other own hstage
        refine ⟨calls + 1, ?_⟩
        rw [Function.iterate_succ_apply', ← hmade]
        rfl
      · rw [AssignmentBatch.stage_withStage_of_ne hother] at hown
        exact absurd (honly other ⟨own', hown⟩) hother

/-- A segment is finished: it joins the log if it has been at work on the account. -/
theorem InTurn.finish (hordered : Ordered paths s) (h : InTurn work account paths s)
    (hunfinished : s.stage path ≠ .finished) :
    InTurn work account paths
      ({ s with turnstile := s.turnstile.complete path }.withStage path .finished) := by
  have hmore : ∀ key, decide (key ∈ s.turnstile.done) = true →
      decide (key ∈ path :: s.turnstile.done) = true := by
    simp +contextual
  have hpending : (s.turnstile.complete path).pending =
      paths.dropWhile (· ∈ path :: s.turnstile.done) := by
    change s.turnstile.pending.dropWhile (· ∈ path :: s.turnstile.done) = _
    rw [hordered.pending]
    exact dropWhile_dropWhile hmore
  obtain ⟨log, hlog, hdone, hcalls⟩ := h.log
  have hlater := hlog.trans (takeWhile_sublist_of_imp hmore)
  constructor
  · rintro other ⟨own, hown⟩
    by_cases hother : other = path
    · subst hother
      rw [AssignmentBatch.stage_withStage] at hown
      cases hown
    · rw [AssignmentBatch.stage_withStage_of_ne hother] at hown
      have hhead := h.turn other ⟨own, hown⟩
      rw [hordered.pending] at hhead
      change (s.turnstile.complete path).pending.head? = some other
      rw [hpending]
      apply head?_dropWhile_of_imp hmore hhead
      have hnot : other ∉ s.turnstile.done := by
        rw [hordered.done]
        intro hfinished
        rw [show s.stage other = .assigning own from hown] at hfinished
        cases hfinished
      simp [hother, hnot]
  · have hkept : ∀ other own, ({ s with turnstile := s.turnstile.complete path }.withStage path
        .finished).stage other = .assigning own →
          other ≠ path ∧ s.stage other = .assigning own := by
      intro other own hown
      by_cases hother : other = path
      · subst hother
        rw [AssignmentBatch.stage_withStage] at hown
        cases hown
      · rw [AssignmentBatch.stage_withStage_of_ne hother] at hown
        exact ⟨hother, hown⟩
    by_cases hassigning : s.Assigning path
    · -- the segment was at work, and nobody else is
      obtain ⟨own, hown⟩ := hassigning
      obtain ⟨calls, hmade⟩ := hcalls path own hown
      have hhead := h.turn path ⟨own, hown⟩
      rw [hordered.pending] at hhead
      refine ⟨log ++ [(path, calls)], ?_, fun _ => ?_, fun other own' hown' => ?_⟩
      · rw [List.map_append]
        have hkey : decide (path ∈ path :: s.turnstile.done) = true := by simp
        exact (hlog.append_right [path]).trans (takeWhile_append_sublist hmore hhead hkey)
      · rw [assignInTurn, List.foldl_append]
        exact congrArg Prod.fst hmade
      · obtain ⟨hother, hstage⟩ := hkept other own' hown'
        exact absurd (h.sole ⟨own, hown⟩ ⟨own', hstage⟩) hother
    · refine ⟨log, hlater, fun hnone => ?_, fun other own hown => ?_⟩
      · apply hdone
        rintro other ⟨own, hown⟩
        have hother : other ≠ path := by
          rintro rfl
          exact hassigning ⟨own, hown⟩
        exact hnone other ⟨own, (AssignmentBatch.stage_withStage_of_ne hother).trans hown⟩
      · exact hcalls other own (hkept other own hown).2

theorem inTurn_step (hordered : Ordered paths s) (h : InTurn work account paths s)
    {action : SegmentAction κ} (hpatient : ∀ path, action ≠ .timeOut path) :
    InTurn work account paths (s.step work pool paths action).1 := by
  cases action with
  | start =>
    simp only [AssignmentBatch.step]
    cases hqueue : s.queue with
    | nil => exact h
    | cons path queue =>
      have hstage : s.stage path = .queued :=
        (hordered.queued path).mpr fun _ => by simp [hqueue]
      have hqueued : InTurn work account paths { s with queue := queue } :=
        h.congr rfl rfl fun _ _ => Iff.rfl
      dsimp only
      split_ifs
      · apply hqueued.moved
        · intro own
          change s.stage path ≠ _
          rw [hstage]
          simp
        · simp
      · exact h
  | transcribed path =>
    simp only [AssignmentBatch.step]
    cases hstage : s.stage path with
    | transcribing => exact h.moved (by rw [hstage]; simp) (by simp)
    | _ => exact h
  | takeTurn path =>
    simp only [AssignmentBatch.step]
    cases hstage : s.stage path with
    | waiting =>
      dsimp only
      split_ifs with hturn
      · have hnext := h.takeTurn hordered hstage hturn
        rw [OrderedTurnstile.waitTurn, hordered.advance]
        exact hnext
      · rw [OrderedTurnstile.waitTurn, hordered.advance]
        exact h
    | _ => exact h
  | timeOut path => exact absurd rfl (hpatient path)
  | call path =>
    simp only [AssignmentBatch.step]
    cases hstage : s.stage path with
    | assigning own => exact h.call hstage
    | _ => exact h
  | finish path =>
    simp only [AssignmentBatch.step]
    cases hstage : s.stage path with
    | transcribing => exact h.finish hordered (by rw [hstage]; simp)
    | assigning own => exact h.finish hordered (by rw [hstage]; simp)
    | _ => exact h

theorem ordered_run (hnodup : paths.Nodup) (account : σ) (actions : List (SegmentAction κ)) :
    Ordered paths ((assignmentMachine work pool paths).state (.first account paths) actions) := by
  have hstep : ∀ s action, Ordered paths s →
      Ordered paths ((assignmentMachine work pool paths).step s action).1 :=
    fun _ action h => ordered_step hnodup h action
  exact Machine.invariant hstep (ordered_first account paths) actions

/-- As long as no wait runs out, one segment at a time is at work on the account, when all the older
ones are finished, and the account is what segments make of it one after another, oldest first. -/
theorem assignments_in_turn (hnodup : paths.Nodup) (account : σ) {actions : List (SegmentAction κ)}
    (hpatient : ∀ action ∈ actions, ∀ path, action ≠ .timeOut path) :
    let s := (assignmentMachine work pool paths).state (.first account paths) actions
    (∀ before path after, paths = before ++ path :: after → s.Assigning path →
      (∀ earlier ∈ before, s.stage earlier = .finished) ∧
        ∀ other, s.Assigning other → other = path) ∧
    ((∀ path, ¬ s.Assigning path) → ∃ log : List (κ × ℕ), (log.map Prod.fst).Sublist paths ∧
      (∀ path ∈ log.map Prod.fst, s.stage path = .finished) ∧
        s.account = assignInTurn work account log) := by
  intro s
  have hordered : Ordered paths s := ordered_run hnodup account actions
  have hstep : ∀ s action, Ordered paths s ∧ InTurn work account paths s →
      (∀ path, action ≠ SegmentAction.timeOut path) →
        Ordered paths ((assignmentMachine work pool paths).step s action).1 ∧
          InTurn work account paths ((assignmentMachine work pool paths).step s action).1 :=
    fun _ action h hpatient =>
      ⟨ordered_step hnodup h.1 action, inTurn_step h.1 h.2 hpatient⟩
  have hfirst : Ordered paths (.first account paths : AssignmentBatch κ σ τ) ∧
      InTurn work account paths (.first account paths) :=
    ⟨ordered_first account paths, inTurn_first work account paths⟩
  have h : InTurn work account paths s :=
    (Machine.invariant_of_mem _ hstep hfirst actions hpatient).2
  constructor
  · rintro before path after rfl hpath
    refine ⟨fun earlier hearlier => ?_, fun other hother => h.sole hpath hother⟩
    have hhead := h.turn path hpath
    rw [hordered.pending] at hhead
    have hdone := forall_before_head?_dropWhile hnodup hhead earlier hearlier
    exact (hordered.done earlier).mp (of_decide_eq_true hdone)
  · intro hnone
    obtain ⟨log, hlog, hdone, -⟩ := h.log
    refine ⟨log, hlog.trans (List.takeWhile_sublist _), fun path hpath => ?_, hdone hnone⟩
    have hfinished := List.mem_takeWhile_imp (hlog.subset hpath)
    exact (hordered.done path).mp (of_decide_eq_true hfinished)

/-- A batch that is not finished can go on without a wait that runs out: the oldest segment that is
left is never held up by the others. -/
theorem assignments_go_on (hnodup : paths.Nodup) (hworkers : 0 < pool.workers) (account : σ)
    (actions : List (SegmentAction κ)) (hpath : path ∈ paths) :
    let s := (assignmentMachine work pool paths).state (.first account paths) actions
    s.stage path ≠ .finished → ∃ action, (∀ path, action ≠ .timeOut path) ∧
      (s.step work pool paths action).2 = true := by
  intro s hunfinished
  have h : Ordered paths s := ordered_run hnodup account actions
  cases hpending : s.turnstile.pending with
  | nil =>
    have hall := List.dropWhile_eq_nil_iff.mp (h.pending.symm.trans hpending) path hpath
    exact absurd ((h.done path).mp (of_decide_eq_true hall)) hunfinished
  | cons key rest =>
    have hsplit : paths = paths.takeWhile (· ∈ s.turnstile.done) ++ key :: rest := by
      rw [← hpending, h.pending, List.takeWhile_append_dropWhile]
    have hkey : s.stage key ≠ .finished := by
      have hnot := List.head?_dropWhile_not (· ∈ s.turnstile.done) paths
      rw [← h.pending, hpending] at hnot
      intro hfinished
      have hdone := (h.done key).mpr hfinished
      simp [hdone] at hnot
    cases hstage : s.stage key with
    | finished => exact absurd hstage hkey
    | transcribing =>
      refine ⟨.finish key, by simp, ?_⟩
      simp [AssignmentBatch.step, hstage]
    | waiting =>
      refine ⟨.takeTurn key, by simp, ?_⟩
      simp [AssignmentBatch.step, hstage, OrderedTurnstile.waitTurn, h.advance, hpending]
    | assigning own =>
      refine ⟨.finish key, by simp, ?_⟩
      simp [AssignmentBatch.step, hstage]
    | queued =>
      have hqueue : key ∈ s.queue := (h.queued key).mp hstage (by rw [hsplit]; simp)
      have hidle : ∀ path ∈ paths, (s.stage path).running = false :=
        h.idle hnodup hsplit hqueue
      have hcount : (paths.countP fun path => (s.stage path).running) = 0 := by
        rw [List.countP_eq_zero]
        intro path hpath
        simp [hidle path hpath]
      have hmay : s.mayStart pool paths = true := by
        simp [AssignmentBatch.mayStart, hcount, hworkers]
      refine ⟨.start, by simp, ?_⟩
      cases hfirst : s.queue with
      | nil =>
        rw [hfirst] at hqueue
        cases hqueue
      | cons path queue => simp [AssignmentBatch.step, hfirst, hmay]

end inTurn

end batch

/-- Each segment reads the account, and then writes what it has read and itself. -/
def rewriteWork : SegmentWork ℕ (List ℕ) (Option (List ℕ)) where
  start _ := none
  call
    | _, (account, none) => (account, some account)
    | path, (_, some read) => (read ++ [path], some read)

/-- The second segment is transcribed first, and has to wait for the first one. -/
def rewriteActions : List (SegmentAction ℕ) :=
  [.start, .start, .transcribed 20, .takeTurn 20, .transcribed 10, .takeTurn 10, .call 10,
    .takeTurn 20, .call 10, .finish 10, .takeTurn 20, .call 20, .call 20, .finish 20]

def rewriteBatch (actions : List (SegmentAction ℕ)) :
    AssignmentBatch ℕ (List ℕ) (Option (List ℕ)) :=
  (assignmentMachine rewriteWork ⟨16, 5⟩ [10, 20]).state (.first [] [10, 20]) actions

theorem assignments_in_turn_rewriteActions :
    ∃ log : List (ℕ × ℕ), (log.map Prod.fst).Sublist [10, 20] ∧
      (rewriteBatch rewriteActions).account = assignInTurn rewriteWork [] log := by
  have hnodup : [10, 20].Nodup := by decide
  have hpatient : ∀ action ∈ rewriteActions, ∀ path, action ≠ .timeOut path := by
    simp [rewriteActions]
  have hidle : ∀ path, ¬ (rewriteBatch rewriteActions).Assigning path := by
    rintro path ⟨own, hown⟩
    have hordered : Ordered [10, 20] (rewriteBatch rewriteActions) :=
      ordered_run hnodup [] rewriteActions
    have hpath : path ∈ [10, 20] := hordered.mem (by rw [hown]; simp)
    obtain rfl | rfl : path = 10 ∨ path = 20 := by simpa using hpath
    · cases hown
    · cases hown
  obtain ⟨-, hserial⟩ := assignments_in_turn hnodup [] hpatient
  obtain ⟨log, hlog, -, haccount⟩ := hserial hidle
  exact ⟨log, hlog, haccount⟩

theorem assignments_go_on_rewriteActions :
    ∃ action, (∀ path, action ≠ .timeOut path) ∧
      ((rewriteBatch (rewriteActions.take 4)).step rewriteWork ⟨16, 5⟩ [10, 20] action).2 =
        true := by
  have hnodup : [10, 20].Nodup := by decide
  have hpath : 20 ∈ [10, 20] := by decide
  refine assignments_go_on hnodup (by decide) [] (rewriteActions.take 4) hpath ?_
  intro hfinished
  cases hfinished

/-- Once a wait has run out, two segments may be at work at once, and one write is lost. -/
example : (rewriteBatch [.start, .start, .transcribed 20, .timeOut 20, .call 20, .transcribed 10,
    .takeTurn 10, .call 10, .call 10, .call 20]).account = [20] := by
  rfl

end Omi.Sync
