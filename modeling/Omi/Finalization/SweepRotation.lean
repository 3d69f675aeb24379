import Omi.Finalization.Sweep
import Omi.Foundation.SharedCursor

/-! Sweeps of several pods over one persisted cursor: whatever their order, each full turn of the
cursor finds the documents that stay candidates, as long as no sweep that comes to the end is full. -/
namespace Omi.Finalization
open Omi.Foundation

section
variable {ρ α : Type}

/-- What a sweep meets: the time it begins at, its limit, what its queries give one after another, and
whether the document at its cursor is still there. -/
structure SweepWorld (ρ : Type) where
  now : ℤ
  limit : ℤ
  rows : ℕ → List ρ
  resumeExists : Bool

/-- A sweep that has moved the cursor. -/
structure SweepRound (ρ α : Type) where
  world : SweepWorld ρ
  result : Sweep α

/-- What a pod does: read the cursor, or fail to, sweep from what it read and move the cursor, or
stop before it has. -/
inductive SweepAction (ρ : Type) where
  | read
  | readFails
  | sweep (pod : ℕ) (world : SweepWorld ρ)
  | stop (pod : ℕ)

variable (query : ℤ → SweepQuery ρ α)

def SweepWorld.sweepFrom (world : SweepWorld ρ) (position : Option DocPath) : Sweep α :=
  sweep (query world.now) world.limit world.rows position world.resumeExists

/-- An action as one on the cursor document. -/
def SweepAction.onCursor (pods : CursorWorkers DocPath (SweepRound ρ α)) :
    SweepAction ρ → CursorAction DocPath (SweepRound ρ α)
  | .read => .read
  | .readFails => .readFails
  | .stop pod => .giveUp pod
  | .sweep pod world =>
    let result := world.sweepFrom query (pods.readers[pod]?.getD {}).position
    .advance pod result.resumeAfterPath ⟨world, result⟩

/-- `_advance_stale_processing_sweep_cursor_txn` writes the cursor only under the generation that the
pod has read. -/
def sweepStep (pods : CursorWorkers DocPath (SweepRound ρ α)) (action : SweepAction ρ) :
    CursorWorkers DocPath (SweepRound ρ α) :=
  pods.step (action.onCursor query pods)

def sweepRun (actions : List (SweepAction ρ)) : CursorWorkers DocPath (SweepRound ρ α) :=
  actions.foldl (sweepStep query) {}

/-- A move of the cursor is what a sweep from its start has given. -/
def Swept (move : CursorMove DocPath (SweepRound ρ α)) : Prop :=
  move.work.result = move.work.world.sweepFrom query move.start ∧
    move.next = move.work.result.resumeAfterPath

variable {query} {pods : CursorWorkers DocPath (SweepRound ρ α)}

theorem swept_step (h : ∀ move ∈ pods.moves, Swept query move) (action : SweepAction ρ) :
    ∀ move ∈ (sweepStep query pods action).moves, Swept query move := by
  cases action with
  | read => exact h
  | readFails => exact h
  | stop pod => exact h
  | sweep pod world =>
    simp only [sweepStep, SweepAction.onCursor, CursorWorkers.step]
    cases hseen : pods.readers[pod]? with
    | none => exact h
    | some seen =>
      simp only [CursorWorkers.moveOn]
      split_ifs
      · intro move hmove
        obtain hold | hnew := List.mem_append.mp hmove
        · exact h move hold
        · obtain rfl := List.mem_singleton.mp hnew
          exact ⟨rfl, rfl⟩
      · exact h

/-- The moves of every run follow one another, and are what their sweeps have given. -/
theorem sweepRun_sound (actions : List (SweepAction ρ)) :
    (sweepRun query actions).Sound ∧ ∀ move ∈ (sweepRun query actions).moves, Swept query move := by
  have hall : ∀ {pods : CursorWorkers DocPath (SweepRound ρ α)}, pods.Sound →
      (∀ move ∈ pods.moves, Swept query move) →
        (actions.foldl (sweepStep query) pods).Sound ∧
          ∀ move ∈ (actions.foldl (sweepStep query) pods).moves, Swept query move := by
    induction actions with
    | nil => exact fun hsound hswept => ⟨hsound, hswept⟩
    | cons action actions ih =>
      exact fun hsound hswept => ih (hsound.step _) (swept_step hswept action)
  exact hall CursorWorkers.sound_first (by simp)

/-- A document is in a query whenever a sweep sends it, and a candidate at the time of the sweep. -/
structure Lasting (query : ℤ → SweepQuery ρ α) (row : ρ) (candidate : α)
    (world : SweepWorld ρ) : Prop where
  rows : ∀ pages, row ∈ world.rows pages
  paths : ∀ pages, ((world.rows pages).map (query world.now).path).Nodup
  candidate : (query world.now).candidate row = some candidate

/-- Pods sweep in any order while documents come, change and go. From where the cursor stands at the
front to where it goes back there, one of the sweeps that moved it hands out each document that is a
candidate for all of them, unless one that came to the end was full. -/
theorem rotation_finds {actions : List (SweepAction ρ)} {place : DocPath} {row : ρ} {candidate : α}
    {before rotation after : List (CursorMove DocPath (SweepRound ρ α))}
    (hmoves : (sweepRun query actions).moves = before ++ rotation ++ after)
    (hstart : rotation.head?.map CursorMove.start = some none)
    (hstop : rotation.getLast?.map CursorMove.next = some none)
    (hplace : ∀ now, (query now).path row = place)
    (hlasting : ∀ move ∈ rotation, Lasting query row candidate move.work.world)
    (hroom : ∀ move ∈ rotation, move.next = none →
      move.work.result.candidates.length < move.work.world.limit) :
    ∃ move ∈ rotation, candidate ∈ move.work.result.candidates := by
  obtain ⟨hsound, hswept⟩ : (sweepRun query actions).Sound ∧
      ∀ move ∈ (sweepRun query actions).moves, Swept query move := sweepRun_sound actions
  have hchained := hsound.chained
  rw [hmoves] at hchained
  obtain ⟨first, last, hturn⟩ := hchained.split
  have hturn := hturn.of_ends hstart hstop
  have hne : rotation ≠ [] := by
    rintro rfl
    cases hstart
  let found : SweepRound ρ α → Prop := fun round => candidate ∈ round.result.candidates
  have hpass : ∀ move ∈ rotation, (∀ start ∈ move.start, start < place) →
      (∀ next ∈ move.next, place ≤ next) → found move.work := by
    intro move hmove hahead hpass
    have hmem : move ∈ (sweepRun query actions).moves := by
      rw [hmoves]
      exact List.mem_append_left _ (List.mem_append_right _ hmove)
    obtain ⟨hresult, hnext⟩ := hswept move hmem
    obtain ⟨hrows, hpaths, hcandidate⟩ := hlasting move hmove
    have hroom := hroom move hmove
    rw [hnext] at hpass hroom
    change candidate ∈ move.work.result.candidates
    rw [hresult] at hpass hroom ⊢
    rw [← hplace move.work.world.now] at hahead hpass
    exact sweep_finds hrows hpaths hcandidate hahead hpass hroom
  exact hturn.finds hne hpass

def strandedRow : ProcessingRow where
  path := ["users", "joy", "conversations", "b"]
  processingAdmittedAt := some 0

/-- Three conversations in processing: one that is deferred, a stranded one and a fresh one. -/
def processingRows : List ProcessingRow :=
  [{ path := ["users", "joy", "conversations", "a"], deferred := true }, strandedRow,
    { path := ["users", "joy", "conversations", "c"], processingAdmittedAt := some 900 }]

def processingWorld : SweepWorld ProcessingRow := ⟨1000, 1, fun _ => processingRows, true⟩

/-- Two pods begin together, and the second one is late to move the cursor. -/
def processingSweeps : List (SweepAction ProcessingRow) :=
  [.read, .read, .sweep 0 processingWorld, .sweep 0 processingWorld, .read,
    .sweep 0 processingWorld]

theorem rotation_finds_processing :
    ∃ move ∈ (sweepRun (orphanSweep 300) processingSweeps).moves,
      ⟨"joy", "b", some 0, false⟩ ∈ move.work.result.candidates := by
  have hlasting : Lasting (orphanSweep 300) strandedRow ⟨"joy", "b", some 0, false⟩
      processingWorld := by
    constructor
    · intro pages
      simp [processingWorld, processingRows]
    · intro pages
      simp [processingWorld, processingRows, orphanSweep, strandedRow]
    · decide
  have hmoves : (sweepRun (orphanSweep 300) processingSweeps).moves = [] ++
      [⟨none, some strandedRow.path, processingWorld,
          ⟨[⟨"joy", "b", some 0, false⟩], some strandedRow.path, false⟩⟩,
        ⟨some strandedRow.path, none, processingWorld, ⟨[], none, true⟩⟩] ++ [] := by
    rfl
  have hplace : ∀ now, (orphanSweep 300 now).path strandedRow = strandedRow.path := fun _ => rfl
  rw [hmoves]
  refine rotation_finds hmoves rfl rfl hplace ?_ ?_
  · simp [hlasting]
  · simp [processingWorld]

end

end Omi.Finalization
