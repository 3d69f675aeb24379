import Mathlib.Data.List.Basic
import Mathlib.Order.Lattice

/-! A cursor that several workers move over ordered rows: each reads it, works through the rows
behind it, and moves it on if nobody has moved it since. No cursor stands for the front of the
rows. -/
namespace Omi.Foundation

/-- A position, with the number of moves before it. -/
structure SharedCursor (κ : Type*) where
  position : Option κ := none
  generation : ℕ := 0

/-- A move of the cursor, with what was done on the way. -/
structure CursorMove (κ τ : Type*) where
  start : Option κ
  next : Option κ
  work : τ

/-- Moves that follow one another. -/
def Chained {κ τ : Type*} : Option κ → List (CursorMove κ τ) → Option κ → Prop
  | start, [], stop => start = stop
  | start, move :: moves, stop => move.start = start ∧ Chained move.next moves stop

variable {κ τ : Type*} {start stop : Option κ} {move : CursorMove κ τ}
  {moves before after : List (CursorMove κ τ)}

theorem Chained.concat (h : Chained start moves stop) (hmove : move.start = stop) :
    Chained start (moves ++ [move]) move.next := by
  induction moves generalizing start with
  | nil =>
    have hstart : start = stop := h
    exact ⟨hmove.trans hstart.symm, rfl⟩
  | cons first moves ih => exact ⟨h.1, ih h.2⟩

/-- Part of a chain is one. -/
theorem Chained.split (h : Chained start (before ++ moves ++ after) stop) :
    ∃ first last, Chained first moves last := by
  induction before generalizing start with
  | cons _ before ih => exact ih h.2
  | nil =>
    refine ⟨start, ?_⟩
    rw [List.nil_append] at h
    induction moves generalizing start with
    | nil => exact ⟨start, rfl⟩
    | cons move moves ih =>
      obtain ⟨last, hlast⟩ := ih h.2
      exact ⟨last, h.1, hlast⟩

theorem Chained.stop_eq (h : Chained start moves stop) {back : Option κ}
    (hback : moves.getLast?.map CursorMove.next = some back) : stop = back := by
  induction moves generalizing start with
  | nil => cases hback
  | cons move moves ih =>
    cases moves with
    | nil =>
      have hstop : move.next = stop := h.2
      rw [← hstop]
      exact Option.some.inj hback
    | cons second moves =>
      rw [List.getLast?_cons_cons] at hback
      exact ih h.2 hback

/-- A chain begins where its first move does and ends where its last one does. -/
theorem Chained.of_ends (h : Chained start moves stop) {front back : Option κ}
    (hfront : moves.head?.map CursorMove.start = some front)
    (hback : moves.getLast?.map CursorMove.next = some back) : Chained front moves back := by
  obtain rfl := h.stop_eq hback
  cases moves with
  | nil => cases hfront
  | cons move moves =>
    have hstart : move.start = front := Option.some.inj hfront
    exact ⟨hstart, h.2⟩

section finds
variable [LinearOrder κ] {place : κ} {found : τ → Prop}

/-- On the way from before a place back to the front, one move finds what every move finds that
passes it. -/
theorem Chained.finds_behind (h : Chained start moves none) (hne : moves ≠ [])
    (hstart : ∀ position ∈ start, position < place)
    (hpass : ∀ move ∈ moves, (∀ start ∈ move.start, start < place) →
      (∀ next ∈ move.next, place ≤ next) → found move.work) :
    ∃ move ∈ moves, found move.work := by
  induction moves generalizing start with
  | nil => exact absurd rfl hne
  | cons move moves ih =>
    obtain ⟨hfirst, hrest⟩ := List.forall_mem_cons.mp hpass
    by_cases hnext : ∀ next ∈ move.next, place ≤ next
    · rw [← h.1] at hstart
      exact ⟨move, List.mem_cons_self, hfirst hstart hnext⟩
    · -- the move stopped short of the place, and another one follows
      push Not at hnext
      obtain ⟨next, hmem, hlt⟩ := hnext
      have hsome : moves ≠ [] := by
        rintro rfl
        have hstop : move.next = none := h.2
        rw [hstop] at hmem
        cases hmem
      have hbehind : ∀ position ∈ move.next, position < place := by
        intro position hposition
        rwa [Option.mem_unique hposition hmem]
      obtain ⟨later, hlater, hfound⟩ := ih h.2 hsome hbehind hrest
      exact ⟨later, List.mem_cons_of_mem _ hlater, hfound⟩

/-- In a full turn of the cursor, from the front to where it goes back to the front, one move finds
what every move finds that passes it. -/
theorem Chained.finds (h : Chained none moves none) (hne : moves ≠ [])
    (hpass : ∀ move ∈ moves, (∀ start ∈ move.start, start < place) →
      (∀ next ∈ move.next, place ≤ next) → found move.work) :
    ∃ move ∈ moves, found move.work :=
  h.finds_behind hne (by simp) hpass

end finds

/-! ### Workers -/

/-- The cursor, what each worker read of it that has not tried to move it yet, and its moves. -/
structure CursorWorkers (κ τ : Type*) where
  cursor : SharedCursor κ := {}
  readers : List (SharedCursor κ) := []
  moves : List (CursorMove κ τ) := []

inductive CursorAction (κ τ : Type*) where
  | read
  | readFails
  | advance (reader : ℕ) (next : Option κ) (work : τ)
  | giveUp (reader : ℕ)

namespace CursorWorkers

/-- Move the cursor on if it has the generation that was read. -/
def moveOn (workers : CursorWorkers κ τ) (seen : SharedCursor κ) (next : Option κ) (work : τ) :
    CursorWorkers κ τ :=
  if workers.cursor.generation = seen.generation then
    { workers with
      cursor := ⟨next, workers.cursor.generation + 1⟩
      moves := workers.moves ++ [⟨seen.position, next, work⟩] }
  else workers

/-- A worker whose read fails goes on from the front, as if nobody had ever moved the cursor. -/
def step (workers : CursorWorkers κ τ) : CursorAction κ τ → CursorWorkers κ τ
  | .read => { workers with readers := workers.readers ++ [workers.cursor] }
  | .readFails => { workers with readers := workers.readers ++ [{}] }
  | .giveUp reader => { workers with readers := workers.readers.eraseIdx reader }
  | .advance reader next work =>
    match workers.readers[reader]? with
    | none => workers
    | some seen =>
      { workers with readers := workers.readers.eraseIdx reader }.moveOn seen next work

/-- The moves are a chain up to the cursor, and who read its generation read its position. -/
structure Sound (workers : CursorWorkers κ τ) : Prop where
  chained : Chained none workers.moves workers.cursor.position
  generation : workers.cursor.generation = workers.moves.length
  current : ∀ seen ∈ workers.readers, seen.generation = workers.cursor.generation →
    seen.position = workers.cursor.position
  past : ∀ seen ∈ workers.readers, seen.generation ≤ workers.cursor.generation

variable {workers : CursorWorkers κ τ}

theorem Sound.add_reader (h : workers.Sound) {seen : SharedCursor κ}
    (hcurrent : seen.generation = workers.cursor.generation →
      seen.position = workers.cursor.position)
    (hpast : seen.generation ≤ workers.cursor.generation) :
    Sound { workers with readers := workers.readers ++ [seen] } := by
  refine ⟨h.chained, h.generation, ?_, ?_⟩
  · intro other hother
    obtain hold | hnew := List.mem_append.mp hother
    · exact h.current other hold
    · obtain rfl := List.mem_singleton.mp hnew
      exact hcurrent
  · intro other hother
    obtain hold | hnew := List.mem_append.mp hother
    · exact h.past other hold
    · obtain rfl := List.mem_singleton.mp hnew
      exact hpast

theorem Sound.drop_reader (h : workers.Sound) (reader : ℕ) :
    Sound { workers with readers := workers.readers.eraseIdx reader } := by
  refine ⟨h.chained, h.generation, ?_, ?_⟩
  · exact fun seen hseen => h.current seen (List.mem_of_mem_eraseIdx hseen)
  · exact fun seen hseen => h.past seen (List.mem_of_mem_eraseIdx hseen)

/-- A move that is made starts where the one before ended. -/
theorem Sound.moveOn (h : workers.Sound) {seen : SharedCursor κ} (next : Option κ) (work : τ)
    (hcurrent : seen.generation = workers.cursor.generation →
      seen.position = workers.cursor.position) : (workers.moveOn seen next work).Sound := by
  unfold CursorWorkers.moveOn
  split_ifs with hgeneration
  · have hstart := hcurrent hgeneration.symm
    constructor
    · exact h.chained.concat hstart
    · simp [h.generation]
    · intro other hother heq
      have hpast := h.past other hother
      have heq : other.generation = workers.cursor.generation + 1 := heq
      omega
    · intro other hother
      exact Nat.le_trans (h.past other hother) (Nat.le_succ _)
  · exact h

theorem Sound.step (h : workers.Sound) (action : CursorAction κ τ) :
    (workers.step action).Sound := by
  cases action with
  | read => exact h.add_reader (fun _ => rfl) (Nat.le_refl _)
  | readFails =>
    refine h.add_reader ?_ (Nat.zero_le _)
    intro hfirst
    -- the generation is that of a cursor that was never moved
    have hnone : workers.moves = [] := by
      rw [← List.length_eq_zero_iff, ← h.generation]
      exact hfirst.symm
    have hchained := h.chained
    rw [hnone] at hchained
    exact hchained
  | giveUp reader => exact h.drop_reader reader
  | advance reader next work =>
    simp only [CursorWorkers.step]
    cases hseen : workers.readers[reader]? with
    | none => exact h
    | some seen =>
      have hmem := List.mem_of_getElem? hseen
      exact (h.drop_reader reader).moveOn next work (h.current seen hmem)

theorem sound_first : ({} : CursorWorkers κ τ).Sound := by
  constructor <;> simp [Chained]

end CursorWorkers

end Omi.Foundation
