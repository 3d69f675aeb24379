import Mathlib.Order.WellFounded

/-! Loops that run other loops to the end before they go on: what a turn leads to, which turns are
reached, and when the whole finishes. -/
namespace Omi.Foundation

/-- One turn of a loop: it is left, the next turn follows, or another loop is run first and the
next turn depends on how that one ends. -/
inductive Turn (F O : Type*) where
  | left (outcome : O)
  | next (frame : F)
  | call (inner : F) (resume : O → F)

variable {F O : Type*} (turn : F → Turn F O)

/-- How a loop ends, if the fuel is enough for its turns. -/
def runLoop : ℕ → F → Option O
  | 0, _ => none
  | fuel + 1, frame =>
    match turn frame with
    | .left outcome => some outcome
    | .next frame => runLoop fuel frame
    | .call inner resume => (runLoop fuel inner).bind fun outcome => runLoop fuel (resume outcome)

def Ends (frame : F) (outcome : O) : Prop := ∃ fuel, runLoop turn fuel frame = some outcome

def Finishes (frame : F) : Prop := ∃ outcome, Ends turn frame outcome

/-- The next turn of the same loop. -/
inductive Follows (frame : F) : F → Prop
  | next {later : F} (hturn : turn frame = .next later) : Follows frame later
  | resumed {inner : F} {resume : O → F} {outcome : O} (hturn : turn frame = .call inner resume)
    (hends : Ends turn inner outcome) : Follows frame (resume outcome)

/-- The turns that are reached from one, those of inner loops included. -/
inductive Reaches : F → F → Prop
  | self (frame : F) : Reaches frame frame
  | follows {frame next later : F} (hfollows : Follows turn frame next)
    (hreaches : Reaches next later) : Reaches frame later
  | inside {frame inner later : F} {resume : O → F} (hturn : turn frame = .call inner resume)
    (hreaches : Reaches inner later) : Reaches frame later

variable {turn} {frame later inner : F} {outcome : O} {fuel fuel' : ℕ}

theorem runLoop_mono (h : runLoop turn fuel frame = some outcome) (hle : fuel ≤ fuel') :
    runLoop turn fuel' frame = some outcome := by
  induction fuel generalizing fuel' frame outcome with
  | zero => cases h
  | succ fuel ih =>
    obtain ⟨fuel', rfl⟩ := Nat.exists_eq_add_of_lt (Nat.lt_of_succ_le hle)
    rw [runLoop] at h ⊢
    cases hturn : turn frame with
    | left =>
      rw [hturn] at h
      exact h
    | next later =>
      rw [hturn] at h
      exact ih h (Nat.le_add_right _ _)
    | call inner resume =>
      rw [hturn] at h
      obtain ⟨first, hinner, hrest⟩ := Option.bind_eq_some_iff.mp h
      dsimp only
      rw [ih hinner (Nat.le_add_right _ _)]
      exact ih hrest (Nat.le_add_right _ _)

theorem Ends.left (hturn : turn frame = .left outcome) : Ends turn frame outcome :=
  ⟨1, by rw [runLoop, hturn]⟩

theorem Ends.next (hturn : turn frame = .next later) (h : Ends turn later outcome) :
    Ends turn frame outcome := by
  obtain ⟨fuel, hrun⟩ := h
  exact ⟨fuel + 1, by rw [runLoop, hturn]; exact hrun⟩

theorem Ends.call {resume : O → F} {first : O} (hturn : turn frame = .call inner resume)
    (hinner : Ends turn inner first) (h : Ends turn (resume first) outcome) :
    Ends turn frame outcome := by
  obtain ⟨fuel, hfirst⟩ := hinner
  obtain ⟨fuel', hrest⟩ := h
  refine ⟨max fuel fuel' + 1, ?_⟩
  rw [runLoop, hturn]
  dsimp only
  rw [runLoop_mono hfirst (le_max_left _ _)]
  exact runLoop_mono hrest (le_max_right _ _)

/-- The rule of termination: where every turn reached leads down, the loop finishes. -/
theorem finishes_of_wellFounded {below : F → F → Prop} (hwf : WellFounded below)
    (hfollows : ∀ reached, Reaches turn frame reached →
      ∀ later, Follows turn reached later → below later reached)
    (hinner : ∀ reached, Reaches turn frame reached →
      ∀ inner resume, turn reached = .call inner resume → below inner reached) :
    Finishes turn frame := by
  induction frame using hwf.induction with
  | h frame ih =>
    have hfrom : ∀ later, Follows turn frame later → Finishes turn later := by
      intro later hlater
      apply ih later (hfollows frame (.self frame) later hlater)
      · exact fun reached hreached => hfollows reached (.follows hlater hreached)
      · exact fun reached hreached => hinner reached (.follows hlater hreached)
    cases hturn : turn frame with
    | left outcome => exact ⟨outcome, .left hturn⟩
    | next later =>
      obtain ⟨outcome, hends⟩ := hfrom later (.next hturn)
      exact ⟨outcome, hends.next hturn⟩
    | call inner resume =>
      have hcalled : Finishes turn inner := by
        apply ih inner (hinner frame (.self frame) inner resume hturn)
        · exact fun reached hreached => hfollows reached (.inside hturn hreached)
        · exact fun reached hreached => hinner reached (.inside hturn hreached)
      obtain ⟨first, hfirst⟩ := hcalled
      obtain ⟨outcome, hends⟩ := hfrom (resume first) (.resumed hturn hfirst)
      exact ⟨outcome, .call hturn hfirst hends⟩

/-- A turn that leads back to itself does so forever. -/
theorem not_finishes_of_cycle (hturn : turn frame = .next frame) : ¬ Finishes turn frame := by
  rintro ⟨outcome, fuel, hrun⟩
  induction fuel with
  | zero => cases hrun
  | succ fuel ih =>
    rw [runLoop, hturn] at hrun
    exact ih hrun

end Omi.Foundation
