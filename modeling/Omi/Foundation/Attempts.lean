import Mathlib

/-! Steps that can raise at any call and leave behind the state that they had reached: what
such a step keeps however it ends, and what a loop of them comes to. -/
namespace Omi.Foundation

universe u v

/-- The end of a step that may raise: the error is the state in which it stopped. -/
abbrev Attempt (σ : Type u) : Type v → Type (max u v) := Except σ

namespace Attempt
variable {σ τ α : Type u}

/-- The state a step leaves, raised or not: what a caller sees that only logs the error. -/
def final : Attempt σ σ → σ
  | .ok state => state
  | .error state => state

@[simp] theorem final_ok (state : σ) : final (.ok state : Attempt σ σ) = state := rfl

@[simp] theorem final_error (state : σ) : final (.error state : Attempt σ σ) = state := rfl

/-- A call that changes nothing of the state, and may raise. -/
def raising (raises : Bool) (state : σ) : Attempt σ σ :=
  if raises then .error state else .ok state

theorem raising_eq_ok_iff {raises : Bool} {state next : σ} :
    raising raises state = .ok next ↔ raises = false ∧ next = state := by
  unfold raising
  cases raises
  · simp [eq_comm]
  · simp

@[simp] theorem final_raising (raises : Bool) (state : σ) :
    (raising raises state).final = state := by
  unfold raising
  split_ifs <;> rfl

theorem raising_bind (raises : Bool) (state : σ) (next : σ → Attempt σ α) :
    raising raises state >>= next = if raises then .error state else next state := by
  unfold raising
  split_ifs <;> rfl

/-- A call that changes nothing does not show in the state that a step ends in. -/
theorem final_bind_raising (step : Attempt σ σ) (raises : Bool) :
    (step >>= raising raises).final = step.final := by
  cases step with
  | error stopped => rfl
  | ok reached => exact final_raising raises reached

/-- The step leaves what `view` shows of the state as it was, raised or not. -/
def Fixes (view : σ → τ) (step : σ → Attempt σ σ) : Prop :=
  ∀ state, view (step state).final = view state

section fixes
variable {view : σ → τ} {step next : σ → Attempt σ σ}

theorem Fixes.ok (h : Fixes view step) {state end' : σ} (hend : step state = .ok end') :
    view end' = view state := by
  have hfinal := h state
  rw [hend] at hfinal
  exact hfinal

theorem Fixes.raising (view : σ → τ) (raises : Bool) : Fixes view (raising raises) := by
  intro state
  rw [final_raising]

theorem Fixes.bind (h : Fixes view step) (hnext : Fixes view next) :
    Fixes view fun state => step state >>= next := by
  intro state
  have hstep := h state
  show view (step state >>= next).final = view state
  cases hend : step state with
  | error stopped =>
    rw [hend] at hstep
    exact hstep
  | ok reached =>
    rw [hend] at hstep
    exact (hnext reached).trans hstep

/-- A loop keeps what each of its rounds keeps. -/
theorem Fixes.foldlM {round : σ → α → Attempt σ σ} (items : List α)
    (h : ∀ item ∈ items, Fixes view fun state => round state item) :
    Fixes view fun state => items.foldlM round state := by
  induction items with
  | nil =>
    intro state
    rfl
  | cons item items ih =>
    have hfirst := h item List.mem_cons_self
    have hrest := ih fun other hother => h other (List.mem_cons_of_mem _ hother)
    intro state
    show view ((item :: items).foldlM round state).final = view state
    rw [List.foldlM_cons]
    exact hfirst.bind hrest state

end fixes

/-- A loop ends well exactly when, round after round, every round ends well. -/
theorem foldlM_cons_eq_ok_iff {round : σ → α → Attempt σ σ} {item : α} {items : List α}
    {state last : σ} :
    (item :: items).foldlM round state = .ok last ↔
      ∃ next, round state item = .ok next ∧ items.foldlM round next = .ok last := by
  rw [List.foldlM_cons]
  cases round state item with
  | error stopped =>
    constructor
    · intro h
      cases h
    · rintro ⟨next, hnext, -⟩
      cases hnext
  | ok next =>
    constructor
    · intro h
      exact ⟨next, rfl, h⟩
    · rintro ⟨other, hother, hrest⟩
      cases hother
      exact hrest

end Attempt

end Omi.Foundation
