import Mathlib.Data.List.Basic

/-! Runs of a step function under a condition on each step, and logs each of whose events is
allowed by those before it. -/
namespace Omi.Foundation

section runs
variable {σ α : Type*} {step : σ → α → σ}

/-- Every step of the run, each from the state it is taken in, meets the condition. -/
def EveryStep (step : σ → α → σ) (condition : σ → α → Prop) (state : σ) : List α → Prop
  | [] => True
  | action :: rest => condition state action ∧ EveryStep step condition (step state action) rest

/-- Whether every step of a run meets a decidable condition. -/
instance EveryStep.decidable {condition : σ → α → Prop}
    [decide : ∀ state action, Decidable (condition state action)] :
    ∀ state actions, Decidable (EveryStep step condition state actions)
  | _, [] => isTrue trivial
  | state, action :: rest =>
    @instDecidableAnd _ _ (decide state action)
      (EveryStep.decidable (step state action) rest)

/-- What each step that meets the condition keeps holds after a run of such steps. -/
theorem EveryStep.invariant {condition : σ → α → Prop} {state : σ} {actions : List α}
    (hevery : EveryStep step condition state actions) {holds : σ → Prop} (hstart : holds state)
    (hstep : ∀ state action, holds state → condition state action → holds (step state action)) :
    holds (actions.foldl step state) := by
  induction actions generalizing state with
  | nil => exact hstart
  | cons action rest ih =>
    obtain ⟨hcondition, hrest⟩ := hevery
    exact ih hrest (hstep state action hstart hcondition)

/-- A condition that follows from another step by step follows along the run. -/
theorem EveryStep.imp {condition other : σ → α → Prop} {state : σ} {actions : List α}
    (hevery : EveryStep step condition state actions)
    (himp : ∀ state action, condition state action → other state action) :
    EveryStep step other state actions := by
  induction actions generalizing state with
  | nil => trivial
  | cons action rest ih =>
    obtain ⟨hcondition, hrest⟩ := hevery
    exact ⟨himp state action hcondition, ih hrest⟩

/-- What each step that meets the condition keeps holds before every step. -/
theorem EveryStep.guarded {condition : σ → α → Prop} {state : σ} {actions : List α}
    (hevery : EveryStep step condition state actions) {holds : σ → Prop} (hstart : holds state)
    (hstep : ∀ state action, holds state → condition state action → holds (step state action)) :
    EveryStep step (fun state action => holds state ∧ condition state action) state actions := by
  induction actions generalizing state with
  | nil => trivial
  | cons action rest ih =>
    obtain ⟨hcondition, hrest⟩ := hevery
    exact ⟨⟨hstart, hcondition⟩, ih hrest (hstep state action hstart hcondition)⟩

theorem EveryStep.and {condition other : σ → α → Prop} {state : σ} {actions : List α}
    (hevery : EveryStep step condition state actions)
    (hother : EveryStep step other state actions) :
    EveryStep step (fun state action => condition state action ∧ other state action) state
      actions := by
  induction actions generalizing state with
  | nil => trivial
  | cons action rest ih => exact ⟨⟨hevery.1, hother.1⟩, ih hevery.2 hother.2⟩

theorem EveryStep.cons {condition : σ → α → Prop} {state next : σ} {action : α} {rest : List α}
    (hcondition : condition state action) (hnext : step state action = next)
    (hrest : EveryStep step condition next rest) :
    EveryStep step condition state (action :: rest) :=
  ⟨hcondition, hnext ▸ hrest⟩

theorem EveryStep.append {condition : σ → α → Prop} {state : σ} {first rest : List α}
    (hfirst : EveryStep step condition state first)
    (hrest : EveryStep step condition (first.foldl step state) rest) :
    EveryStep step condition state (first ++ rest) := by
  induction first generalizing state with
  | nil => exact hrest
  | cons action first ih => exact ⟨hfirst.1, ih hfirst.2 hrest⟩

/-- Two step functions that agree wherever the condition holds run alike. -/
theorem EveryStep.foldl_eq {condition : σ → α → Prop} {state : σ} {actions : List α}
    (hevery : EveryStep step condition state actions) {other : σ → α → σ}
    (hagree : ∀ state action, condition state action → other state action = step state action) :
    actions.foldl other state = actions.foldl step state := by
  induction actions generalizing state with
  | nil => rfl
  | cons action rest ih =>
    obtain ⟨hcondition, hrest⟩ := hevery
    rw [List.foldl_cons, List.foldl_cons, hagree state action hcondition]
    exact ih hrest

end runs

section logs
variable {ε : Type*} {allowed : List ε → ε → Prop} {log : List ε}

/-- Each event of the log is allowed by the events before it. -/
def Lawful (allowed : List ε → ε → Prop) (log : List ε) : Prop :=
  ∀ before event after, log = before ++ event :: after → allowed before event

theorem lawful_nil : Lawful allowed [] := by
  intro before event after h
  exact absurd h.symm (List.append_ne_nil_of_right_ne_nil _ (List.cons_ne_nil _ _))

theorem Lawful.concat (hlog : Lawful allowed log) {event : ε} (hevent : allowed log event) :
    Lawful allowed (log ++ [event]) := by
  intro before other after h
  rcases List.eq_nil_or_concat after with rfl | ⟨rest, last, rfl⟩
  · obtain ⟨rfl, hlast⟩ := List.append_inj' h rfl
    cases hlast
    exact hevent
  · have hsplit : log ++ [event] = (before ++ other :: rest) ++ [last] := by
      rw [h]
      simp
    obtain ⟨hbefore, -⟩ := List.append_inj' hsplit rfl
    exact hlog before other rest hbefore

theorem lawful_concat_iff {event : ε} :
    Lawful allowed (log ++ [event]) ↔ Lawful allowed log ∧ allowed log event := by
  constructor
  · intro h
    refine ⟨fun before other after hsplit => ?_, h log event [] rfl⟩
    exact h before other (after ++ [event]) (by simp [hsplit])
  · rintro ⟨hlog, hevent⟩
    exact hlog.concat hevent

/-- A log seen through a function of its events. -/
theorem Lawful.map (hlog : Lawful allowed log) {ε' : Type*} (f : ε → ε')
    {allowed' : List ε' → ε' → Prop}
    (himp : ∀ before event, allowed before event → allowed' (before.map f) (f event)) :
    Lawful allowed' (log.map f) := by
  intro before event after h
  obtain ⟨before', rest, rfl, rfl, hrest⟩ := List.map_eq_append_iff.mp h
  obtain ⟨event', after', rfl, rfl, -⟩ := List.map_eq_cons_iff.mp hrest
  exact himp before' event' (hlog before' event' after' rfl)

end logs
end Omi.Foundation
