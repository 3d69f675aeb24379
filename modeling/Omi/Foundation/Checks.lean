import Mathlib

/-! Functions that stop at the first check that fails, and what a result of one says about
its checks. -/
namespace Omi.Foundation

variable {ε α β : Type}

/-- Stop with the error unless the condition holds. -/
def check (condition : Bool) (error : ε) : Except ε Unit :=
  if condition then .ok () else .error error

theorem check_eq_ok_iff {condition : Bool} {error : ε} {u : Unit} :
    check condition error = .ok u ↔ condition = true := by
  unfold check
  cases condition <;> simp

theorem bind_eq_ok_iff {x : Except ε α} {f : α → Except ε β} {b : β} :
    x >>= f = .ok b ↔ ∃ a, x = .ok a ∧ f a = .ok b := by
  cases x with
  | error e =>
    constructor
    · intro h
      cases h
    · rintro ⟨a, ha, -⟩
      cases ha
  | ok a =>
    constructor
    · intro h
      exact ⟨a, rfl, h⟩
    · rintro ⟨a', ha, hf⟩
      cases ha
      exact hf

theorem mapError_eq_ok_iff {ε' : Type} {f : ε → ε'} {x : Except ε α} {a : α} :
    x.mapError f = .ok a ↔ x = .ok a := by
  cases x <;> simp [Except.mapError]

/-- A list computed element by element has the result of each element in its place. -/
theorem mapM_eq_ok_iff {f : α → Except ε β} {xs : List α} {ys : List β} :
    xs.mapM f = .ok ys ↔ List.Forall₂ (fun x y => f x = .ok y) xs ys := by
  induction xs generalizing ys with
  | nil => simp [pure, Except.pure, eq_comm]
  | cons x xs ih =>
    rw [List.mapM_cons, bind_eq_ok_iff, List.forall₂_cons_left_iff]
    constructor
    · rintro ⟨y, hy, hrest⟩
      obtain ⟨ys', hys', hys⟩ := bind_eq_ok_iff.mp hrest
      cases hys
      exact ⟨y, ys', hy, ih.mp hys', rfl⟩
    · rintro ⟨y, ys', hy, hys', rfl⟩
      exact ⟨y, hy, bind_eq_ok_iff.mpr ⟨ys', ih.mpr hys', rfl⟩⟩

/-- A check of each element passes if it does for all of them. -/
theorem forM_eq_ok_iff {f : α → Except ε Unit} {xs : List α} :
    xs.forM f = .ok () ↔ ∀ x ∈ xs, f x = .ok () := by
  induction xs with
  | nil => simp [pure, Except.pure]
  | cons x xs ih =>
    have hfirst : (x :: xs).forM f = f x >>= fun _ => xs.forM f := rfl
    rw [hfirst, bind_eq_ok_iff, List.forall_mem_cons, ← ih]
    constructor
    · rintro ⟨u, hx, hrest⟩
      exact ⟨hx, hrest⟩
    · rintro ⟨hx, hrest⟩
      exact ⟨(), hx, hrest⟩

/-- Two lists related place by place: what stands in the one has a partner in the other. -/
theorem exists_left_of_forall₂ {r : α → β → Prop} {xs : List α} {ys : List β} {y : β}
    (h : List.Forall₂ r xs ys) (hy : y ∈ ys) : ∃ x ∈ xs, r x y := by
  induction h with
  | nil => cases hy
  | @cons x y' xs ys hfirst hrest ih =>
    rcases List.mem_cons.mp hy with rfl | hy
    · exact ⟨x, List.mem_cons_self, hfirst⟩
    · obtain ⟨x', hx', hr⟩ := ih hy
      exact ⟨x', List.mem_cons_of_mem _ hx', hr⟩

theorem exists_right_of_forall₂ {r : α → β → Prop} {xs : List α} {ys : List β} {x : α}
    (h : List.Forall₂ r xs ys) (hx : x ∈ xs) : ∃ y ∈ ys, r x y :=
  exists_left_of_forall₂ h.flip hx

end Omi.Foundation
