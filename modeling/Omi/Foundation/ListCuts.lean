import Mathlib.Data.List.Basic

/-! Lists that are cut where a condition ends: what a weaker condition does to the cut. -/
namespace Omi.Foundation

section cuts
variable {κ : Type*} {p q : κ → Bool} {xs : List κ} {key : κ}

theorem dropWhile_dropWhile (himp : ∀ x, p x → q x) :
    (xs.dropWhile p).dropWhile q = xs.dropWhile q := by
  induction xs with
  | nil => rfl
  | cons x xs ih =>
    cases hp : p x with
    | true =>
      have hq : q x = true := himp x hp
      rw [List.dropWhile_cons_of_pos hp, List.dropWhile_cons_of_pos hq, ih]
    | false => rw [List.dropWhile_cons_of_neg (by simp [hp])]

/-- The cut stays where it is if the key behind it fails the weaker condition too. -/
theorem head?_dropWhile_of_imp (himp : ∀ x, p x → q x)
    (hhead : (xs.dropWhile p).head? = some key) (hkey : q key = false) :
    (xs.dropWhile q).head? = some key := by
  rw [← dropWhile_dropWhile himp]
  cases hrest : xs.dropWhile p with
  | nil =>
    rw [hrest] at hhead
    cases hhead
  | cons x rest =>
    rw [hrest] at hhead
    obtain rfl : x = key := Option.some.inj hhead
    rw [List.dropWhile_cons_of_neg (by simp [hkey])]
    rfl

theorem takeWhile_sublist_of_imp (himp : ∀ x, p x → q x) :
    (xs.takeWhile p).Sublist (xs.takeWhile q) := by
  induction xs with
  | nil => exact List.Sublist.refl _
  | cons x xs ih =>
    cases hp : p x with
    | true =>
      rw [List.takeWhile_cons_of_pos hp, List.takeWhile_cons_of_pos (himp x hp)]
      exact ih.cons_cons x
    | false =>
      rw [List.takeWhile_cons_of_neg (by simp [hp])]
      exact List.nil_sublist _

/-- The key behind the cut is taken as soon as it meets the weaker condition. -/
theorem takeWhile_append_sublist (himp : ∀ x, p x → q x)
    (hhead : (xs.dropWhile p).head? = some key) (hkey : q key = true) :
    (xs.takeWhile p ++ [key]).Sublist (xs.takeWhile q) := by
  induction xs with
  | nil => cases hhead
  | cons x xs ih =>
    cases hp : p x with
    | true =>
      rw [List.dropWhile_cons_of_pos hp] at hhead
      rw [List.takeWhile_cons_of_pos hp, List.takeWhile_cons_of_pos (himp x hp)]
      exact (ih hhead).cons_cons x
    | false =>
      rw [List.dropWhile_cons_of_neg (by simp [hp])] at hhead
      obtain rfl : x = key := Option.some.inj hhead
      rw [List.takeWhile_cons_of_neg (by simp [hp]), List.takeWhile_cons_of_pos hkey]
      exact (List.nil_sublist _).cons_cons x

/-- Everything before the key behind the cut meets the condition. -/
theorem forall_before_head?_dropWhile {before after : List κ}
    (hnodup : (before ++ key :: after).Nodup)
    (hhead : ((before ++ key :: after).dropWhile p).head? = some key) :
    ∀ x ∈ before, p x = true := by
  induction before with
  | nil => simp
  | cons x before ih =>
    have hne : x ≠ key := by
      rintro rfl
      simp at hnodup
    cases hp : p x with
    | true =>
      rw [List.cons_append, List.dropWhile_cons_of_pos hp] at hhead
      rw [List.cons_append] at hnodup
      exact List.forall_mem_cons.mpr ⟨hp, ih (List.nodup_cons.mp hnodup).2 hhead⟩
    | false =>
      rw [List.cons_append, List.dropWhile_cons_of_neg (by simp [hp])] at hhead
      exact absurd (Option.some.inj hhead) hne

end cuts

end Omi.Foundation
