import Mathlib.Data.List.Sort
import Mathlib.Data.Rat.Floor
import Mathlib.Algebra.Order.Floor.Ring

/-! A stable sort by a key, which element comes last in it, and rounding to even. -/
namespace Omi.Foundation

section sort
variable {α κ : Type*} [LinearOrder κ] (key : α → κ)

/-- `list.sort(key=key)`. -/
def sortBy (list : List α) : List α :=
  list.insertionSort fun a b => key a ≤ key b

/-- The element has the greatest key, and stands last among those that have it. -/
def ComesLast (list : List α) (last : α) : Prop :=
  ∃ before after, list = before ++ last :: after ∧ (∀ a ∈ before, key a ≤ key last) ∧
    ∀ a ∈ after, key a < key last

theorem sortBy_perm (list : List α) : (sortBy key list).Perm list :=
  List.perm_insertionSort _ list

theorem sortBy_pairwise (list : List α) : (sortBy key list).Pairwise fun a b => key a ≤ key b :=
  haveI : IsTrans α fun a b => key a ≤ key b := ⟨fun _ _ _ => le_trans⟩
  haveI : Std.Total fun a b => key a ≤ key b := ⟨fun a b => le_total (key a) (key b)⟩
  List.pairwise_insertionSort _ list

variable {key}

theorem mem_sortBy {list : List α} {a : α} : a ∈ sortBy key list ↔ a ∈ list :=
  (sortBy_perm key list).mem_iff

/-- Inserting a head leaves the last element unless the head lies behind it. -/
theorem getLast?_orderedInsert {head last : α} {sorted : List α}
    (hsorted : sorted.Pairwise fun a b => key a ≤ key b) (hlast : sorted.getLast? = some last) :
    (sorted.orderedInsert (fun a b => key a ≤ key b) head).getLast? =
      if key head ≤ key last then some last else some head := by
  induction sorted with
  | nil => simp at hlast
  | cons first rest ih =>
    rw [List.pairwise_cons] at hsorted
    have hfirst : key first ≤ key last := by
      rcases List.mem_cons.mp (List.mem_of_getLast? hlast) with rfl | hmem
      · exact le_refl _
      · exact hsorted.1 last hmem
    by_cases hhead : key head ≤ key first
    · rw [List.orderedInsert_cons, if_pos hhead, if_pos (hhead.trans hfirst),
        List.getLast?_cons_cons, hlast]
    · rw [List.orderedInsert_cons, if_neg hhead]
      cases rest with
      | nil =>
        cases hlast
        simp [hhead]
      | cons second more =>
        rw [List.getLast?_cons_cons] at hlast
        rw [List.getLast?_cons, ih hsorted.2 hlast]
        split_ifs <;> rfl

/-- The last element of the sorted list. -/
theorem getLast?_sortBy {list : List α} {last : α} :
    (sortBy key list).getLast? = some last ↔ ComesLast key list last := by
  induction list generalizing last with
  | nil => simp [sortBy, ComesLast]
  | cons head rest ih =>
    have hcons : sortBy key (head :: rest) =
        (sortBy key rest).orderedInsert (fun a b => key a ≤ key b) head := rfl
    rcases hrest : (sortBy key rest).getLast? with - | tail
    · have hnil : rest = [] := by
        rw [List.getLast?_eq_none_iff] at hrest
        exact List.Perm.nil_eq ((hrest ▸ sortBy_perm key rest)) |>.symm
      subst hnil
      constructor
      · intro h
        have heq : head = last := by simpa [sortBy] using h
        exact ⟨[], [], by simp [heq], by simp, by simp⟩
      · rintro ⟨before, after, hsplit, -, -⟩
        cases before with
        | nil =>
          cases hsplit
          simp [sortBy]
        | cons first more => simp at hsplit
    · have htail := ih.mp hrest
      rw [hcons, getLast?_orderedInsert (sortBy_pairwise key rest) hrest]
      by_cases hhead : key head ≤ key tail
      · rw [if_pos hhead]
        constructor
        · intro h
          cases h
          obtain ⟨before, after, rfl, hbefore, hafter⟩ := htail
          exact ⟨head :: before, after, rfl, List.forall_mem_cons.mpr ⟨hhead, hbefore⟩, hafter⟩
        · rintro ⟨before, after, hsplit, hbefore, hafter⟩
          cases before with
          | nil =>
            -- the head cannot come last: the rest has a key that is no smaller
            cases hsplit
            have hmem : tail ∈ rest := mem_sortBy.mp (List.mem_of_getLast? hrest)
            exact absurd hhead (not_le.mpr (hafter tail hmem))
          | cons first more =>
            cases hsplit
            rw [← hrest, ih]
            exact ⟨more, after, rfl, fun a ha => hbefore a (List.mem_cons_of_mem _ ha), hafter⟩
      · rw [if_neg hhead]
        have hall : ∀ a ∈ rest, key a ≤ key tail := by
          obtain ⟨before, after, rfl, hbefore, hafter⟩ := htail
          intro a ha
          rcases List.mem_append.mp ha with hfront | hback
          · exact hbefore a hfront
          · rcases List.mem_cons.mp hback with rfl | hback
            · exact le_refl _
            · exact (hafter a hback).le
        constructor
        · intro h
          cases h
          exact ⟨[], rest, rfl, by simp, fun a ha => (hall a ha).trans_lt (not_le.mp hhead)⟩
        · rintro ⟨before, after, hsplit, hbefore, -⟩
          cases before with
          | nil =>
            cases hsplit
            rfl
          | cons first more =>
            cases hsplit
            have hle : key head ≤ key last := hbefore head (by simp)
            have hmem : last ∈ more ++ last :: after := by simp
            exact absurd (hle.trans (hall last hmem)) hhead

end sort

/-- `round(x)`: to the nearest integer, and to the even one from the middle. -/
def roundHalfEven (x : ℚ) : ℤ :=
  let rest := x - ⌊x⌋
  if rest < 1 / 2 then ⌊x⌋
  else if 1 / 2 < rest then ⌊x⌋ + 1
  else if ⌊x⌋ % 2 = 0 then ⌊x⌋ else ⌊x⌋ + 1

end Omi.Foundation
