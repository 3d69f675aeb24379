import Mathlib

/-! A keyed collection of documents in insertion order, and how counts over it follow
its writes. -/
namespace Omi.Foundation

abbrev Table (α : Type*) := List (String × α)

namespace Table
variable {α : Type*}

def get (t : Table α) (key : String) : Option α := t.lookup key

/-- Write a document: in place where the key is there, at the end where it is new. -/
def set : Table α → String → α → Table α
  | [], key, value => [(key, value)]
  | (k, v) :: t, key, value =>
    if k = key then (k, value) :: t else (k, v) :: set t key value

/-- Delete a document, if it is there. -/
def erase (t : Table α) (key : String) : Table α := t.filter fun kv => kv.1 != key

def keys (t : Table α) : List String := t.map Prod.fst

@[simp] theorem get_set (t : Table α) (key k : String) (value : α) :
    (t.set key value).get k = if k = key then some value else t.get k := by
  induction t with
  | nil => by_cases h : k = key <;> simp [set, get, List.lookup, h, beq_eq_false_iff_ne.mpr]
  | cons kv t ih =>
    obtain ⟨k', v⟩ := kv
    simp only [get] at ih
    by_cases hk' : k' = key
    · by_cases h : k = key
      · simp [set, get, hk', h]
      · simp [set, get, hk', h, List.lookup_cons, beq_eq_false_iff_ne.mpr h]
    · by_cases hk : k = k'
      · have : k ≠ key := fun h => hk' (hk ▸ h)
        simp [set, get, hk, hk']
      · simp [set, get, hk', List.lookup_cons, beq_eq_false_iff_ne.mpr hk, ih]

@[simp] theorem get_erase (t : Table α) (key k : String) :
    (t.erase key).get k = if k = key then none else t.get k := by
  induction t with
  | nil => simp [erase, get]
  | cons kv t ih =>
    obtain ⟨k', v⟩ := kv
    simp only [get, erase] at ih
    by_cases hk' : k' = key
    · by_cases h : k = key
      · simp [erase, get, hk', h] at ih ⊢
        exact ih
      · simp [erase, get, hk', h, List.lookup_cons, beq_eq_false_iff_ne.mpr h] at ih ⊢
        exact ih
    · by_cases hk : k = k'
      · have : k ≠ key := fun h => hk' (hk ▸ h)
        simp [erase, get, hk, hk']
      · simp [erase, get, hk', List.lookup_cons, beq_eq_false_iff_ne.mpr hk] at ih ⊢
        exact ih

theorem mem_of_get {t : Table α} {key : String} {value : α} (h : t.get key = some value) :
    (key, value) ∈ t := by
  obtain ⟨before, after, rfl, -⟩ := List.lookup_eq_some_iff.mp h
  simp

/-- A write adds no document but its own. -/
theorem mem_set {t : Table α} {key : String} {value : α} {kv : String × α}
    (h : kv ∈ t.set key value) : kv = (key, value) ∨ kv ∈ t := by
  induction t with
  | nil => exact .inl (by simpa [set] using h)
  | cons head t ih =>
    obtain ⟨k, v⟩ := head
    by_cases hk : k = key
    · simp only [set, hk, if_true, List.mem_cons] at h
      rcases h with rfl | h
      · exact .inl rfl
      · exact .inr (by simp [h])
    · simp only [set, hk, if_false, List.mem_cons] at h
      rcases h with rfl | h
      · exact .inr (by simp)
      · exact (ih h).imp id (by simp +contextual)

theorem keys_set (t : Table α) (key : String) (value : α) :
    (t.set key value).keys = if key ∈ t.keys then t.keys else t.keys ++ [key] := by
  induction t with
  | nil => simp [set, keys]
  | cons kv t ih =>
    obtain ⟨k, v⟩ := kv
    simp only [keys] at ih
    by_cases hk : k = key
    · simp [set, keys, hk]
    · have hk' : key ≠ k := Ne.symm hk
      simp only [set, hk, if_false, keys, List.map_cons, ih, List.mem_cons, hk', false_or]
      split_ifs <;> simp_all

/-- Writing keeps the keys distinct. -/
theorem nodup_keys_set {t : Table α} (h : t.keys.Nodup) (key : String) (value : α) :
    (t.set key value).keys.Nodup := by
  rw [keys_set]
  split_ifs with hmem
  · exact h
  · exact h.append (by simp) (by simpa using hmem)

/-- Where keys are distinct, reading finds every document. -/
theorem get_of_mem {t : Table α} (h : t.keys.Nodup) {key : String} {value : α}
    (hmem : (key, value) ∈ t) : t.get key = some value := by
  induction t with
  | nil => exact absurd hmem List.not_mem_nil
  | cons kv t ih =>
    obtain ⟨k, v⟩ := kv
    simp only [keys, List.map_cons, List.nodup_cons] at h
    rcases List.mem_cons.1 hmem with heq | hrest
    · obtain ⟨rfl, rfl⟩ := Prod.mk.inj heq
      simp [get]
    · have hne : key ≠ k := by
        rintro rfl
        exact h.1 (List.mem_map_of_mem hrest)
      simpa [get, List.lookup_cons, beq_eq_false_iff_ne.mpr hne] using ih h.2 hrest

/-- A write moves a count by what the new document counts less what the old one did. -/
theorem countP_set (t : Table α) (key : String) (value : α) (p : α → Bool) :
    ((t.set key value).countP (fun kv => p kv.2) : ℤ) =
      t.countP (fun kv => p kv.2) + (if p value then 1 else 0) -
        (if (t.get key).any p then 1 else 0) := by
  induction t with
  | nil => simp [set, get, List.countP_cons]
  | cons kv t ih =>
    obtain ⟨k, v⟩ := kv
    by_cases hk : k = key
    · simp [set, get, hk, List.countP_cons]
      split_ifs <;> omega
    · have hk' : (key == k) = false := beq_eq_false_iff_ne.mpr (Ne.symm hk)
      have hget : get ((k, v) :: t) key = get t key := by simp [get, List.lookup_cons, hk']
      simp only [set, hk, if_false, List.countP_cons, hget]
      push_cast
      rw [ih]
      omega

end Table
end Omi.Foundation
