import Mathlib

/-! A dictionary as the list of its writes: a key holds what was written to it last. -/
namespace Omi.Foundation
variable {κ ν : Type*} [DecidableEq κ]

def lastWrite (writes : List (κ × ν)) (key : κ) : Option ν :=
  (writes.reverse.find? fun write => write.1 = key).map Prod.snd

variable {writes : List (κ × ν)} {key : κ} {value : ν}

theorem mem_of_lastWrite (h : lastWrite writes key = some value) : (key, value) ∈ writes := by
  obtain ⟨⟨found, held⟩, hfind, rfl⟩ := Option.map_eq_some_iff.mp h
  have hkey : found = key := by simpa using List.find?_some hfind
  rw [← hkey]
  exact List.mem_reverse.mp (List.mem_of_find?_eq_some hfind)

theorem lastWrite_eq_none_iff :
    lastWrite writes key = none ↔ ∀ write ∈ writes, write.1 ≠ key := by
  rw [lastWrite, Option.map_eq_none_iff, List.find?_eq_none]
  simp only [List.mem_reverse, decide_eq_true_eq, ne_eq]

/-- Where all that is written to a key is one value, the key holds it. -/
theorem lastWrite_of_agree (hmem : (key, value) ∈ writes)
    (hagree : ∀ write ∈ writes, write.1 = key → write.2 = value) :
    lastWrite writes key = some value := by
  cases hfound : lastWrite writes key with
  | none => exact absurd rfl (lastWrite_eq_none_iff.mp hfound _ hmem)
  | some held => rw [← hagree _ (mem_of_lastWrite hfound) rfl]

/-- Where what is written to a key is a function of the key, the keys written to hold its values. -/
theorem lastWrite_filterMap {keys : List κ} {values : κ → Option ν} (hkey : key ∈ keys) :
    lastWrite (keys.filterMap fun key => (values key).map (key, ·)) key = values key := by
  cases hvalue : values key with
  | some value =>
    apply lastWrite_of_agree
    · exact List.mem_filterMap.mpr ⟨key, hkey, by rw [hvalue, Option.map_some]⟩
    · rintro write hwrite rfl
      obtain ⟨other, -, hother⟩ := List.mem_filterMap.mp hwrite
      obtain ⟨held, hheld, rfl⟩ := Option.map_eq_some_iff.mp hother
      exact Option.some.inj (hheld.symm.trans hvalue)
  | none =>
    rw [lastWrite_eq_none_iff]
    rintro write hwrite rfl
    obtain ⟨other, -, hother⟩ := List.mem_filterMap.mp hwrite
    obtain ⟨held, hheld, rfl⟩ := Option.map_eq_some_iff.mp hother
    rw [hheld] at hvalue
    cases hvalue

theorem lastWrite_append_of_present {later : List (κ × ν)}
    (h : lastWrite later key = some value) : lastWrite (writes ++ later) key = some value := by
  obtain ⟨found, hfind, hvalue⟩ := Option.map_eq_some_iff.mp h
  rw [lastWrite, List.reverse_append, List.find?_append, hfind, Option.some_or, Option.map_some,
    hvalue]

theorem lastWrite_append_of_absent {later : List (κ × ν)}
    (h : ∀ write ∈ later, write.1 ≠ key) :
    lastWrite (writes ++ later) key = lastWrite writes key := by
  have hnone : (later.reverse.find? fun write => write.1 = key) = none := by
    rw [List.find?_eq_none]
    intro write hwrite
    simpa using h write (List.mem_reverse.mp hwrite)
  rw [lastWrite, lastWrite, List.reverse_append, List.find?_append, hnone, Option.none_or]

end Omi.Foundation
