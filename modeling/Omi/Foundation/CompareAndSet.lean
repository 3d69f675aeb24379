import Mathlib.Data.List.Basic

/-! Optimistic updates of one register: an update reads the register, computes a value, and
writes it later if the stamp of the register is still the one that it read. -/
namespace Omi.Foundation

/-- A value with the number of writes before it. -/
structure Versioned (ρ : Type*) where
  value : ρ
  version : ℕ := 0
deriving DecidableEq

/-- An update between its read and its write. Its stamp is `minted` if nobody else chose it. -/
structure Update (ρ τ : Type*) where
  seen : Versioned ρ
  next : ρ
  minted : Bool
  ticket : τ

variable {ρ τ κ : Type*}

/-- The stamps tell the versions apart for every update on its way, and the next stamp of an
update that minted it differs from all that were there when it read. -/
structure Stamped (stamp : ρ → κ) (store : Versioned ρ) (updates : List (Update ρ τ)) : Prop where
  tells : ∀ update ∈ updates, stamp update.seen.value = stamp store.value → update.seen = store
  past : ∀ update ∈ updates, update.seen.version ≤ store.version
  same : ∀ update ∈ updates, update.seen.version = store.version → update.seen = store
  minted : ∀ update ∈ updates, update.minted = true → ∀ other ∈ updates,
    other.seen.version ≤ update.seen.version → stamp other.seen.value ≠ stamp update.next

namespace Stamped
variable {stamp : ρ → κ} {store : Versioned ρ} {updates : List (Update ρ τ)}

theorem nil : Stamped stamp store ([] : List (Update ρ τ)) := by
  constructor <;> simp

theorem of_subset (h : Stamped stamp store updates) {others : List (Update ρ τ)}
    (hsubset : others ⊆ updates) : Stamped stamp store others where
  tells update hmem := h.tells update (hsubset hmem)
  past update hmem := h.past update (hsubset hmem)
  same update hmem := h.same update (hsubset hmem)
  minted update hmem hminted other hother :=
    h.minted update (hsubset hmem) hminted other (hsubset hother)

/-- An update reads the register, and mints a stamp that nothing has. -/
theorem read (h : Stamped stamp store updates) {update : Update ρ τ}
    (hseen : update.seen = store)
    (hminted : update.minted = true → stamp store.value ≠ stamp update.next ∧
      ∀ other ∈ updates, stamp other.seen.value ≠ stamp update.next) :
    Stamped stamp store (updates ++ [update]) := by
  have hcases : ∀ other, other ∈ updates ++ [update] → other ∈ updates ∨ other = update := by
    intro other hother
    rcases List.mem_append.mp hother with hold | hnew
    · exact .inl hold
    · exact .inr (List.mem_singleton.mp hnew)
  constructor
  · intro other hother hstamp
    rcases hcases other hother with hold | rfl
    · exact h.tells other hold hstamp
    · exact hseen
  · intro other hother
    rcases hcases other hother with hold | rfl
    · exact h.past other hold
    · exact Nat.le_of_eq (congrArg Versioned.version hseen)
  · intro other hother hversion
    rcases hcases other hother with hold | rfl
    · exact h.same other hold hversion
    · exact hseen
  · intro first hfirst hmint other hother hle
    rcases hcases first hfirst with hold | rfl
    · rcases hcases other hother with hold' | rfl
      · exact h.minted first hold hmint other hold' hle
      · -- the new update reads what `first` read, if it reads nothing later
        rw [hseen] at hle ⊢
        have hstore : first.seen = store := 
          h.same first hold (Nat.le_antisymm (h.past first hold) hle)
        have hself := h.minted first hold hmint first hold (Nat.le_refl _)
        rwa [hstore] at hself
    · rcases hcases other hother with hold' | rfl
      · exact (hminted hmint).2 other hold'
      · rw [hseen]
        exact (hminted hmint).1

/-- An update writes over a register with the stamp that it read: it replaces what it read,
and the rest goes on if its own stamp is minted or unknown to the rest. -/
theorem write (h : Stamped stamp store updates) {update : Update ρ τ} (hmem : update ∈ updates)
    (hstamp : stamp update.seen.value = stamp store.value) {rest : List (Update ρ τ)}
    (hrest : rest ⊆ updates)
    (hunseen : update.minted = false →
      ∀ other ∈ rest, stamp other.seen.value ≠ stamp update.next) :
    update.seen = store ∧ Stamped stamp ⟨update.next, store.version + 1⟩ rest := by
  have hseen : update.seen = store := h.tells update hmem hstamp
  have hfresh : ∀ other ∈ rest, stamp other.seen.value ≠ stamp update.next := by
    intro other hother
    cases hmint : update.minted with
    | false => exact hunseen hmint other hother
    | true =>
      refine h.minted update hmem hmint other (hrest hother) ?_
      rw [hseen]
      exact h.past other (hrest hother)
  refine ⟨hseen, ?_⟩
  constructor
  · intro other hother hstamp'
    exact absurd hstamp' (hfresh other hother)
  · intro other hother
    exact Nat.le_trans (h.past other (hrest hother)) (Nat.le_succ _)
  · intro other hother hversion
    have hpast := h.past other (hrest hother)
    have hversion' : other.seen.version = store.version + 1 := hversion
    omega
  · intro first hfirst hmint other hother
    exact h.minted first (hrest hfirst) hmint other (hrest hother)

end Stamped

end Omi.Foundation
