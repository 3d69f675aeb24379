import Mathlib.Data.List.Basic

/-! Whole blocks of one width cut off the front of a buffer. -/
namespace Omi.Foundation
variable {α : Type*}

/-- The whole blocks of a buffer and what is left of it. -/
def drainBlocks (width : ℕ) : ℕ → List α → List (List α) × List α
  | 0, buffer => ([], buffer)
  | fuel + 1, buffer =>
    if width ≤ buffer.length then
      let (blocks, rest) := drainBlocks width fuel (buffer.drop width)
      (buffer.take width :: blocks, rest)
    else ([], buffer)

variable (width fuel : ℕ) (buffer : List α)

theorem flatten_drainBlocks :
    (drainBlocks width fuel buffer).1.flatten ++ (drainBlocks width fuel buffer).2 = buffer := by
  induction fuel generalizing buffer with
  | zero => rfl
  | succ fuel ih =>
    unfold drainBlocks
    split_ifs
    · simp only [List.flatten_cons, List.append_assoc, ih]
      exact List.take_append_drop width buffer
    · rfl

theorem length_of_mem_drainBlocks :
    ∀ block ∈ (drainBlocks width fuel buffer).1, block.length = width := by
  induction fuel generalizing buffer with
  | zero => exact fun _ hmem => absurd hmem List.not_mem_nil
  | succ fuel ih =>
    unfold drainBlocks
    split_ifs with hfull
    · intro block hmem
      rcases List.mem_cons.1 hmem with rfl | hrest
      · exact List.length_take_of_le hfull
      · exact ih (buffer.drop width) block hrest
    · exact fun _ hmem => absurd hmem List.not_mem_nil

variable {width fuel buffer}

/-- With enough fuel no whole block is left. -/
theorem length_drainBlocks_lt (hwidth : 0 < width) (hfuel : buffer.length ≤ fuel) :
    (drainBlocks width fuel buffer).2.length < width := by
  induction fuel generalizing buffer with
  | zero =>
    have hempty : buffer.length = 0 := Nat.le_zero.1 hfuel
    change buffer.length < width
    omega
  | succ fuel ih =>
    unfold drainBlocks
    split_ifs with hfull
    · apply ih
      rw [List.length_drop]
      omega
    · exact Nat.lt_of_not_le hfull

/-- Blocks at the front of a sequence of blocks are the first of them. -/
theorem prefix_of_flatten {blocks all : List (List α)} (hwidth : 0 < width)
    (hblocks : ∀ block ∈ blocks, block.length = width) (hall : ∀ block ∈ all, block.length = width)
    (h : blocks.flatten <+: all.flatten) : blocks <+: all := by
  induction blocks generalizing all with
  | nil => exact List.nil_prefix
  | cons block rest ih =>
    have hblock : block.length = width := hblocks block List.mem_cons_self
    cases all with
    | nil =>
      have hnil : block = [] := by
        have hflatten := List.prefix_nil.1 h
        rw [List.flatten_cons, List.append_eq_nil_iff] at hflatten
        exact hflatten.1
      rw [hnil] at hblock
      exact absurd hblock (Nat.ne_of_lt hwidth)
    | cons first others =>
      have hfirst : first.length = width := hall first List.mem_cons_self
      obtain ⟨tail, htail⟩ := h
      rw [List.flatten_cons, List.flatten_cons, List.append_assoc] at htail
      obtain ⟨rfl, hrest⟩ := List.append_inj htail (hblock.trans hfirst.symm)
      have hfront : rest <+: others :=
        ih (fun b hmem => hblocks b (List.mem_cons_of_mem _ hmem))
          (fun b hmem => hall b (List.mem_cons_of_mem _ hmem)) ⟨tail, hrest⟩
      exact List.cons_prefix_cons.2 ⟨rfl, hfront⟩

theorem length_flatten_blocks {blocks : List (List α)}
    (h : ∀ block ∈ blocks, block.length = width) :
    blocks.flatten.length = blocks.length * width := by
  induction blocks with
  | nil => simp
  | cons block rest ih =>
    have hblock := h block List.mem_cons_self
    have hrest := ih fun b hmem => h b (List.mem_cons_of_mem _ hmem)
    rw [List.flatten_cons, List.length_append, hblock, hrest, List.length_cons, Nat.succ_mul,
      Nat.add_comm]

/-- A buffer is cut into blocks in one way. -/
theorem blocks_unique {blocks other : List (List α)} {rest rest' : List α} (hwidth : 0 < width)
    (hblocks : ∀ block ∈ blocks, block.length = width)
    (hother : ∀ block ∈ other, block.length = width)
    (hrest : rest.length < width) (hrest' : rest'.length < width)
    (h : blocks.flatten ++ rest = other.flatten ++ rest') : blocks = other ∧ rest = rest' := by
  have hlength := congrArg List.length h
  rw [List.length_append, List.length_append, length_flatten_blocks hblocks,
    length_flatten_blocks hother] at hlength
  have hsame : blocks.length = other.length := by
    have hdiv := congrArg (· / width) hlength
    simpa [Nat.mul_add_div, Nat.add_comm, Nat.add_mul_div_right _ _ hwidth,
      Nat.div_eq_of_lt hrest, Nat.div_eq_of_lt hrest'] using hdiv
  have hflatten : blocks.flatten.length = other.flatten.length := by
    rw [length_flatten_blocks hblocks, length_flatten_blocks hother, hsame]
  obtain ⟨hfront, hback⟩ := List.append_inj h hflatten
  have hinit : blocks <+: other :=
    prefix_of_flatten hwidth hblocks hother (hfront ▸ List.prefix_rfl)
  exact ⟨hinit.eq_of_length hsame, hback⟩

end Omi.Foundation
