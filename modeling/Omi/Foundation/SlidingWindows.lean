import Mathlib.Data.List.Basic

/-! Overlapping windows of one width over a list, each a stride behind the one before it, up to
the first that reaches the end of the list. -/
namespace Omi.Foundation

/-- A width and a stride that leave no gap between two windows. -/
structure Windowing where
  window : ℕ
  stride : ℕ
  stride_pos : 0 < stride
  stride_le : stride ≤ window

namespace Windowing
variable (w : Windowing)

def start (i : ℕ) : ℕ := i * w.stride

/-- How many windows a list of some length has. -/
def count (length : ℕ) : ℕ :=
  if length = 0 then 0 else (length - w.window + w.stride - 1) / w.stride + 1

/-- The position is one of those in the `i`-th window of a list of some length. -/
def Holds (length i position : ℕ) : Prop :=
  w.start i ≤ position ∧ position < w.start i + w.window ∧ position < length

theorem start_succ (i : ℕ) : w.start (i + 1) = w.start i + w.stride := Nat.succ_mul i w.stride

/-- A window is followed by another one exactly if it does not reach the end. -/
theorem succ_lt_count_iff {length i : ℕ} :
    i + 1 < w.count length ↔ w.start i + w.window < length := by
  have hpos := w.stride_pos
  unfold count start
  split_ifs with hlength
  · omega
  · rw [Nat.add_lt_add_iff_right, Nat.lt_iff_add_one_le, Nat.le_div_iff_mul_le hpos, Nat.succ_mul]
    omega

theorem count_eq_zero_iff {length : ℕ} : w.count length = 0 ↔ length = 0 := by
  unfold count
  split_ifs with hlength <;> simp [hlength]

theorem start_lt_length {length i : ℕ} (h : i < w.count length) : w.start i < length := by
  cases i with
  | zero =>
    have hlength : length ≠ 0 := fun hzero => by
      rw [w.count_eq_zero_iff.mpr hzero] at h
      omega
    rw [start, Nat.zero_mul]
    omega
  | succ i =>
    have hinside := w.succ_lt_count_iff.mp h
    have hle := w.stride_le
    rw [start_succ]
    omega

/-- There are no more windows than positions. -/
theorem count_le (length : ℕ) : w.count length ≤ length := by
  by_contra hmore
  have hstart : w.start length < length := w.start_lt_length (Nat.lt_of_not_le hmore)
  have hgrows : length * 1 ≤ length * w.stride := Nat.mul_le_mul_left length w.stride_pos
  rw [start] at hstart
  omega

/-- Every position is in a window. -/
theorem exists_holds {length position : ℕ} (h : position < length) :
    ∃ i < w.count length, w.Holds length i position := by
  have hsome : w.count length ≠ 0 := fun hzero => by
    have hlength := w.count_eq_zero_iff.mp hzero
    omega
  have hle := w.stride_le
  have hbegins : w.start (position / w.stride) ≤ position := Nat.div_mul_le_self _ _
  have hends : position < w.start (position / w.stride) + w.stride := by
    rw [← start_succ]
    exact Nat.lt_mul_of_div_lt (Nat.lt_succ_self _) w.stride_pos
  by_cases hwindow : position / w.stride < w.count length
  · exact ⟨position / w.stride, hwindow, hbegins, by omega, h⟩
  · -- the position is behind the start of the last window, which reaches the end
    have hlast : length ≤ w.start (w.count length - 1) + w.window := by
      have hnone : ¬ w.count length - 1 + 1 < w.count length := by omega
      rw [w.succ_lt_count_iff] at hnone
      omega
    have hbefore : w.start (w.count length - 1) ≤ w.start (position / w.stride) :=
      Nat.mul_le_mul_right w.stride (by omega)
    exact ⟨w.count length - 1, by omega, by omega, by omega, h⟩

/-- No window lies in the one before it. -/
theorem exists_fresh {length i : ℕ} (h : i + 1 < w.count length) :
    ∃ position, w.Holds length (i + 1) position ∧ ¬ w.Holds length i position := by
  have hinside := w.succ_lt_count_iff.mp h
  have hpos := w.stride_pos
  have hle := w.stride_le
  refine ⟨w.start i + w.window, ⟨?_, ?_, hinside⟩, fun hold => ?_⟩
  · rw [start_succ]
    omega
  · rw [start_succ]
    omega
  · have hshort := hold.2.1
    omega

section lists
variable {α β : Type*} (xs : List α)

/-- The elements of the `i`-th window. -/
def piece (i : ℕ) : List α := (xs.drop (w.start i)).take w.window

/-- The elements of a window that the one before it does not have. -/
def added : ℕ → List α
  | 0 => w.piece xs 0
  | i + 1 => (w.piece xs (i + 1)).drop (w.window - w.stride)

/-- What is in a window stands at the positions the window holds. -/
theorem getElem?_piece {length i position : ℕ} (h : w.Holds length i position) :
    (w.piece xs i)[position - w.start i]? = xs[position]? := by
  obtain ⟨hbegins, hends, -⟩ := h
  rw [piece, List.getElem?_take_of_lt (by omega), List.getElem?_drop, Nat.add_sub_cancel' hbegins]

theorem piece_ne_nil {i : ℕ} (h : i < w.count xs.length) : w.piece xs i ≠ [] := by
  have hstart := w.start_lt_length h
  have hwindow : 0 < w.window := Nat.lt_of_lt_of_le w.stride_pos w.stride_le
  apply List.ne_nil_of_length_pos
  rw [piece, List.length_take, List.length_drop]
  omega

theorem map_piece (f : α → β) (i : ℕ) : w.piece (xs.map f) i = (w.piece xs i).map f := by
  rw [piece, piece, List.map_take, List.map_drop]

/-- The first windows in order, each without what the one before it has, are the front of the
list. -/
theorem flatten_added_take (i : ℕ) :
    ((List.range (i + 1)).map (w.added xs)).flatten = xs.take (w.start i + w.window) := by
  induction i with
  | zero => simp [added, piece, start]
  | succ i ih =>
    have hle := w.stride_le
    have hadded : w.added xs (i + 1) = (xs.drop (w.start i + w.window)).take w.stride := by
      rw [added, piece, start_succ, List.drop_take, List.drop_drop, Nat.sub_sub_self hle,
        Nat.add_assoc, Nat.add_sub_cancel' hle]
    rw [List.range_succ, List.map_append, List.flatten_append, ih, List.map_singleton,
      List.flatten_singleton, hadded, ← List.take_add, start_succ, Nat.add_right_comm]

/-- The windows in order, each without what the one before it has, are the list. -/
theorem flatten_added : ((List.range (w.count xs.length)).map (w.added xs)).flatten = xs := by
  cases hcount : w.count xs.length with
  | zero =>
    have hnil := List.length_eq_zero_iff.mp (w.count_eq_zero_iff.mp hcount)
    rw [hnil]
    rfl
  | succ i =>
    have hlast : ¬ i + 1 < w.count xs.length := by omega
    rw [w.succ_lt_count_iff] at hlast
    rw [flatten_added_take]
    exact List.take_of_length_le (by omega)

end lists

end Windowing
end Omi.Foundation
