import Mathlib
import Omi.Foundation.StableSort

/-! What a machine's arithmetic may do to the result of an operation on numbers, and the two that are
used: exact arithmetic, and binary64 with its rounding to the nearest, ties to even. -/
namespace Omi.Foundation

/-- The rounding of a machine's floating-point operations. Their results are rationals. -/
structure Rounding where
  round : ℚ → ℚ
  monotone : Monotone round
  zero : round 0 = 0
  idempotent : ∀ x, round (round x) = round x

instance : CoeFun Rounding fun _ => ℚ → ℚ := ⟨Rounding.round⟩

namespace Rounding

/-- Exact arithmetic rounds nothing. -/
def exact : Rounding := ⟨id, monotone_id, rfl, fun _ => rfl⟩

@[simp] theorem exact_apply (x : ℚ) : exact x = x := rfl

variable (rounding : Rounding) {x y : ℚ}

theorem nonneg (hx : 0 ≤ x) : 0 ≤ rounding x := by
  have h := rounding.monotone hx
  rwa [rounding.zero] at h

/-- A rounded number stays below what is added to it. -/
theorem le_add (hx : rounding x = x) (hy : 0 ≤ y) : x ≤ rounding (x + y) := by
  calc x = rounding x := hx.symm
    _ ≤ rounding (x + y) := rounding.monotone (le_add_of_nonneg_right hy)

end Rounding

/-! ### Rounding to an integer -/

@[simp] theorem roundHalfEven_intCast (k : ℤ) : roundHalfEven (k : ℚ) = k := by
  simp [roundHalfEven]

theorem roundHalfEven_bounds (x : ℚ) : ⌊x⌋ ≤ roundHalfEven x ∧ roundHalfEven x ≤ ⌊x⌋ + 1 := by
  unfold roundHalfEven
  dsimp only
  split_ifs <;> omega

theorem roundHalfEven_mono : Monotone roundHalfEven := by
  intro x y hxy
  obtain hsame | hnext := (Int.floor_le_floor hxy).eq_or_lt
  · -- between the same integers
    unfold roundHalfEven
    rw [← hsame]
    dsimp only
    split_ifs <;> first | omega | linarith
  · have hx := (roundHalfEven_bounds x).2
    have hy := (roundHalfEven_bounds y).1
    omega

/-! ### Binary64 -/

/-- The exponent of the last of the 53 places of a number, or of the smallest subnormal. -/
def lastPlace (x : ℚ) : ℤ := max (Int.log 2 |x| - 52) (-1074)

/-- The nearest number with 53 binary places, the even one of two. No overflow: the exponents are not
bounded from above. -/
def roundBinary64 (x : ℚ) : ℚ := roundHalfEven (x / 2 ^ lastPlace x) * 2 ^ lastPlace x

/-- A number on the grid of the powers of two from the given exponent on. -/
def OnGrid (exponent : ℤ) (x : ℚ) : Prop := ∃ k : ℤ, x = k * 2 ^ exponent

section grid
variable {exponent : ℤ} {x y bound : ℚ}

theorem two_zpow_pos (exponent : ℤ) : (0 : ℚ) < 2 ^ exponent := zpow_pos (by norm_num) exponent

theorem onGrid_zero : OnGrid exponent 0 := ⟨0, by simp⟩

theorem OnGrid.neg (h : OnGrid exponent x) : OnGrid exponent (-x) := by
  obtain ⟨k, rfl⟩ := h
  exact ⟨-k, by push_cast; ring⟩

/-- A finer grid has all that is on a coarser one. -/
theorem OnGrid.finer {coarser : ℤ} (h : OnGrid coarser x) (hle : exponent ≤ coarser) :
    OnGrid exponent x := by
  obtain ⟨k, rfl⟩ := h
  have hpower : (2 : ℚ) ^ coarser = 2 ^ (coarser - exponent) * 2 ^ exponent := by
    rw [← zpow_add₀ two_ne_zero, sub_add_cancel]
  have hnat : (2 : ℚ) ^ (coarser - exponent) = ((2 ^ (coarser - exponent).toNat : ℤ) : ℚ) := by
    have hexponent : coarser - exponent = ((coarser - exponent).toNat : ℤ) := by omega
    rw [hexponent, zpow_natCast, Int.toNat_natCast]
    push_cast
    rfl
  exact ⟨k * 2 ^ (coarser - exponent).toNat, by rw [hpower, hnat]; push_cast; ring⟩

theorem onGrid_zpow {power : ℤ} (hle : exponent ≤ power) : OnGrid exponent (2 ^ power) :=
  OnGrid.finer ⟨1, by simp⟩ hle

theorem roundBinary64_le (hbound : OnGrid (lastPlace x) bound) (h : x ≤ bound) :
    roundBinary64 x ≤ bound := by
  obtain ⟨k, rfl⟩ := hbound
  have hpos := two_zpow_pos (lastPlace x)
  have hplaces : roundHalfEven (x / 2 ^ lastPlace x) ≤ k := by
    rw [← roundHalfEven_intCast k]
    exact roundHalfEven_mono ((div_le_iff₀ hpos).mpr h)
  exact mul_le_mul_of_nonneg_right (by exact_mod_cast hplaces) hpos.le

theorem le_roundBinary64 (hbound : OnGrid (lastPlace x) bound) (h : bound ≤ x) :
    bound ≤ roundBinary64 x := by
  obtain ⟨k, rfl⟩ := hbound
  have hpos := two_zpow_pos (lastPlace x)
  have hplaces : k ≤ roundHalfEven (x / 2 ^ lastPlace x) := by
    rw [← roundHalfEven_intCast k]
    exact roundHalfEven_mono ((le_div_iff₀ hpos).mpr h)
  exact mul_le_mul_of_nonneg_right (by exact_mod_cast hplaces) hpos.le

/-- A number with at most 53 places is not rounded. -/
theorem roundBinary64_eq_self (h : OnGrid (lastPlace x) x) : roundBinary64 x = x :=
  le_antisymm (roundBinary64_le h le_rfl) (le_roundBinary64 h le_rfl)

theorem abs_lt_zpow (x : ℚ) : |x| < 2 ^ (lastPlace x + 53) := by
  have hplace : Int.log 2 |x| + 1 ≤ lastPlace x + 53 := by
    unfold lastPlace
    omega
  calc |x| < 2 ^ (Int.log 2 |x| + 1) := Int.lt_zpow_succ_log_self one_lt_two |x|
    _ ≤ 2 ^ (lastPlace x + 53) := zpow_le_zpow_right₀ one_le_two hplace

theorem zpow_le_abs (hx : x ≠ 0) (hnormal : -1074 < lastPlace x) :
    2 ^ (lastPlace x + 52) ≤ |x| := by
  have hplace : lastPlace x + 52 = Int.log 2 |x| := by
    unfold lastPlace at hnormal ⊢
    omega
  rw [hplace]
  exact Int.zpow_log_le_self one_lt_two (abs_pos.mpr hx)

theorem lastPlace_mono (hx : x ≠ 0) (h : |x| ≤ |y|) : lastPlace x ≤ lastPlace y := by
  have hlog : Int.log 2 |x| ≤ Int.log 2 |y| := Int.log_mono_right (abs_pos.mpr hx) h
  unfold lastPlace
  omega

theorem le_lastPlace (x : ℚ) : -1074 ≤ lastPlace x := le_max_right _ _

/-- The power of two that parts the numbers with a last place from all smaller ones. -/
theorem abs_le_zpow_of_lastPlace_lt (hlt : lastPlace x < lastPlace y) :
    |x| ≤ 2 ^ (lastPlace y + 52) :=
  (abs_lt_zpow x).le.trans (zpow_le_zpow_right₀ one_le_two (by omega))

theorem roundBinary64_mono : Monotone roundBinary64 := by
  intro x y hxy
  by_cases hsame : lastPlace x = lastPlace y
  · have hpos := two_zpow_pos (lastPlace y)
    have hplaces := roundHalfEven_mono (div_le_div_of_nonneg_right hxy hpos.le)
    unfold roundBinary64
    rw [hsame]
    exact mul_le_mul_of_nonneg_right (by exact_mod_cast hplaces) hpos.le
  obtain hx | hx := le_or_gt x 0
  · obtain hy | hy := le_or_gt 0 y
    · exact (roundBinary64_le onGrid_zero hx).trans (le_roundBinary64 onGrid_zero hy)
    · -- both below zero: a power of two lies between them
      have habs : |y| ≤ |x| := by
        rw [abs_of_neg hy, abs_of_nonpos hx]
        exact neg_le_neg hxy
      have hlt := lt_of_le_of_ne (lastPlace_mono hy.ne habs) (Ne.symm hsame)
      have hxbound := zpow_le_abs (hxy.trans_lt hy).ne ((le_lastPlace y).trans_lt hlt)
      have hybound := abs_le_zpow_of_lastPlace_lt hlt
      rw [abs_of_nonpos hx, le_neg] at hxbound
      rw [abs_of_neg hy, neg_le] at hybound
      exact (roundBinary64_le (onGrid_zpow (by omega)).neg hxbound).trans
        (le_roundBinary64 (onGrid_zpow (by omega)).neg hybound)
  · have hy := hx.trans_le hxy
    have habs : |x| ≤ |y| := by
      rw [abs_of_pos hx, abs_of_pos hy]
      exact hxy
    have hlt := lt_of_le_of_ne (lastPlace_mono hx.ne' habs) hsame
    have hybound := zpow_le_abs hy.ne' ((le_lastPlace x).trans_lt hlt)
    have hxbound := abs_le_zpow_of_lastPlace_lt hlt
    rw [abs_of_pos hy] at hybound
    rw [abs_of_pos hx] at hxbound
    exact (roundBinary64_le (onGrid_zpow (by omega)) hxbound).trans
      (le_roundBinary64 (onGrid_zpow (by omega)) hybound)

theorem abs_roundBinary64_le (x : ℚ) : |roundBinary64 x| ≤ 2 ^ (lastPlace x + 53) := by
  have hgrid : OnGrid (lastPlace x) (2 ^ (lastPlace x + 53)) := onGrid_zpow (by omega)
  obtain ⟨hlow, hhigh⟩ := abs_le.mp (abs_lt_zpow x).le
  exact abs_le.mpr ⟨le_roundBinary64 hgrid.neg hlow, roundBinary64_le hgrid hhigh⟩

theorem roundBinary64_roundBinary64 (x : ℚ) : roundBinary64 (roundBinary64 x) = roundBinary64 x := by
  have hgrid : OnGrid (lastPlace x) (roundBinary64 x) := ⟨_, rfl⟩
  have habove := abs_roundBinary64_le x
  generalize roundBinary64 x = rounded at hgrid habove ⊢
  refine roundBinary64_eq_self ?_
  obtain hfiner | hcoarser := le_or_gt (lastPlace rounded) (lastPlace x)
  · exact hgrid.finer hfiner
  · -- rounded up to the next power of two, which is on every grid it is on the boundary of
    by_cases hzero : rounded = 0
    · rw [hzero]
      exact onGrid_zero
    have hbelow := zpow_le_abs hzero ((le_lastPlace x).trans_lt hcoarser)
    have hpower : |rounded| = 2 ^ (lastPlace rounded + 52) :=
      le_antisymm (habove.trans (zpow_le_zpow_right₀ one_le_two (by omega))) hbelow
    have hplaces : OnGrid (lastPlace rounded) (2 ^ (lastPlace rounded + 52)) :=
      onGrid_zpow (by omega)
    obtain hpos | hneg := eq_or_eq_neg_of_abs_eq hpower
    · rwa [← hpos] at hplaces
    · have hnegated := hplaces.neg
      rwa [← hneg] at hnegated

end grid

namespace Rounding

def binary64 : Rounding where
  round := roundBinary64
  monotone := roundBinary64_mono
  zero := roundBinary64_eq_self onGrid_zero
  idempotent := roundBinary64_roundBinary64

end Rounding

/-- A tenth and two tenths are not three tenths. -/
example : Rounding.binary64 (Rounding.binary64 (1 / 10) + Rounding.binary64 (2 / 10)) ≠
    Rounding.binary64 (3 / 10) := by decide +kernel

end Omi.Foundation
