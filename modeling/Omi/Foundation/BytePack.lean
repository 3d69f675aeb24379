import Mathlib

/-! Unsigned integers as bytes of a fixed width, in both byte orders. -/
namespace Omi.Foundation

/-- The last `width` base-256 digits, the least significant first. -/
def littleEndian : ℕ → ℕ → List UInt8
  | 0, _ => []
  | width + 1, n => UInt8.ofNat n :: littleEndian width (n / 256)

def littleEndianValue : List UInt8 → ℕ
  | [] => 0
  | byte :: rest => byte.toNat + 256 * littleEndianValue rest

def bigEndian (width n : ℕ) : List UInt8 := (littleEndian width n).reverse

def bigEndianValue (bytes : List UInt8) : ℕ := littleEndianValue bytes.reverse

@[simp] theorem length_littleEndian (width n : ℕ) : (littleEndian width n).length = width := by
  induction width generalizing n with
  | zero => rfl
  | succ width ih => rw [littleEndian, List.length_cons, ih]

@[simp] theorem length_bigEndian (width n : ℕ) : (bigEndian width n).length = width := by
  rw [bigEndian, List.length_reverse, length_littleEndian]

theorem littleEndianValue_littleEndian {width n : ℕ} (h : n < 256 ^ width) :
    littleEndianValue (littleEndian width n) = n := by
  induction width generalizing n with
  | zero =>
    have hzero : n = 0 := Nat.lt_one_iff.mp h
    exact hzero.symm
  | succ width ih =>
    have hrest : n / 256 < 256 ^ width := by
      apply Nat.div_lt_of_lt_mul
      rwa [pow_succ, mul_comm] at h
    have hdigit : (UInt8.ofNat n).toNat = n % 256 := UInt8.toNat_ofNat'
    rw [littleEndian, littleEndianValue, ih hrest, hdigit]
    exact Nat.mod_add_div n 256

theorem bigEndianValue_bigEndian {width n : ℕ} (h : n < 256 ^ width) :
    bigEndianValue (bigEndian width n) = n := by
  rw [bigEndianValue, bigEndian, List.reverse_reverse]
  exact littleEndianValue_littleEndian h

end Omi.Foundation
