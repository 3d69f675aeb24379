import Mathlib.Data.Int.Notation
import Mathlib.Data.List.Basic
import Mathlib.Data.Nat.Bitwise
import Mathlib.Order.Nat
import Mathlib.Tactic.Ring

/-! Reading bytes at a position, and the varint codec of the three `Limitless` implementations.
Their integers differ, so what depends on that is a parameter. -/
namespace Omi.Pendant

abbrev Bytes := List UInt8

/-! ### Positions -/

/-- The byte at a position; `none` where the source's subscript would throw. -/
def byteAt (data : Bytes) (pos : ℤ) : Option ℕ :=
  if 0 ≤ pos then (data[pos.toNat]?).map UInt8.toNat else none

/-- The bytes from one position to another; `none` where the source's slice would throw. -/
def slice (data : Bytes) (start stop : ℤ) : Option Bytes :=
  if 0 ≤ start ∧ start ≤ stop ∧ stop ≤ data.length then
    some ((data.drop start.toNat).take (stop - start).toNat)
  else none

/-- The bytes stand in the data at the position. -/
structure Stands (data : Bytes) (pos : ℕ) (bytes : Bytes) : Prop where
  inside : pos ≤ data.length
  starts : bytes <+: data.drop pos

section positions
variable {data : Bytes} {pos : ℕ}

theorem stands_self (data : Bytes) : Stands data 0 data :=
  ⟨Nat.zero_le _, List.prefix_rfl⟩

theorem Stands.le {bytes : Bytes} (h : Stands data pos bytes) :
    pos + bytes.length ≤ data.length := by
  have hle := h.starts.length_le
  have hinside := h.inside
  rw [List.length_drop] at hle
  omega

theorem Stands.left {first second : Bytes} (h : Stands data pos (first ++ second)) :
    Stands data pos first :=
  ⟨h.inside, (List.prefix_append first second).trans h.starts⟩

theorem Stands.right {first second : Bytes} (h : Stands data pos (first ++ second)) :
    Stands data (pos + first.length) second := by
  obtain ⟨rest, hrest⟩ := h.starts
  have hle := h.left.le
  refine ⟨hle, rest, ?_⟩
  rw [← List.drop_drop, ← hrest, List.append_assoc, List.drop_left]

theorem Stands.tail {byte : UInt8} {bytes : Bytes} (h : Stands data pos (byte :: bytes)) :
    Stands data (pos + 1) bytes :=
  Stands.right (show Stands data pos ([byte] ++ bytes) from h)

theorem Stands.byteAt {byte : UInt8} {bytes : Bytes} (h : Stands data pos (byte :: bytes)) :
    byteAt data pos = some byte.toNat := by
  obtain ⟨rest, hrest⟩ := h.starts
  have hget : data[pos]? = some byte := by
    have hhead := congrArg (fun suffix => suffix[0]?) hrest.symm
    simpa using hhead
  rw [Pendant.byteAt, if_pos (Int.natCast_nonneg pos), Int.toNat_natCast, hget]
  rfl

theorem Stands.slice {bytes : Bytes} (h : Stands data pos bytes) :
    slice data pos (pos + bytes.length : ℕ) = some bytes := by
  obtain ⟨rest, hrest⟩ := h.starts
  have hle := h.le
  rw [Pendant.slice, if_pos (by omega)]
  have hlength : ((pos + bytes.length : ℕ) - (pos : ℤ)).toNat = bytes.length := by omega
  rw [hlength, Int.toNat_natCast, ← hrest, List.take_left]

end positions

/-! ### The codec -/

/-- The last bytes of a varint, at most `more + 1` of them. -/
def encodeVarintBytes : ℕ → ℕ → Bytes
  | 0, value => [UInt8.ofNat (value % 128)]
  | more + 1, value =>
    if 127 < value then UInt8.ofNat (value % 128 + 128) :: encodeVarintBytes more (value / 128)
    else [UInt8.ofNat (value % 128)]

/-- `encodeVarint` of a value that is not negative: seven bits a byte, the lowest first. -/
def encodeVarint (value : ℕ) : Bytes := encodeVarintBytes 9 value

/-- The loop of `decodeVarint` over the bytes from the position on. How far a shift reaches
depends on the language. -/
def decodeVarintBytes (shiftLeft : ℕ → ℕ → ℕ) : ℕ → ℕ → ℕ → Bytes → ℕ × ℕ
  | result, _, pos, [] => (result, pos)
  | result, shift, pos, byte :: rest =>
    let result := result ||| shiftLeft (byte.toNat % 128) shift
    if byte.toNat < 128 then (result, pos + 1)
    else decodeVarintBytes shiftLeft result (shift + 7) (pos + 1) rest

/-- The value, as a signed integer of 64 bits, and the position after it. -/
def decodeVarint (shiftLeft : ℕ → ℕ → ℕ) (data : Bytes) (pos : ℤ) : ℤ × ℤ :=
  let (result, next) := decodeVarintBytes shiftLeft 0 0 pos.toNat (data.drop pos.toNat)
  ((result : ℤ).bmod (2 ^ 64), next)

/-- A shift that keeps what fits 64 bits. -/
def KeepsBits (shiftLeft : ℕ → ℕ → ℕ) : Prop :=
  ∀ bits shift, bits * 2 ^ shift < 2 ^ 64 → shiftLeft bits shift = bits * 2 ^ shift

/-- Kotlin and Swift take the shift modulo 64. -/
def shiftLeftMasked (bits shift : ℕ) : ℕ := bits <<< (shift % 64) % 2 ^ 64

/-- Dart shifts everything out. -/
def shiftLeftLong (bits shift : ℕ) : ℕ := bits <<< shift % 2 ^ 64

theorem keepsBits_masked : KeepsBits shiftLeftMasked := by
  intro bits shift hfits
  unfold shiftLeftMasked
  rcases Nat.eq_zero_or_pos bits with rfl | hpos
  · simp
  · have hshift : shift < 64 := by
      rw [← Nat.pow_lt_pow_iff_right (a := 2) (by omega)]
      exact (Nat.le_mul_of_pos_left _ hpos).trans_lt hfits
    rw [Nat.mod_eq_of_lt hshift, Nat.shiftLeft_eq, Nat.mod_eq_of_lt hfits]

theorem keepsBits_long : KeepsBits shiftLeftLong := by
  intro bits shift hfits
  rw [shiftLeftLong, Nat.shiftLeft_eq, Nat.mod_eq_of_lt hfits]

variable {shiftLeft : ℕ → ℕ → ℕ}

theorem encodeVarint_ne_nil (value : ℕ) : encodeVarint value ≠ [] := by
  unfold encodeVarint encodeVarintBytes
  split_ifs <;> exact List.cons_ne_nil _ _

/-- The bits read so far lie below the shift, so that or-ing the next ones adds them. -/
theorem or_shifted {result shift : ℕ} (hresult : result < 2 ^ shift) (bits : ℕ) :
    result ||| bits * 2 ^ shift = result + bits * 2 ^ shift := by
  rw [Nat.mul_comm, Nat.or_comm, ← Nat.two_pow_add_eq_or_of_lt hresult, Nat.add_comm]

section decode
variable {result shift : ℕ} (hresult : result < 2 ^ shift) (hshift : KeepsBits shiftLeft)
include hresult hshift

theorem decodeVarintBytes_last {bits : ℕ} (hbits : bits < 128) (hfits : bits * 2 ^ shift < 2 ^ 64)
    (pos : ℕ) (rest : Bytes) :
    decodeVarintBytes shiftLeft result shift pos (UInt8.ofNat bits :: rest) =
      (result + bits * 2 ^ shift, pos + 1) := by
  have hbyte : (UInt8.ofNat bits).toNat = bits := by
    rw [UInt8.toNat_ofNat']
    omega
  rw [decodeVarintBytes, hbyte, if_pos hbits, Nat.mod_eq_of_lt hbits, hshift bits shift hfits,
    or_shifted hresult]

theorem decodeVarintBytes_more {bits : ℕ} (hbits : bits < 128) (hfits : bits * 2 ^ shift < 2 ^ 64)
    (pos : ℕ) (rest : Bytes) :
    decodeVarintBytes shiftLeft result shift pos (UInt8.ofNat (bits + 128) :: rest) =
      decodeVarintBytes shiftLeft (result + bits * 2 ^ shift) (shift + 7) (pos + 1) rest := by
  have hbyte : (UInt8.ofNat (bits + 128)).toNat = bits + 128 := by
    rw [UInt8.toNat_ofNat']
    omega
  have hlow : (bits + 128) % 128 = bits := by omega
  rw [decodeVarintBytes, hbyte, if_neg (by omega), hlow, hshift bits shift hfits,
    or_shifted hresult]

end decode

theorem decodeVarintBytes_encode (hshift : KeepsBits shiftLeft) {more value result shift : ℕ}
    (hvalue : value < 128 ^ (more + 1)) (hfits : value * 2 ^ shift < 2 ^ 64)
    (hresult : result < 2 ^ shift) (pos : ℕ) (rest : Bytes) :
    decodeVarintBytes shiftLeft result shift pos (encodeVarintBytes more value ++ rest) =
      (result + value * 2 ^ shift, pos + (encodeVarintBytes more value).length) := by
  have hlast (hsmall : value < 128) :
      decodeVarintBytes shiftLeft result shift pos ([UInt8.ofNat (value % 128)] ++ rest) =
        (result + value * 2 ^ shift, pos + 1) := by
    rw [Nat.mod_eq_of_lt hsmall]
    exact decodeVarintBytes_last hresult hshift hsmall hfits pos rest
  induction more generalizing value result shift pos with
  | zero => exact hlast (by omega)
  | succ more ih =>
    unfold encodeVarintBytes
    split_ifs with hmore
    · have hlow : value % 128 < 128 := Nat.mod_lt _ (by omega)
      have hsplit : value % 128 * 2 ^ shift + value / 128 * 2 ^ (shift + 7) =
          value * 2 ^ shift := by
        calc value % 128 * 2 ^ shift + value / 128 * 2 ^ (shift + 7)
            = (128 * (value / 128) + value % 128) * 2 ^ shift := by ring
          _ = value * 2 ^ shift := by rw [Nat.div_add_mod]
      have hread : result + value % 128 * 2 ^ shift < 2 ^ (shift + 7) := by
        have hbits : value % 128 * 2 ^ shift ≤ 127 * 2 ^ shift :=
          Nat.mul_le_mul_right _ (by omega)
        have hpow : 2 ^ (shift + 7) = 128 * 2 ^ shift := by ring
        omega
      have hdiv : value / 128 < 128 ^ (more + 1) := by
        rw [Nat.div_lt_iff_lt_mul (by omega), ← pow_succ]
        exact hvalue
      rw [List.cons_append, decodeVarintBytes_more hresult hshift hlow (by omega),
        ih hdiv (by omega) hread, List.length_cons]
      · congr 1
        · omega
        · omega
      · intro hsmall
        rw [Nat.mod_eq_of_lt hsmall]
        exact decodeVarintBytes_last hread hshift hsmall (by omega) _ rest
    · exact hlast (by omega)

/-- Two's complement of a value between its bounds is the value. -/
theorem bmod_eq_self {value : ℤ} {half : ℕ} (hlow : -(half : ℤ) ≤ value) (hhigh : value < half) :
    value.bmod (2 * half) = value := by
  apply Int.bmod_eq_of_le
  · push_cast
    omega
  · push_cast
    omega

/-- A value of 63 bits is read back, and the position is the one after it. -/
theorem decodeVarint_encode (hshift : KeepsBits shiftLeft) {data : Bytes} {pos value : ℕ}
    (h : Stands data pos (encodeVarint value)) (hvalue : value < 9223372036854775808) :
    decodeVarint shiftLeft data pos =
      ((value : ℤ), ((pos + (encodeVarint value).length : ℕ) : ℤ)) := by
  obtain ⟨rest, hrest⟩ := h.starts
  have hbytes : value < 128 ^ (9 + 1) := by omega
  have hfits : value * 2 ^ 0 < 2 ^ 64 := by omega
  have hdecode : decodeVarintBytes shiftLeft 0 0 pos (encodeVarint value ++ rest) =
      (value, pos + (encodeVarint value).length) := by
    have hread := decodeVarintBytes_encode hshift hbytes hfits (Nat.one_pos) pos rest
    rw [Nat.zero_add, pow_zero, Nat.mul_one] at hread
    exact hread
  have hsigned : (value : ℤ).bmod (2 ^ 64) = value := by
    have hwrap : (value : ℤ).bmod (2 * 9223372036854775808) = value :=
      bmod_eq_self (by omega) (by omega)
    exact hwrap
  unfold decodeVarint
  rw [Int.toNat_natCast, ← hrest, hdecode]
  dsimp only
  rw [hsigned]

end Omi.Pendant
