import Mathlib.Tactic.NormNum
import Omi.Pendant.Protocol

/-! The field encoders, and that a walk over encoded fields reads them back. What the proof
needs of a dialect is that it is right about what lies below its bound. -/
namespace Omi.Pendant

/-! ### Lawful dialects -/

/-- Below the bound the integers of the dialect do not overflow and its checks let pass what
fits. -/
structure Dialect.Lawful (dialect : Dialect) (bound : ℕ) : Prop where
  keepsBits : KeepsBits dialect.shiftLeft
  bound_le : bound ≤ 9223372036854775808
  toInt : ∀ value : ℕ, value < bound → dialect.toInt value = value
  advance : ∀ next length : ℕ, next + length < bound →
    dialect.advance next length = (next + length : ℕ)
  fits : ∀ next length stop : ℕ, next + length ≤ stop → stop < bound →
    dialect.fits next length stop
  wrapperFits : ∀ next length stop : ℕ, next + length ≤ stop → stop < bound →
    dialect.wrapperFits next length stop
  audioField : ∀ next length stop size : ℕ, 0 < length → next + length ≤ stop → stop ≤ size →
    size < bound → dialect.audioField next length stop size = .read

namespace Dialect

theorem wrap64_eq {value : ℕ} (h : value < 9223372036854775808) : wrap64 value = value := by
  have hwrap : (value : ℤ).bmod (2 * 9223372036854775808) = value :=
    bmod_eq_self (by omega) (by omega)
  unfold wrap64
  exact hwrap

theorem wrap32_eq {value : ℕ} (h : value < 2147483648) : wrap32 value = value := by
  have hwrap : (value : ℤ).bmod (2 * 2147483648) = value :=
    bmod_eq_self (by omega) (by omega)
  unfold wrap32
  exact hwrap

theorem kotlinFits_of_le {next length stop : ℕ} (hle : next + length ≤ stop)
    (hstop : stop < 2147483648) : kotlinFits next length stop := by
  have hwrap : wrap64 (next + length : ℕ) = (next + length : ℕ) := wrap64_eq (by omega)
  rw [Nat.cast_add] at hwrap
  unfold kotlinFits
  rw [hwrap, Bool.and_eq_true, decide_eq_true_eq, decide_eq_true_eq]
  omega

theorem swiftFits_of_le {next length stop : ℕ} (hle : next + length ≤ stop) :
    swiftFits next length stop := by
  unfold swiftFits
  rw [Bool.and_eq_true, decide_eq_true_eq, decide_eq_true_eq]
  omega

theorem kotlin_lawful : kotlin.Lawful (2147483648) where
  keepsBits := keepsBits_masked
  bound_le := by norm_num
  toInt value h := wrap32_eq h
  advance next length h := by
    show wrap32 (next + wrap32 length) = _
    rw [wrap32_eq (by omega), ← Nat.cast_add, wrap32_eq h]
  fits next length stop hle hstop := kotlinFits_of_le hle hstop
  wrapperFits next length stop hle hstop := kotlinFits_of_le hle hstop
  audioField next length stop size hpos hle hstop hsize := by
    have hfits := kotlinFits_of_le hle (hstop.trans_lt hsize)
    have hwrap : wrap32 length = length := wrap32_eq (by omega)
    show (if !kotlinFits next length stop then AudioField.stop
      else if 0 < wrap32 length then .read else .skip) = .read
    rw [hfits, hwrap, if_neg (by decide), if_pos (by omega)]

theorem swift_lawful : swift.Lawful (9223372036854775808) where
  keepsBits := keepsBits_masked
  bound_le := le_rfl
  toInt _ _ := rfl
  advance _ _ _ := rfl
  fits next length stop hle _ := swiftFits_of_le hle
  wrapperFits next length stop hle _ := swiftFits_of_le hle
  audioField next length stop size hpos hle hstop _ := by
    show (if (length : ℤ) < 0 || (size : ℤ) < length then AudioField.stop
      else if 0 < (length : ℤ) && (next : ℤ) + length ≤ stop then .read else .skip) = .read
    rw [if_neg (by simp; omega), if_pos (by simp; omega)]

theorem dart_lawful : dart.Lawful (9223372036854775808) where
  keepsBits := keepsBits_long
  bound_le := le_rfl
  toInt _ _ := rfl
  advance next length h := by
    show wrap64 (next + length) = _
    rw [← Nat.cast_add, wrap64_eq h]
  fits next length stop hle _ := swiftFits_of_le hle
  wrapperFits next length stop hle hstop := by
    show decide (wrap64 (next + length) ≤ stop) = true
    rw [← Nat.cast_add, wrap64_eq (hle.trans_lt hstop), decide_eq_true_eq]
    exact_mod_cast hle
  audioField next length stop size hpos hle hstop hsize := by
    have hwrap := wrap64_eq (hle.trans_lt (hstop.trans_lt hsize))
    show (if 0 < (length : ℤ) && wrap64 (next + length) ≤ stop then AudioField.read else .skip) =
      .read
    rw [← Nat.cast_add, hwrap, if_pos (by simp; omega)]

end Dialect

/-! ### Encoders -/

def encodeField (fieldNum wireType : ℕ) (value : Bytes) : Bytes :=
  encodeVarint (fieldNum * 8 + wireType) ++ value

def encodeBytesField (fieldNum : ℕ) (data : Bytes) : Bytes :=
  encodeField fieldNum 2 (encodeVarint data.length ++ data)

def encodeIntField (fieldNum value : ℕ) : Bytes := encodeField fieldNum 0 (encodeVarint value)

/-- A value that a signed integer of 64 bits holds. -/
abbrev Varint := Fin (9223372036854775808)

theorem encodeVarint_small {value : ℕ} (h : value < 128) :
    encodeVarint value = [UInt8.ofNat value] := by
  unfold encodeVarint encodeVarintBytes
  rw [if_neg (by omega), Nat.mod_eq_of_lt h]

section fields
variable {data : Bytes} {pos fieldNum wireType : ℕ}

/-- The tag of a small field is one byte. -/
theorem Stands.tag {value : Bytes} (h : Stands data pos (encodeField fieldNum wireType value))
    (hnum : fieldNum < 16) (htype : wireType < 8) :
    Pendant.byteAt data pos = some (fieldNum * 8 + wireType) ∧ Stands data (pos + 1) value := by
  have hsmall : fieldNum * 8 + wireType < 128 := by omega
  rw [encodeField, encodeVarint_small hsmall] at h
  refine ⟨?_, h.tail⟩
  rw [h.byteAt, UInt8.toNat_ofNat']
  congr 1
  omega

variable {dialect : Dialect} {bound : ℕ} (hlaw : dialect.Lawful bound)
include hlaw

/-- A varint field: the value and the position after it. -/
theorem Stands.intField {value : Varint} (h : Stands data pos (encodeIntField fieldNum value))
    (hnum : fieldNum < 16) :
    Pendant.byteAt data pos = some (fieldNum * 8) ∧
      decodeVarint dialect.shiftLeft data (pos + 1) =
        ((value.val : ℤ), ((pos + (encodeIntField fieldNum value).length : ℕ) : ℤ)) := by
  obtain ⟨htag, hvalue⟩ := h.tag hnum (by omega)
  have hdecode := decodeVarint_encode hlaw.keepsBits hvalue value.isLt
  have hlength : (encodeIntField fieldNum value).length = (encodeVarint value).length + 1 := by
    rw [encodeIntField, encodeField, encodeVarint_small (by omega), List.length_append,
      List.length_singleton, Nat.add_comm]
  refine ⟨htag, ?_⟩
  rw [hlength, ← Nat.add_assoc, Nat.add_right_comm, ← hdecode]
  rfl

/-- A length-delimited field: the length, and where its bytes stand. -/
theorem Stands.bytesField {value : Bytes} (h : Stands data pos (encodeBytesField fieldNum value))
    (hnum : fieldNum < 16) (hbound : data.length < bound) :
    ∃ start : ℕ, pos + 2 ≤ start ∧
      start + value.length = pos + (encodeBytesField fieldNum value).length ∧
      Pendant.byteAt data pos = some (fieldNum * 8 + 2) ∧
      decodeVarint dialect.shiftLeft data (pos + 1) = ((value.length : ℤ), (start : ℤ)) ∧
      Stands data start value := by
  have hle := h.le
  have hsize := hlaw.bound_le
  obtain ⟨htag, hrest⟩ := h.tag hnum (by omega)
  have hlength : (encodeBytesField fieldNum value).length =
      1 + ((encodeVarint value.length).length + value.length) := by
    rw [encodeBytesField, encodeField, encodeVarint_small (by omega), List.length_append,
      List.length_singleton, List.length_append]
  have hdecode := decodeVarint_encode hlaw.keepsBits hrest.left (by omega)
  have hpos := List.length_pos_of_ne_nil (encodeVarint_ne_nil value.length)
  refine ⟨pos + 1 + (encodeVarint value.length).length, by omega, by omega, htag, ?_, hrest.right⟩
  rw [← hdecode]
  rfl

end fields

/-! ### Walks -/

instance neZero_fieldNums : NeZero 16 := ⟨by decide⟩

/-- A field as the pendant sends it. -/
inductive WireField where
  | int (fieldNum : Fin 16) (value : Varint)
  | bytes (fieldNum : Fin 16) (data : Bytes)
  deriving DecidableEq, Repr

def WireField.encode : WireField → Bytes
  | .int fieldNum value => encodeIntField fieldNum value
  | .bytes fieldNum data => encodeBytesField fieldNum data

def encodeFields (fields : List WireField) : Bytes := fields.flatMap WireField.encode

/-- What a walk that reads one length-delimited field sees of it. -/
def WireField.read (wanted : ℕ) : WireField → Option Field
  | .int fieldNum value => some (.varint fieldNum value.val)
  | .bytes fieldNum data => if fieldNum.val = wanted then some (.bytes data) else none

theorem encode_ne_nil (field : WireField) : field.encode ≠ [] := by
  cases field with
  | int fieldNum value =>
    exact List.append_ne_nil_of_left_ne_nil (encodeVarint_ne_nil _) _
  | bytes fieldNum data =>
    exact List.append_ne_nil_of_left_ne_nil (encodeVarint_ne_nil _) _

theorem length_le_encodeFields (fields : List WireField) :
    fields.length ≤ (encodeFields fields).length := by
  induction fields with
  | nil => exact Nat.zero_le _
  | cons field rest ih =>
    have hpos := List.length_pos_of_ne_nil (encode_ne_nil field)
    rw [encodeFields, List.flatMap_cons, List.length_append, List.length_cons]
    rw [encodeFields] at ih
    omega

section walks
variable {dialect : Dialect} {bound : ℕ} (hlaw : dialect.Lawful bound)
include hlaw

/-- The induction is on the fields that are left; the walk stands before the first. -/
theorem walkFields_encode {data : Bytes} (hbound : data.length < bound) (walk : Walk)
    {fields : List WireField} {pos fuel : ℕ} (h : Stands data pos (encodeFields fields))
    (hend : pos + (encodeFields fields).length = data.length) (hfuel : fields.length < fuel) :
    walkFields dialect walk data fuel pos =
      (fields.filterMap (WireField.read walk.wanted), .finished) := by
  induction fields generalizing pos fuel with
  | nil =>
    obtain ⟨fuel, rfl⟩ : ∃ n, fuel = n + 1 := ⟨fuel - 1, by omega⟩
    have hpos : ¬ (pos : ℤ) < data.length := by
      rw [encodeFields, List.flatMap_nil, List.length_nil] at hend
      omega
    rw [walkFields, if_neg hpos]
    rfl
  | cons field rest ih =>
    obtain ⟨fuel, rfl⟩ : ∃ n, fuel = n + 1 := ⟨fuel - 1, by omega⟩
    have hfirst := h.left
    have hrest := h.right
    have hlength : (encodeFields (field :: rest)).length =
        field.encode.length + (encodeFields rest).length := List.length_append
    have hne := List.length_pos_of_ne_nil (encode_ne_nil field)
    have hpos : (pos : ℤ) < data.length := by omega
    have hturns : rest.length < fuel := by simpa using hfuel
    have hwalk := ih hrest (by omega) hturns
    rw [walkFields, if_pos hpos]
    cases field with
    | int fieldNum value =>
      obtain ⟨htag, hdecode⟩ := hfirst.intField hlaw fieldNum.isLt
      have htype : fieldNum.val * 8 % 8 = 0 := by omega
      have hnum : fieldNum.val * 8 / 8 = fieldNum.val := by omega
      have hread : (WireField.int fieldNum value).read walk.wanted =
          some (.varint fieldNum value.val) := rfl
      rw [htag, hdecode]
      dsimp only
      rw [if_pos htype, hnum, List.filterMap_cons_some hread]
      exact congrArg (Field.prepend _) hwalk
    | bytes fieldNum value =>
      obtain ⟨start, -, hstop, htag, hdecode, hvalue⟩ :=
        hfirst.bytesField hlaw fieldNum.isLt hbound
      have hle := hvalue.le
      have htype : ¬ (fieldNum.val * 8 + 2) % 8 = 0 := by omega
      have htype' : (fieldNum.val * 8 + 2) % 8 = 2 := by omega
      have hnum : (fieldNum.val * 8 + 2) / 8 = fieldNum.val := by omega
      have hadvance : dialect.advance start value.length =
          (pos + (encodeBytesField fieldNum value).length : ℕ) := by
        rw [hlaw.advance start value.length (by omega), hstop]
      have hslice := hvalue.slice
      rw [hstop] at hslice
      rw [htag, hdecode]
      dsimp only
      rw [if_neg htype, if_pos htype', if_pos (hlaw.fits _ _ _ hle hbound), hnum, hadvance]
      by_cases hwanted : fieldNum.val = walk.wanted
      · have hread : (WireField.bytes fieldNum value).read walk.wanted = some (.bytes value) :=
          if_pos hwanted
        rw [if_pos hwanted, hslice, List.filterMap_cons_some hread]
        exact congrArg (Field.prepend _) hwalk
      · have hread : (WireField.bytes fieldNum value).read walk.wanted = none := if_neg hwanted
        rw [if_neg hwanted, List.filterMap_cons_none hread]
        exact hwalk

/-- A message of encoded fields is walked to its end. -/
theorem fieldsOf_encode {fields : List WireField} (hbound : (encodeFields fields).length < bound)
    (walk : Walk) :
    fieldsOf dialect walk (encodeFields fields) =
      (fields.filterMap (WireField.read walk.wanted), .finished) := by
  have hfuel := length_le_encodeFields fields
  exact walkFields_encode hlaw hbound walk (stands_self _) (Nat.zero_add _) (by omega)

end walks

end Omi.Pendant
