import Omi.Pendant.RoundTrip

/-! Which pages of the pendant count as diagnostic: the classifier of the three parsers against a
walk over the page by protobuf wire types. -/
namespace Omi.Pendant

/-! ### Walking by wire types -/

/-- A varint and the bytes behind it, unless the bytes end inside it. -/
def readVarint : Bytes → Option (ℕ × Bytes)
  | [] => none
  | byte :: rest =>
    if byte.toNat < 128 then some (byte.toNat, rest)
    else (readVarint rest).map fun more => (byte.toNat % 128 + 128 * more.1, more.2)

/-- What stands behind a tag. -/
inductive FieldRead where
  | whole (contents rest : Bytes)
  | oversized (missing : ℕ)
  | cutOff
  | unknownType
  deriving DecidableEq, Repr

def readFixed (width : ℕ) (bytes : Bytes) : FieldRead :=
  if width ≤ bytes.length then .whole [] (bytes.drop width) else .cutOff

/-- The value of a field by the wire type of its tag; of a varint or a fixed value there are no
contents. -/
def readField (tag : UInt8) (bytes : Bytes) : FieldRead :=
  match tag.toNat % 8 with
  | 0 =>
    match readVarint bytes with
    | none => .cutOff
    | some (_, rest) => .whole [] rest
  | 1 => readFixed 8 bytes
  | 2 =>
    match readVarint bytes with
    | none => .cutOff
    | some (length, rest) =>
      if length ≤ rest.length then .whole (rest.take length) (rest.drop length)
      else .oversized (length - rest.length)
  | 5 => readFixed 4 bytes
  | _ => .unknownType

/-- The first thing on a walk that is not a whole field without audio. -/
inductive Anomaly where
  /-- A 0x12 subfield of a wrapper, or an unknown wire type in one. -/
  | audio
  /-- An unknown wire type of the page, with this many bytes behind its tag. -/
  | unknownType (behind : ℕ)
  /-- A wrapper whose length reaches this many bytes past the end of the page. -/
  | oversizedWrapper (missing : ℕ)
  /-- Any other field that does not end within what holds it. -/
  | cutOff
  deriving DecidableEq, Repr

theorem length_readVarint {bytes rest : Bytes} {value : ℕ}
    (h : readVarint bytes = some (value, rest)) : rest.length < bytes.length := by
  induction bytes generalizing value with
  | nil => cases h
  | cons byte bytes ih =>
    rw [readVarint] at h
    split_ifs at h with hlast
    · cases h
      exact Nat.lt_succ_self _
    · obtain ⟨⟨more, left⟩, hmore, heq⟩ := Option.map_eq_some_iff.mp h
      cases heq
      exact (ih hmore).trans (Nat.lt_succ_self _)

theorem length_readFixed {width : ℕ} {bytes contents rest : Bytes} (hwidth : 0 < width)
    (h : readFixed width bytes = .whole contents rest) :
    contents.length + rest.length < bytes.length := by
  unfold readFixed at h
  split_ifs at h with hfits
  cases h
  rw [List.length_nil, List.length_drop]
  omega

/-- A field that is whole is more than its contents. -/
theorem length_readField {tag : UInt8} {bytes contents rest : Bytes}
    (h : readField tag bytes = .whole contents rest) :
    contents.length + rest.length < bytes.length := by
  unfold readField at h
  split at h
  · split at h
    · cases h
    next hread =>
      cases h
      rw [List.length_nil, Nat.zero_add]
      exact length_readVarint hread
  · exact length_readFixed (by decide) h
  · split at h
    · cases h
    next hread =>
      split_ifs at h with hfits
      cases h
      have hshort := length_readVarint hread
      rw [List.length_take_of_le hfits, List.length_drop]
      omega
  · exact length_readFixed (by decide) h
  · cases h

/-- The walk over a wrapper's contents. A tag with nothing behind it is cut off. -/
def wrapperAnomaly : Bytes → Option Anomaly
  | [] => none
  | tag :: bytes =>
    if bytes = [] then some .cutOff
    else if tag = 0x12 then some .audio
    else
      match h : readField tag bytes with
      | .whole _ rest =>
        have := length_readField h
        wrapperAnomaly rest
      | .unknownType => some .audio
      | .oversized _ | .cutOff => some .cutOff
termination_by bytes => bytes.length

/-- The walk over a page. -/
def pageAnomaly : Bytes → Option Anomaly
  | [] => none
  | tag :: bytes =>
    if bytes = [] then some .cutOff
    else
      match h : readField tag bytes with
      | .whole contents rest =>
        have := length_readField h
        if tag = 0x1a then (wrapperAnomaly contents).or (pageAnomaly rest) else pageAnomaly rest
      | .oversized missing =>
        if tag = 0x1a then some (.oversizedWrapper missing) else some .cutOff
      | .cutOff => some .cutOff
      | .unknownType => some (.unknownType bytes.length)
termination_by bytes => bytes.length

/-! ### The bytes a parser reads -/

section reads
variable {shiftLeft : ℕ → ℕ → ℕ} {data bytes rest contents : Bytes} {pos value width : ℕ}
  {tag : UInt8}

theorem suffix_of_readVarint (h : readVarint bytes = some (value, rest)) : rest <:+ bytes := by
  induction bytes generalizing value with
  | nil => cases h
  | cons byte bytes ih =>
    rw [readVarint] at h
    split_ifs at h with hlast
    · cases h
      exact List.suffix_cons _ _
    · obtain ⟨⟨more, left⟩, hmore, heq⟩ := Option.map_eq_some_iff.mp h
      cases heq
      exact (ih hmore).trans (List.suffix_cons _ _)

/-- The end of what stands in the data stands there too. -/
theorem Stands.suffix (h : Stands data pos bytes) (hrest : rest <:+ bytes) :
    ∃ next : ℕ, Stands data next rest ∧ next + rest.length = pos + bytes.length := by
  obtain ⟨used, rfl⟩ := hrest
  exact ⟨pos + used.length, h.right, by rw [List.length_append]; omega⟩

/-- The loop of a decoder over a varint that ends. -/
theorem decodeVarintBytes_read (hshift : KeepsBits shiftLeft)
    (h : readVarint bytes = some (value, rest)) (result shift pos : ℕ) (after : Bytes) :
    (decodeVarintBytes shiftLeft result shift pos (bytes ++ after)).2 + rest.length =
        pos + bytes.length ∧
      (result < 2 ^ shift → value * 2 ^ shift < 2 ^ 64 →
        (decodeVarintBytes shiftLeft result shift pos (bytes ++ after)).1 =
          result + value * 2 ^ shift) := by
  induction bytes generalizing value result shift pos with
  | nil => cases h
  | cons byte bytes ih =>
    rw [readVarint] at h
    split_ifs at h with hlast
    · cases h
      rw [List.cons_append, decodeVarintBytes, if_pos hlast, Nat.mod_eq_of_lt hlast]
      refine ⟨by rw [List.length_cons]; omega, fun hresult hfits => ?_⟩
      rw [hshift _ _ hfits, or_shifted hresult]
    · obtain ⟨⟨more, left⟩, hmore, heq⟩ := Option.map_eq_some_iff.mp h
      cases heq
      rw [List.cons_append, decodeVarintBytes, if_neg hlast]
      obtain ⟨hposition, hvalue⟩ := ih hmore (result ||| shiftLeft (byte.toNat % 128) shift)
        (shift + 7) (pos + 1)
      refine ⟨by rw [List.length_cons]; omega, fun hresult hfits => ?_⟩
      have hsplit : (byte.toNat % 128 + 128 * more) * 2 ^ shift =
          byte.toNat % 128 * 2 ^ shift + more * 2 ^ (shift + 7) := by ring
      have hlow : byte.toNat % 128 < 128 := Nat.mod_lt _ (by decide)
      have hgrown : result + byte.toNat % 128 * 2 ^ shift < 2 ^ (shift + 7) := by
        have hbits : byte.toNat % 128 * 2 ^ shift ≤ 127 * 2 ^ shift :=
          Nat.mul_le_mul_right _ (by omega)
        have hpow : 2 ^ (shift + 7) = 128 * 2 ^ shift := by ring
        omega
      rw [hsplit] at hfits ⊢
      rw [hshift _ _ (by omega), or_shifted hresult] at hvalue
      rw [hshift _ _ (by omega), or_shifted hresult, hvalue hgrown (by omega)]
      omega

/-- A varint that stands in the data is decoded, and the position is the one behind it. -/
theorem Stands.decode (h : Stands data pos bytes) (hshift : KeepsBits shiftLeft)
    (hread : readVarint bytes = some (value, rest)) :
    ∃ next : ℕ, (decodeVarint shiftLeft data pos).2 = next ∧ Stands data next rest ∧
      next + rest.length = pos + bytes.length ∧
      (value < 9223372036854775808 → (decodeVarint shiftLeft data pos).1 = value) := by
  obtain ⟨next, hstands, hnext⟩ := h.suffix (suffix_of_readVarint hread)
  obtain ⟨after, hafter⟩ := h.starts
  obtain ⟨hposition, hvalue⟩ := decodeVarintBytes_read hshift hread 0 0 pos after
  have hend : (decodeVarintBytes shiftLeft 0 0 pos (bytes ++ after)).2 = next := by omega
  refine ⟨next, ?_, hstands, hnext, fun hsmall => ?_⟩
  · unfold decodeVarint
    rw [Int.toNat_natCast, ← hafter]
    exact congrArg Nat.cast hend
  · have hdecoded := hvalue (by decide) (by omega)
    rw [pow_zero, Nat.mul_one, Nat.zero_add] at hdecoded
    have hsigned : (value : ℤ).bmod (2 ^ 64) = value := by
      have hwrap : (value : ℤ).bmod (2 * 9223372036854775808) = value :=
        bmod_eq_self (by omega) (by omega)
      exact hwrap
    unfold decodeVarint
    have hpair : decodeVarintBytes shiftLeft 0 0 pos (bytes ++ after) = (value, next) :=
      Prod.ext hdecoded hend
    rw [Int.toNat_natCast, ← hafter, hpair]
    dsimp only
    rw [hsigned]

/-- How a parser gets behind a whole field at the position, to the next one. -/
inductive Passed (shiftLeft : ℕ → ℕ → ℕ) (data : Bytes) (pos : ℕ) (tag : UInt8)
    (contents : Bytes) (next : ℕ) : Prop
  | varint (hwire : tag.toNat % 8 = 0)
    (hdecode : (decodeVarint shiftLeft data ((pos : ℤ) + 1)).2 = next)
  | fixed64 (hwire : tag.toNat % 8 = 1) (hnext : next = pos + 9)
  | fixed32 (hwire : tag.toNat % 8 = 5) (hnext : next = pos + 5)
  | delimited (start : ℕ) (hwire : tag.toNat % 8 = 2)
    (hdecode : decodeVarint shiftLeft data ((pos : ℤ) + 1) =
      ((contents.length : ℤ), (start : ℤ)))
    (hnext : next = start + contents.length) (hcontents : Stands data start contents)

theorem Stands.readFixed (h : Stands data pos bytes)
    (hread : readFixed width bytes = .whole contents rest) :
    Stands data (pos + width) rest ∧ pos + width + rest.length = pos + bytes.length := by
  unfold Pendant.readFixed at hread
  split_ifs at hread with hfits
  cases hread
  have hsplit : bytes.take width ++ bytes.drop width = bytes := List.take_append_drop _ _
  have hlength : (bytes.take width).length = width := List.length_take_of_le hfits
  rw [← hsplit] at h
  have hright := h.right
  rw [hlength] at hright
  exact ⟨hright, by rw [List.length_drop]; omega⟩

theorem Stands.readField (h : Stands data pos (tag :: bytes)) (hshift : KeepsBits shiftLeft)
    (hdata : data.length < 9223372036854775808)
    (hread : readField tag bytes = .whole contents rest) :
    ∃ next : ℕ, Passed shiftLeft data pos tag contents next ∧ Stands data next rest ∧
      next + rest.length = pos + 1 + bytes.length := by
  have hbytes := h.tail
  unfold Pendant.readField at hread
  split at hread
  next hwire =>
    split at hread
    · cases hread
    next value rest' hvarint =>
      cases hread
      obtain ⟨next, hdecode, hstands, hnext, -⟩ := hbytes.decode hshift hvarint
      exact ⟨next, .varint hwire hdecode, hstands, hnext⟩
  next hwire =>
    obtain ⟨hstands, hnext⟩ := hbytes.readFixed hread
    exact ⟨pos + 1 + 8, .fixed64 hwire rfl, hstands, hnext⟩
  next hwire =>
    split at hread
    · cases hread
    next length rest' hvarint =>
      split_ifs at hread with hfits
      cases hread
      obtain ⟨start, hdecode, hstands, hnext, hvalue⟩ := hbytes.decode hshift hvarint
      have hinside := hstands.le
      have hsplit : rest'.take length ++ rest'.drop length = rest' := List.take_append_drop _ _
      have hlength : (rest'.take length).length = length := List.length_take_of_le hfits
      rw [← hsplit] at hstands
      have hright := hstands.right
      rw [hlength] at hright
      refine ⟨start + length, .delimited start hwire ?_ ?_ hstands.left, hright, ?_⟩
      · rw [hlength]
        exact Prod.ext (hvalue (by omega)) hdecode
      · rw [hlength]
      · rw [List.length_drop]
        omega
  next hwire =>
    obtain ⟨hstands, hnext⟩ := hbytes.readFixed hread
    exact ⟨pos + 1 + 4, .fixed32 hwire rfl, hstands, hnext⟩
  next => cases hread

end reads

/-- The wire types that are stepped over. -/
theorem wire_of_unknownType {tag : UInt8} {bytes : Bytes}
    (h : readField tag bytes = .unknownType) : tag.toNat % 8 ≠ 0 ∧ tag.toNat % 8 ≠ 1 ∧
      tag.toNat % 8 ≠ 2 ∧ tag.toNat % 8 ≠ 5 := by
  unfold readField readFixed at h
  split at h
  · split at h <;> cases h
  · split_ifs at h
  · split at h
    · cases h
    · split_ifs at h
  · split_ifs at h
  next h0 h1 h2 h5 => exact ⟨h0, h1, h2, h5⟩

theorem of_oversized {tag : UInt8} {bytes : Bytes} {missing : ℕ}
    (h : readField tag bytes = .oversized missing) : ∃ length rest,
      readVarint bytes = some (length, rest) ∧ rest.length < length ∧
        missing = length - rest.length := by
  unfold readField readFixed at h
  split at h
  · split at h <;> cases h
  · split_ifs at h
  · split at h
    · cases h
    next length rest hread =>
      split_ifs at h with hfits
      injection h with h
      exact ⟨length, rest, hread, not_le.mp hfits, h.symm⟩
  · split_ifs at h
  · cases h

/-- A field that is stepped over, of the page. -/
theorem pageAnomaly_whole {tag : UInt8} {bytes contents rest : Bytes}
    (hread : readField tag bytes = .whole contents rest) (htag : tag ≠ 0x1a) :
    pageAnomaly (tag :: bytes) = pageAnomaly rest := by
  have hshort := length_readField hread
  have hne : bytes ≠ [] := List.length_pos_iff.mp (by omega)
  rw [pageAnomaly, if_neg hne]
  split
  next _ _ hread' =>
    rw [hread] at hread'
    cases hread'
    exact if_neg htag
  next _ hread' => rw [hread] at hread'; cases hread'
  next hread' => rw [hread] at hread'; cases hread'
  next hread' => rw [hread] at hread'; cases hread'

theorem pageAnomaly_cutOff {tag : UInt8} {bytes : Bytes} (hread : readField tag bytes = .cutOff) :
    pageAnomaly (tag :: bytes) = some .cutOff := by
  rw [pageAnomaly]
  by_cases hempty : bytes = []
  · exact if_pos hempty
  · rw [if_neg hempty]
    split
    next hread' => rw [hread] at hread'; cases hread'
    next hread' => rw [hread] at hread'; cases hread'
    next => rfl
    next hread' => rw [hread] at hread'; cases hread'

theorem pageAnomaly_oversized {bytes : Bytes} {missing : ℕ}
    (hread : readField 0x1a bytes = .oversized missing) :
    pageAnomaly (0x1a :: bytes) = some (.oversizedWrapper missing) := by
  have hne : bytes ≠ [] := by
    rintro rfl
    cases hread
  rw [pageAnomaly, if_neg hne]
  split
  next hread' => rw [hread] at hread'; cases hread'
  next hread' => rw [hread] at hread'; cases hread'; rfl
  next hread' => rw [hread] at hread'; cases hread'
  next hread' => rw [hread] at hread'; cases hread'

/-! ### What the classifier answers -/

/-- Below the bound the classifier steps over what fits, and sees a wrapper that does not. -/
structure Dialect.Steps (dialect : Dialect) (bound : ℕ) : Prop extends dialect.Lawful bound where
  skipSubfield : ∀ next length stop : ℕ, next + length ≤ stop → stop < bound →
    dialect.skipSubfield next length stop = (next + length : ℕ)
  skipField : ∀ next length stop : ℕ, next + length ≤ stop → stop < bound →
    dialect.skipField next length stop = some ((next + length : ℕ) : ℤ)
  wrapperPast : ∀ next length stop : ℕ, stop < next + length →
    next + length < 9223372036854775808 → dialect.wrapperFits next length stop = false

namespace Dialect

theorem kotlin_steps : kotlin.Steps (2147483648) where
  toLawful := kotlin_lawful
  skipSubfield next length stop hle hstop := by
    have hfits := kotlinFits_of_le hle hstop
    have hwrap : wrap32 (next + length : ℕ) = (next + length : ℕ) := wrap32_eq (by omega)
    rw [Nat.cast_add] at hwrap ⊢
    show (if kotlinFits next length stop then wrap32 (next + length) else stop) = _
    rw [if_pos hfits, hwrap]
  skipField next length stop hle hstop := by
    have hfits := kotlinFits_of_le hle hstop
    have hwrap : wrap32 (next + length : ℕ) = (next + length : ℕ) := wrap32_eq (by omega)
    rw [Nat.cast_add] at hwrap ⊢
    show (if kotlinFits next length stop then some (wrap32 (next + length)) else none) = _
    rw [if_pos hfits, hwrap]
  wrapperPast next length stop hpast hsize := by
    have hwrap : wrap64 (next + length : ℕ) = (next + length : ℕ) := wrap64_eq hsize
    rw [Nat.cast_add] at hwrap
    show kotlinFits next length stop = false
    rw [kotlinFits, hwrap, Bool.and_eq_false_iff, decide_eq_false_iff_not,
      decide_eq_false_iff_not]
    omega

theorem swift_steps : swift.Steps (9223372036854775808) where
  toLawful := swift_lawful
  skipSubfield next length stop hle _ := by
    show (if (length : ℤ) < 0 || (stop : ℤ) < next + length then (stop : ℤ)
      else next + length) = _
    rw [if_neg (by simp; omega), Nat.cast_add]
  skipField next length stop hle _ := by
    show (if (length : ℤ) < 0 || (stop : ℤ) < next + length then none
      else some ((next : ℤ) + length)) = _
    rw [if_neg (by simp; omega), Nat.cast_add]
  wrapperPast next length stop hpast _ := by
    show swiftFits next length stop = false
    rw [swiftFits, Bool.and_eq_false_iff, decide_eq_false_iff_not, decide_eq_false_iff_not]
    omega

theorem dart_steps : dart.Steps (9223372036854775808) where
  toLawful := dart_lawful
  skipSubfield next length stop hle hstop := by
    show wrap64 (next + length) = _
    rw [← Nat.cast_add, wrap64_eq (by omega)]
  skipField next length stop hle hstop := by
    show some (wrap64 (next + length)) = _
    rw [← Nat.cast_add, wrap64_eq (by omega)]
  wrapperPast next length stop hpast hsize := by
    show decide (wrap64 (next + length) ≤ stop) = false
    rw [← Nat.cast_add, wrap64_eq hsize, decide_eq_false_iff_not]
    omega

end Dialect

theorem steps_of_mem {parser : Dialect × ℕ} (h : parser ∈ parsers) :
    parser.1.Steps parser.2 := by
  simp only [parsers, List.mem_cons, List.not_mem_nil, or_false] at h
  rcases h with rfl | rfl | rfl
  · exact Dialect.kotlin_steps
  · exact Dialect.swift_steps
  · exact Dialect.dart_steps

/-- The page counts as audio for the anomaly. -/
def Anomaly.Counts : Anomaly → Prop
  | .audio => True
  | .unknownType behind => 2 ≤ behind
  | .oversizedWrapper _ | .cutOff => False

section classifier
variable {dialect : Dialect} {bound : ℕ} {data bytes contents rest : Bytes}
  {pos next stop fuel : ℕ} {tag : UInt8}

theorem wrapperHasAudio_unknown (h : Stands data pos (tag :: bytes))
    (hread : readField tag bytes = .unknownType) (hmore : pos + 1 < stop) :
    wrapperHasAudio dialect data (fuel + 1) pos stop = true := by
  have hwire := wire_of_unknownType hread
  rw [wrapperHasAudio, if_pos (by omega), h.byteAt]
  dsimp only
  split_ifs
  · rfl
  · split
    all_goals first | rfl | omega

theorem wrapperHasAudio_subfield (h : Stands data pos (0x12 :: bytes)) (hmore : pos + 1 < stop) :
    wrapperHasAudio dialect data (fuel + 1) pos stop = true := by
  rw [wrapperHasAudio, if_pos (by omega), h.byteAt]
  rfl

variable (hsteps : dialect.Steps bound) (hbound : data.length < bound)
include hsteps hbound

theorem wrapperHasAudio_passed (h : Stands data pos (tag :: bytes))
    (hpassed : Passed dialect.shiftLeft data pos tag contents next) (htag : tag ≠ 0x12)
    (hmore : pos + 1 < stop) (hnext : next ≤ stop) (hstop : stop ≤ data.length) :
    wrapperHasAudio dialect data (fuel + 1) pos stop =
      wrapperHasAudio dialect data fuel next stop := by
  have hmarker : ¬ tag.toNat = 0x12 := fun heq => htag (UInt8.toNat_inj.mp heq)
  rw [wrapperHasAudio, if_pos (by omega), h.byteAt]
  dsimp only
  rw [if_neg hmarker]
  cases hpassed with
  | varint hwire hdecode =>
    rw [hwire, hdecode]
    rfl
  | fixed64 hwire heq =>
    rw [hwire, heq]
    rfl
  | fixed32 hwire heq =>
    rw [hwire, heq]
    rfl
  | delimited start hwire hdecode heq hcontents =>
    rw [hwire, hdecode]
    dsimp only
    rw [hsteps.skipSubfield start contents.length stop (by omega) (by omega), heq]
    rfl

/-- The classifier's walk over a wrapper, unless a field in it is cut off. -/
theorem wrapperHasAudio_spec (h : Stands data pos bytes) (hfuel : bytes.length ≤ fuel) :
    (wrapperAnomaly bytes = none ∧
        wrapperHasAudio dialect data fuel pos (pos + bytes.length : ℕ) = false) ∨
      (wrapperAnomaly bytes = some .audio ∧
        wrapperHasAudio dialect data fuel pos (pos + bytes.length : ℕ) = true) ∨
      wrapperAnomaly bytes = some .cutOff := by
  induction fuel generalizing pos bytes with
  | zero =>
    obtain rfl : bytes = [] := List.length_eq_zero_iff.mp (Nat.le_zero.mp hfuel)
    left
    rw [wrapperAnomaly]
    exact ⟨rfl, rfl⟩
  | succ fuel ih =>
    cases bytes with
    | nil =>
      left
      rw [wrapperAnomaly, wrapperHasAudio, if_neg (by rw [List.length_nil]; omega)]
      exact ⟨rfl, rfl⟩
    | cons tag bytes =>
      have hinside := h.le
      rw [List.length_cons] at hinside hfuel
      by_cases hempty : bytes = []
      · right; right
        rw [wrapperAnomaly, if_pos hempty]
      have hmore : pos + 1 < pos + (tag :: bytes).length := by
        have := List.length_pos_iff.mpr hempty
        rw [List.length_cons]
        omega
      by_cases htag : tag = 0x12
      · right; left
        subst htag
        rw [wrapperAnomaly, if_neg hempty, if_pos rfl]
        exact ⟨rfl, wrapperHasAudio_subfield h hmore⟩
      rw [wrapperAnomaly, if_neg hempty, if_neg htag]
      split
      next contents rest hread =>
        obtain ⟨next, hpassed, hstands, hnext⟩ := h.readField hsteps.keepsBits
          (hbound.trans_le hsteps.bound_le) hread
        have hshorter := length_readField hread
        have hstop : next + rest.length = pos + (tag :: bytes).length := by
          rw [List.length_cons]
          omega
        rw [wrapperHasAudio_passed hsteps hbound h hpassed htag hmore (by omega)
          (by rw [List.length_cons]; omega), ← hstop]
        exact ih hstands (by omega)
      next hread =>
        right; left
        exact ⟨rfl, wrapperHasAudio_unknown h hread hmore⟩
      next => exact .inr (.inr rfl)
      next => exact .inr (.inr rfl)

theorem pageHasAudio_passed (h : Stands data pos (tag :: bytes))
    (hpassed : Passed dialect.shiftLeft data pos tag contents next) (htag : tag ≠ 0x1a)
    (hmore : pos + 2 < data.length) (hnext : next ≤ data.length) :
    pageHasAudio dialect data (fuel + 1) pos = pageHasAudio dialect data fuel next := by
  have hmarker : ¬ tag.toNat = 0x1a := fun heq => htag (UInt8.toNat_inj.mp heq)
  rw [pageHasAudio, if_pos (by omega), h.byteAt]
  dsimp only
  rw [if_neg hmarker]
  cases hpassed with
  | varint hwire hdecode =>
    rw [hwire, hdecode]
    rfl
  | fixed64 hwire heq =>
    rw [hwire, heq]
    rfl
  | fixed32 hwire heq =>
    rw [hwire, heq]
    rfl
  | delimited start hwire hdecode heq hcontents =>
    rw [hwire, hdecode]
    dsimp only
    rw [hsteps.skipField start contents.length data.length (by omega) hbound, heq]
    rfl

theorem pageHasAudio_wrapper (h : Stands data pos (0x1a :: bytes))
    (hpassed : Passed dialect.shiftLeft data pos 0x1a contents next)
    (hmore : pos + 2 < data.length) :
    ∃ start : ℕ, Stands data start contents ∧ next = start + contents.length ∧
      pageHasAudio dialect data (fuel + 1) pos =
        (wrapperHasAudio dialect data data.length start (start + contents.length : ℕ) ||
          pageHasAudio dialect data fuel next) := by
  cases hpassed with
  | varint hwire => cases hwire
  | fixed64 hwire => cases hwire
  | fixed32 hwire => cases hwire
  | delimited start hwire hdecode heq hcontents =>
    have hinside := hcontents.le
    have hmarker : (0x1a : UInt8).toNat = 0x1a := rfl
    refine ⟨start, hcontents, heq, ?_⟩
    rw [pageHasAudio, if_pos (by omega), h.byteAt]
    dsimp only
    rw [if_pos hmarker, hdecode]
    dsimp only
    rw [if_pos (hsteps.wrapperFits start contents.length data.length hinside hbound),
      hsteps.advance start contents.length (by omega), heq]

omit hbound in
theorem pageHasAudio_oversized {missing : ℕ} (h : Stands data pos (0x1a :: bytes))
    (hend : pos + 1 + bytes.length = data.length)
    (hread : readField 0x1a bytes = .oversized missing)
    (hmissing : data.length + missing < 9223372036854775808) (hmore : pos + 2 < data.length) :
    pageHasAudio dialect data (fuel + 1) pos = false := by
  obtain ⟨length, rest, hvarint, hpast, heq⟩ := of_oversized hread
  obtain ⟨start, hdecode, hstands, hnext, hvalue⟩ := h.tail.decode hsteps.keepsBits hvarint
  have hlength : length = missing + rest.length := by omega
  have hsmall : start + length < 9223372036854775808 := by omega
  have hover : data.length < start + length := by omega
  have hpast := hsteps.wrapperPast start length data.length hover hsmall
  have hvalue := hvalue ((Nat.le_add_left _ _).trans_lt hsmall)
  rw [Nat.cast_add_one] at hdecode hvalue
  have hmarker : (0x1a : UInt8).toNat = 0x1a := rfl
  rw [pageHasAudio, if_pos (by omega), h.byteAt]
  dsimp only
  rw [if_pos hmarker, hdecode, hvalue, hpast]
  rfl

/-- The answer for a page whose walk meets the anomaly first. -/
def AnswersFor (size : ℕ) : Option Anomaly → Bool → Prop
  | none, answer => answer = false
  | some .audio, answer => answer = true
  | some (.unknownType behind), answer => 2 ≤ behind → answer = true
  | some (.oversizedWrapper missing), answer =>
    size + missing < 9223372036854775808 → answer = false
  | some .cutOff, _ => True

omit hsteps hbound in
theorem pageHasAudio_unknown (h : Stands data pos (tag :: bytes))
    (hread : readField tag bytes = .unknownType) (hmore : pos + 2 < data.length) :
    pageHasAudio dialect data (fuel + 1) pos = true := by
  have hwire := wire_of_unknownType hread
  have hmarker : ¬ tag.toNat = 0x1a := by omega
  rw [pageHasAudio, if_pos (by omega), h.byteAt]
  dsimp only
  rw [if_neg hmarker]
  split
  all_goals first | rfl | omega

/-- Behind a wrapper the answer is the wrapper's, or that of the rest of the page. -/
theorem AnswersFor.wrapper {size : ℕ} {anomaly : Option Anomaly} {answer : Bool} {start : ℕ}
    (hcontents : Stands data start contents) (hrest : AnswersFor size anomaly answer) :
    AnswersFor size ((wrapperAnomaly contents).or anomaly)
      (wrapperHasAudio dialect data data.length start (start + contents.length : ℕ) || answer) := by
  have hinside := hcontents.le
  have hfuel : contents.length ≤ data.length := by omega
  rcases wrapperHasAudio_spec hsteps hbound hcontents hfuel with ⟨hnone, hwrapper⟩ |
    ⟨haudio, hwrapper⟩ | hcut
  · rw [hnone, hwrapper]
    exact hrest
  · rw [haudio, hwrapper]
    exact rfl
  · rw [hcut]
    exact trivial

omit hsteps hbound in
/-- The last two bytes of a page, which the classifier does not read. -/
theorem answersFor_tail (size : ℕ) (tag byte : UInt8) :
    AnswersFor size (pageAnomaly [tag, byte]) false := by
  rw [pageAnomaly, if_neg (List.cons_ne_nil _ _)]
  split
  next contents rest hread =>
    have hshort := length_readField hread
    rw [List.length_singleton] at hshort
    obtain rfl : contents = [] := List.length_eq_zero_iff.mp (by omega)
    obtain rfl : rest = [] := List.length_eq_zero_iff.mp (by omega)
    dsimp only
    rw [wrapperAnomaly, pageAnomaly]
    split_ifs <;> rfl
  next =>
    split_ifs
    · exact fun _ => rfl
    · exact trivial
  next => exact trivial
  next =>
    intro hbehind
    rw [List.length_singleton] at hbehind
    omega

/-- The classifier's walk over the rest of a page. -/
theorem pageHasAudio_spec (h : Stands data pos bytes) (hend : pos + bytes.length = data.length)
    (hfuel : bytes.length ≤ fuel) :
    AnswersFor data.length (pageAnomaly bytes) (pageHasAudio dialect data fuel pos) := by
  induction fuel generalizing pos bytes with
  | zero =>
    obtain rfl : bytes = [] := List.length_eq_zero_iff.mp (Nat.le_zero.mp hfuel)
    rw [pageAnomaly]
    exact rfl
  | succ fuel ih =>
    cases bytes with
    | nil =>
      rw [List.length_nil] at hend
      rw [pageAnomaly, pageHasAudio, if_neg (by omega)]
      exact rfl
    | cons tag bytes =>
      rw [List.length_cons] at hend hfuel
      cases bytes with
      | nil =>
        rw [pageAnomaly, if_pos rfl]
        exact trivial
      | cons byte bytes =>
        cases bytes with
        | nil =>
          rw [List.length_singleton] at hend
          rw [pageHasAudio, if_neg (by omega)]
          exact answersFor_tail data.length tag byte
        | cons other bytes =>
          have hmore : pos + 2 < data.length := by
            rw [List.length_cons, List.length_cons] at hend
            omega
          rw [pageAnomaly, if_neg (List.cons_ne_nil _ _)]
          split
          next contents rest hread =>
            obtain ⟨next, hpassed, hstands, hnext⟩ := h.readField hsteps.keepsBits
              (hbound.trans_le hsteps.bound_le) hread
            have hshorter := length_readField hread
            have hrest := ih hstands (by omega) (by omega)
            split_ifs with htag
            · subst htag
              obtain ⟨start, hcontents, -, hanswer⟩ :=
                pageHasAudio_wrapper hsteps hbound h hpassed hmore
              rw [hanswer]
              exact hrest.wrapper hsteps hbound hcontents
            · rw [pageHasAudio_passed hsteps hbound h hpassed htag hmore (by omega)]
              exact hrest
          next missing hread =>
            split_ifs with htag
            · subst htag
              intro hmissing
              exact pageHasAudio_oversized hsteps h (by omega) hread hmissing hmore
            · exact trivial
          next => exact trivial
          next hread =>
            intro _
            exact pageHasAudio_unknown h hread hmore

omit hsteps hbound in
/-- A field of the header is stepped over as any other varint. -/
theorem skipMarked_spec (hshift : KeepsBits dialect.shiftLeft) {marker : UInt8}
    (hwire : marker.toNat % 8 = 0) (h : Stands data pos bytes) (hend : pos + bytes.length = data.length) :
    pageAnomaly bytes = some .cutOff ∨ ∃ (next : ℕ) (rest : Bytes),
      skipMarked dialect data marker.toNat pos = next ∧ Stands data next rest ∧
        next + rest.length = data.length ∧ pageAnomaly bytes = pageAnomaly rest := by
  by_cases hmarked : byteAt data pos = some marker.toNat
  · cases bytes with
    | nil =>
      rw [List.length_nil, Nat.add_zero] at hend
      rw [byteAt, if_pos (Int.natCast_nonneg pos), Int.toNat_natCast,
        List.getElem?_eq_none hend.ge] at hmarked
      cases hmarked
    | cons tag bytes =>
      rw [h.byteAt, Option.some.injEq] at hmarked
      obtain rfl : tag = marker := UInt8.toNat_inj.mp hmarked
      have htag : tag ≠ 0x1a := by
        rintro rfl
        cases hwire
      have hfield : readField tag bytes = match readVarint bytes with
          | none => .cutOff
          | some (_, rest) => .whole [] rest := by
        rw [readField, hwire]
        rfl
      cases hvarint : readVarint bytes with
      | none =>
        rw [hvarint] at hfield
        exact .inl (pageAnomaly_cutOff hfield)
      | some read =>
        rw [hvarint] at hfield
        obtain ⟨next, hdecode, hstands, hnext, -⟩ := h.tail.decode hshift hvarint
        rw [List.length_cons] at hend
        refine .inr ⟨next, read.2, ?_, hstands, by omega, pageAnomaly_whole hfield htag⟩
        rw [skipMarked, if_pos h.byteAt, ← Nat.cast_add_one]
        exact hdecode
  · right
    exact ⟨pos, bytes, if_neg hmarked, h, hend, rfl⟩

/-- The classifier's answer for a whole page. -/
theorem hasAudioSubfields_spec :
    AnswersFor data.length (pageAnomaly data) (hasAudioSubfields dialect data) := by
  have hwire : (0x08 : UInt8).toNat % 8 = 0 := rfl
  have hwire' : (0x10 : UInt8).toNat % 8 = 0 := rfl
  have hfirst := skipMarked_spec hsteps.keepsBits hwire (stands_self data) (Nat.zero_add _)
  rcases hfirst with hcut | htime
  · rw [hcut]
    exact trivial
  · obtain ⟨pos, bytes, hpos, hstands, hend, hsame⟩ := htime
    rw [hsame]
    rcases skipMarked_spec hsteps.keepsBits hwire' hstands hend with hcut | huptime
    · rw [hcut]
      exact trivial
    · obtain ⟨next, rest, hnext, hrest, hlast, hsame'⟩ := huptime
      have hheader : afterHeader dialect data = next := by
        rw [afterHeader]
        exact (congrArg _ hpos).trans hnext
      rw [hsame', hasAudioSubfields, hheader]
      exact pageHasAudio_spec hsteps hbound hrest hlast (by omega)

end classifier

/-! ### Diagnostic pages -/

/-- What the classifier is right about. -/
structure Classified (dialect : Dialect) (page : Bytes) : Prop where
  /-- A page that is surfaced without a frame has no audio and no unknown wire type before its end
  or its first field that is cut off. -/
  diagnostic : extractOpusFramesFromFlashPage dialect page = [] →
    hasAudioSubfields dialect page = false → ∀ anomaly ∈ pageAnomaly page, ¬ anomaly.Counts
  counts : ∀ anomaly ∈ pageAnomaly page, anomaly.Counts → hasAudioSubfields dialect page = true
  /-- A wrapper that reaches past the end of the page ends the walk, -/
  oversized : ∀ missing, pageAnomaly page = some (.oversizedWrapper missing) →
    page.length + missing < 9223372036854775808 → hasAudioSubfields dialect page = false
  clean : pageAnomaly page = none → hasAudioSubfields dialect page = false

/-- The three parsers, on every page that fits their integers. -/
theorem diagnosticPages {parser : Dialect × ℕ} (hparser : parser ∈ parsers) {page : Bytes}
    (hsize : page.length < parser.2) : Classified parser.1 page := by
  have hanswers := hasAudioSubfields_spec (steps_of_mem hparser) hsize
  have hcounts : ∀ anomaly ∈ pageAnomaly page, anomaly.Counts →
      hasAudioSubfields parser.1 page = true := by
    intro anomaly hanomaly hcounted
    rw [Option.mem_def.mp hanomaly] at hanswers
    cases anomaly with
    | audio => exact hanswers
    | unknownType behind => exact hanswers hcounted
    | oversizedWrapper missing => exact hcounted.elim
    | cutOff => exact hcounted.elim
  constructor
  case diagnostic =>
    intro _ hnone anomaly hanomaly hcounted
    rw [hcounts anomaly hanomaly hcounted] at hnone
    cases hnone
  case counts => exact hcounts
  case oversized =>
    intro missing hanomaly hfits
    rw [hanomaly] at hanswers
    exact hanswers hfits
  case clean =>
    intro hclean
    rw [hclean] at hanswers
    exact hanswers

/-- A page that is surfaced without a frame was classified. -/
theorem diagnostic_of_surfaced {dialect : Dialect} {storageData : Bytes} {page : FlashPage}
    (h : parseStorageBuffer dialect storageData = some page) (hnone : page.opusFrames = []) :
    ∃ pageData : Bytes, extractOpusFramesFromFlashPage dialect pageData = [] ∧
      hasAudioSubfields dialect pageData = false ∧
        page.timestampMs = parseFlashPageTimestampMs dialect pageData := by
  unfold parseStorageBuffer at h
  split at h
  · cases h
  · split at h
    · cases h
    · cases h
    next pageData _ _ =>
      dsimp only at h
      split_ifs at h with haudio
      cases h
      refine ⟨pageData, hnone, ?_, rfl⟩
      have hframes : extractOpusFramesFromFlashPage dialect pageData = [] := hnone
      simpa [hframes] using haudio

/-- A page with a wrapper that says to be longer than any page. -/
def oversizedPage : Bytes := [0x1a, 0xfa, 0xff, 0xff, 0xff, 0x1f, 0x00, 0x00, 0x00, 0x00]

theorem diagnosticPages_oversized : oversizedPage.length < 2147483648 ∧
    Classified .kotlin oversizedPage := by
  have hsize : oversizedPage.length < 2147483648 := by decide
  have hparser : ((.kotlin, 2147483648) : Dialect × ℕ) ∈ parsers := List.mem_cons_self
  exact ⟨hsize, diagnosticPages hparser hsize⟩

/-- It is surfaced as diagnostic, by design. -/
theorem not_everyAnomalyCounts : ¬ ∀ parser ∈ parsers, ∀ page : Bytes, page.length < parser.2 →
    extractOpusFramesFromFlashPage parser.1 page = [] →
      hasAudioSubfields parser.1 page = false → pageAnomaly page = none := by
  intro hclaim
  have hparser : ((.kotlin, 2147483648) : Dialect × ℕ) ∈ parsers := List.mem_cons_self
  have hnone := hclaim _ hparser oversizedPage (by decide) (by decide +kernel) (by decide +kernel)
  have hread : readField 0x1a oversizedPage.tail = .oversized 8589934582 := by decide +kernel
  have hanomaly : pageAnomaly oversizedPage = some (.oversizedWrapper 8589934582) :=
    pageAnomaly_oversized hread
  rw [hanomaly] at hnone
  cases hnone

end Omi.Pendant
