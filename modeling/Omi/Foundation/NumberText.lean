import Mathlib

/-! Integers as text: Python's `int(text)` and `str.partition`, and Lua's `tostring` of
an integral number. -/
namespace Omi.Foundation

/-- The spaces that `int` strips: those of ASCII and of Unicode. -/
def intSpaces : List ℕ :=
  [0x9, 0xa, 0xb, 0xc, 0xd, 0x20, 0x85, 0xa0, 0x1680, 0x2000, 0x2001, 0x2002, 0x2003, 0x2004,
    0x2005, 0x2006, 0x2007, 0x2008, 0x2009, 0x200a, 0x2028, 0x2029, 0x202f, 0x205f, 0x3000]

/-- The zeros of Unicode's decimal digits; the nine other digits of a script stand behind its zero. -/
def digitZeros : List ℕ :=
  [0x30, 0x660, 0x6f0, 0x7c0, 0x966, 0x9e6, 0xa66, 0xae6, 0xb66, 0xbe6, 0xc66, 0xce6, 0xd66, 0xde6,
    0xe50, 0xed0, 0xf20, 0x1040, 0x1090, 0x17e0, 0x1810, 0x1946, 0x19d0, 0x1a80, 0x1a90, 0x1b50,
    0x1bb0, 0x1c40, 0x1c50, 0xa620, 0xa8d0, 0xa900, 0xa9d0, 0xa9f0, 0xaa50, 0xabf0, 0xff10, 0x104a0,
    0x10d30, 0x11066, 0x110f0, 0x11136, 0x111d0, 0x112f0, 0x11450, 0x114d0, 0x11650, 0x116c0,
    0x11730, 0x118e0, 0x11950, 0x11c50, 0x11d50, 0x11da0, 0x16a60, 0x16ac0, 0x16b50, 0x1d7ce,
    0x1d7d8, 0x1d7e2, 0x1d7ec, 0x1d7f6, 0x1e140, 0x1e2f0, 0x1e950, 0x1fbf0]

def isIntSpace (c : Char) : Bool := c.toNat ∈ intSpaces

/-- The value of a decimal digit of any script. -/
def digitValue? (c : Char) : Option ℕ :=
  (digitZeros.find? fun first => first ≤ c.toNat ∧ c.toNat < first + 10).map (c.toNat - ·)

private def stripSpaces (text : List Char) : List Char :=
  ((text.dropWhile isIntSpace).reverse.dropWhile isIntSpace).reverse

/-- Decimal digits with single underscores between them. -/
def decimal? (digits : List Char) : Option ℕ :=
  if digits.all (fun c => (digitValue? c).isSome || c == '_') &&
      (digits.splitOn '_').all (!·.isEmpty) then
    some ((digits.filterMap digitValue?).foldl (fun value digit => 10 * value + digit) 0)
  else none

/-- `int(text)`, with `none` for `ValueError`. -/
def pyInt? (text : String) : Option ℤ :=
  match stripSpaces text.toList with
  | '-' :: digits => (decimal? digits).map (fun n => -(n : ℤ))
  | '+' :: digits => (decimal? digits).map Int.ofNat
  | digits => (decimal? digits).map Int.ofNat

/-- `text.partition(separator)`, with `none` when the separator does not occur. -/
def partition? (text : String) (separator : Char) : Option (String × String) :=
  match text.toList.span (· != separator) with
  | (_, []) => none
  | (before, _ :: after) => some (String.ofList before, String.ofList after)

/-- `tostring(n)` for an integral Lua number: `%.14g`, which turns to an exponent form
from fifteen digits on. -/
def luaToString (n : ℕ) : String :=
  if n < 10 ^ 14 then toString n
  else
    let exponent := (Nat.toDigits 10 n).length - 1
    let unit := 10 ^ (exponent - 13)
    let rounded := (2 * n + unit) / (2 * unit)
    let carry := if rounded = 10 ^ 14 then 1 else 0
    let digits := ((Nat.toDigits 10 rounded).reverse.dropWhile (· == '0')).reverse
    let fraction := if digits.length = 1 then [] else '.' :: digits.drop 1
    String.ofList (digits.take 1 ++ fraction ++ 'e' :: '+' :: Nat.toDigits 10 (exponent + carry))

private theorem isDigit_of_mem {n : ℕ} {c : Char} (hc : c ∈ Nat.toDigits 10 n) :
    c.isDigit = true :=
  Nat.isDigit_of_mem_toDigits (b := 10) (by decide) (by decide) hc

private theorem isDigit_toNat {c : Char} (hc : c.isDigit = true) :
    48 ≤ c.toNat ∧ c.toNat ≤ 57 := by
  simp only [Char.isDigit, Bool.and_eq_true, decide_eq_true_eq, UInt32.le_iff_toNat_le,
    ge_iff_le] at hc
  exact hc

private theorem isAlpha_toNat {c : Char} (hc : c.isAlpha = true) :
    65 ≤ c.toNat ∧ c.toNat ≤ 122 := by
  simp only [Char.isAlpha, Char.isUpper, Char.isLower, Bool.or_eq_true, Bool.and_eq_true,
    decide_eq_true_eq, UInt32.le_iff_toNat_le, ge_iff_le] at hc
  change 65 ≤ c.toNat ∧ c.toNat ≤ 90 ∨ 97 ≤ c.toNat ∧ c.toNat ≤ 122 at hc
  omega

private theorem not_isIntSpace {c : Char} (hfirst : 48 ≤ c.toNat) (hlast : c.toNat ≤ 122) :
    isIntSpace c = false := by
  have hspaces : ∀ space ∈ intSpaces, space < 48 ∨ 122 < space := by decide
  rw [isIntSpace, decide_eq_false_iff_not]
  intro hspace
  have := hspaces c.toNat hspace
  omega

theorem digitValue?_of_isDigit {c : Char} (hc : c.isDigit = true) :
    digitValue? c = some (c.toNat - '0'.toNat) := by
  have hrange := isDigit_toNat hc
  have hfirst : digitZeros.find? (fun first => first ≤ c.toNat ∧ c.toNat < first + 10) = some 48 :=
    List.find?_cons_of_pos (decide_eq_true (by omega))
  rw [digitValue?, hfirst]
  rfl

theorem digitValue?_of_isAlpha {c : Char} (hc : c.isAlpha = true) : digitValue? c = none := by
  have hrange := isAlpha_toNat hc
  have hzeros : ∀ first ∈ digitZeros, first = 48 ∨ 1632 ≤ first := by decide
  rw [digitValue?, Option.map_eq_none_iff, List.find?_eq_none]
  intro first hfirst
  have := hzeros first hfirst
  rw [decide_eq_true_eq]
  omega

/-- ASCII digits have the value that Lean reads them with. -/
theorem filterMap_digitValue? {digits : List Char} (hdigits : ∀ c ∈ digits, c.isDigit = true) :
    digits.filterMap digitValue? = digits.map fun c => c.toNat - '0'.toNat := by
  rw [← List.filterMap_eq_map]
  exact List.filterMap_congr fun c hc => digitValue?_of_isDigit (hdigits c hc)

theorem decimal?_toDigits (n : ℕ) : decimal? (Nat.toDigits 10 n) = some n := by
  have hplain : ∀ c ∈ Nat.toDigits 10 n, (c == '_') = false := fun c hc => by
    have := isDigit_of_mem hc
    simp only [beq_eq_false_iff_ne]
    rintro rfl
    simp at this
  have hsplit : (Nat.toDigits 10 n).splitOn '_' = [Nat.toDigits 10 n] :=
    List.splitOn_eq_singleton_of_beq_eq_false hplain
  have hall : (Nat.toDigits 10 n).all (fun c => (digitValue? c).isSome || c == '_') = true := by
    simp only [List.all_eq_true]
    intro c hc
    simp [digitValue?_of_isDigit (isDigit_of_mem hc)]
  have hvalue : ((Nat.toDigits 10 n).filterMap digitValue?).foldl
      (fun value digit => 10 * value + digit) 0 = n := by
    rw [filterMap_digitValue? fun c hc => isDigit_of_mem hc, List.foldl_map,
      ← Nat.ofDigitChars_eq_foldl]
    exact Nat.ofDigitChars_toDigits (by decide) (by decide)
  simp [decimal?, hall, hsplit, hvalue, Nat.toDigits_ne_nil]

private theorem stripSpaces_toDigits (n : ℕ) :
    stripSpaces (Nat.toDigits 10 n) = Nat.toDigits 10 n := by
  have hspace : ∀ c ∈ Nat.toDigits 10 n, isIntSpace c = false := fun c hc =>
    have hrange := isDigit_toNat (isDigit_of_mem hc)
    not_isIntSpace hrange.1 (hrange.2.trans (by decide))
  have hkeep : ∀ cs : List Char, (∀ c ∈ cs, isIntSpace c = false) →
      cs.dropWhile isIntSpace = cs := by
    intro cs hcs
    cases cs with
    | nil => rfl
    | cons c cs => simp [hcs c (by simp)]
  rw [stripSpaces, hkeep _ hspace, hkeep _ (by simpa using hspace), List.reverse_reverse]

theorem pyInt?_toString (n : ℕ) : pyInt? (toString n) = some (n : ℤ) := by
  have hlist : (toString n).toList = Nat.toDigits 10 n := by
    simp [Nat.toString_eq_repr, Nat.toList_repr]
  rw [pyInt?, hlist, stripSpaces_toDigits]
  split
  · rename_i digits hsign
    have hdigit : Char.isDigit '-' = true := isDigit_of_mem (by rw [hsign]; simp)
    simp at hdigit
  · rename_i digits hsign
    have hdigit : Char.isDigit '+' = true := isDigit_of_mem (by rw [hsign]; simp)
    simp at hdigit
  · simp [decimal?_toDigits]

theorem decimal?_eq_none {digits : List Char} {c : Char} (hc : c ∈ digits)
    (hdigit : digitValue? c = none) (hscore : c ≠ '_') : decimal? digits = none := by
  have hall : digits.all (fun c => (digitValue? c).isSome || c == '_') = false := by
    simp only [List.all_eq_false]
    exact ⟨c, hc, by simp [hdigit, hscore]⟩
  simp [decimal?, hall]

private theorem mem_of_mem_dropWhile {c : Char} {p : Char → Bool} {cs : List Char}
    (hp : p c = false) (hc : c ∈ cs) : c ∈ cs.dropWhile p := by
  induction cs with
  | nil => exact hc
  | cons d cs ih =>
    by_cases hd : p d = true
    · rw [List.dropWhile_cons_of_pos hd]
      rcases List.mem_cons.mp hc with rfl | htail
      · simp [hp] at hd
      · exact ih htail
    · rwa [List.dropWhile_cons_of_neg hd]

private theorem mem_stripSpaces {c : Char} {cs : List Char} (hblank : isIntSpace c = false)
    (hc : c ∈ cs) : c ∈ stripSpaces cs := by
  simp only [stripSpaces, List.mem_reverse]
  exact mem_of_mem_dropWhile hblank (List.mem_reverse.mpr (mem_of_mem_dropWhile hblank hc))

/-- A text with a letter of ASCII in it is no integer. -/
theorem pyInt?_eq_none {text : String} {c : Char} (hc : c ∈ text.toList)
    (halpha : c.isAlpha = true) : pyInt? text = none := by
  have hdigit := digitValue?_of_isAlpha halpha
  have hrange := isAlpha_toNat halpha
  have hblank : isIntSpace c = false := not_isIntSpace (le_trans (by decide) hrange.1) hrange.2
  have hscore : c ≠ '_' := by rintro rfl; simp at halpha
  have hmem := mem_stripSpaces hblank hc
  rw [pyInt?]
  split
  · rename_i digits hsign
    rw [hsign] at hmem
    have : c ≠ '-' := by rintro rfl; simp at halpha
    simp [decimal?_eq_none (by simpa [this] using hmem) hdigit hscore]
  · rename_i digits hsign
    rw [hsign] at hmem
    have : c ≠ '+' := by rintro rfl; simp at halpha
    simp [decimal?_eq_none (by simpa [this] using hmem) hdigit hscore]
  · simp [decimal?_eq_none hmem hdigit hscore]

/-- Lua's text of a counter reads back as the counter, until it needs an exponent. -/
theorem pyInt?_luaToString (n : ℕ) :
    pyInt? (luaToString n) = if n < 10 ^ 14 then some (n : ℤ) else none := by
  by_cases hn : n < 10 ^ 14
  · simpa only [luaToString, hn, if_true] using pyInt?_toString n
  · rw [if_neg hn, luaToString, if_neg hn]
    exact pyInt?_eq_none (c := 'e') (by simp) (by decide)

theorem not_mem_luaToString (n : ℕ) : ':' ∉ (luaToString n).toList := by
  have hdigits : ∀ m : ℕ, ':' ∉ Nat.toDigits 10 m := fun m hm => by
    simpa using isDigit_of_mem hm
  by_cases hn : n < 10 ^ 14
  · rw [luaToString, if_pos hn, Nat.toString_eq_repr, Nat.toList_repr]
    exact hdigits n
  · rw [luaToString, if_neg hn]
    have hstrip : ∀ m : ℕ, ':' ∉ ((Nat.toDigits 10 m).reverse.dropWhile (· == '0')).reverse :=
      fun m hm => hdigits m (List.mem_reverse.mp
        ((List.dropWhile_sublist _).subset (List.mem_reverse.mp hm)))
    simp only [String.toList_ofList, List.mem_append, List.mem_cons, not_or]
    refine ⟨⟨fun hm => hstrip _ (List.mem_of_mem_take hm), ?_⟩, by decide, by decide, hdigits _⟩
    split_ifs
    · simp
    · rw [List.mem_cons, not_or]
      exact ⟨by decide, fun hm => hstrip _ (List.mem_of_mem_drop hm)⟩

theorem partition?_append {before : String} {separator : Char}
    (h : separator ∉ before.toList) (after : String) :
    partition? (before ++ String.singleton separator ++ after) separator =
      some (before, after) := by
  have hbefore : ∀ c ∈ before.toList, (c != separator) = true := fun c hc => by
    simp only [bne_iff_ne]
    rintro rfl
    exact h hc
  have hlist : (before ++ String.singleton separator ++ after).toList =
      before.toList ++ separator :: after.toList := by simp
  rw [partition?, hlist, List.span_eq_takeWhile_dropWhile, List.takeWhile_append_of_pos hbefore,
    List.dropWhile_append_of_pos hbefore]
  simp

end Omi.Foundation
