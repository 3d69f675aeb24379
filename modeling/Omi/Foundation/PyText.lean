import Mathlib

/-! Python's whitespace, `str.strip` and `str.split()`. -/
namespace Omi.Foundation

/-- `c.isspace()`. -/
def isPySpace (c : Char) : Bool :=
  (9 ≤ c.toNat && c.toNat ≤ 13) || (28 ≤ c.toNat && c.toNat ≤ 32) || c.toNat == 0x85 ||
    c.toNat == 0xa0 || c.toNat == 0x1680 || (0x2000 ≤ c.toNat && c.toNat ≤ 0x200a) ||
    c.toNat == 0x2028 || c.toNat == 0x2029 || c.toNat == 0x202f || c.toNat == 0x205f ||
    c.toNat == 0x3000

def stripList (text : List Char) : List Char :=
  ((text.dropWhile isPySpace).reverse.dropWhile isPySpace).reverse

/-- `text.strip()`. -/
def strip (text : String) : String := String.ofList (stripList text.toList)

/-- `not text or not text.strip()`. -/
def isBlank (text : String) : Bool := text.toList.all isPySpace

/-- `text.split()`. -/
def splitWords (text : String) : List String :=
  ((text.toList.splitOnP isPySpace).filter (!·.isEmpty)).map String.ofList

/-- `text[:n]`. -/
def firstChars (n : ℕ) (text : String) : String := String.ofList (text.toList.take n)

theorem stripList_eq_nil_iff (text : List Char) :
    stripList text = [] ↔ ∀ c ∈ text, isPySpace c = true := by
  unfold stripList
  constructor
  · intro h c hc
    rw [List.reverse_eq_nil_iff, List.dropWhile_eq_nil_iff] at h
    by_contra hspace
    have hmem : c ∈ text.dropWhile isPySpace := by
      rw [← List.takeWhile_append_dropWhile (p := isPySpace) (l := text)] at hc
      rcases List.mem_append.mp hc with hleft | hright
      · exact absurd (List.mem_takeWhile_imp hleft) hspace
      · exact hright
    exact hspace (h c (List.mem_reverse.mpr hmem))
  · intro h
    have hdrop : text.dropWhile isPySpace = [] := List.dropWhile_eq_nil_iff.mpr h
    simp [hdrop]

theorem strip_eq_empty_iff (text : String) : strip text = "" ↔ isBlank text = true := by
  have hlist : strip text = "" ↔ stripList text.toList = [] := by
    rw [strip, ← String.toList_inj, String.toList_ofList]
    simp
  rw [hlist, stripList_eq_nil_iff]
  simp [isBlank]

/-- A text with no space in it is what stripping leaves. -/
theorem strip_eq_self {text : String} (h : ∀ c ∈ text.toList, isPySpace c = false) :
    strip text = text := by
  have hdrop (l : List Char) (hl : ∀ c ∈ l, isPySpace c = false) :
      l.dropWhile isPySpace = l := by
    cases l with
    | nil => rfl
    | cons c l =>
      rw [List.dropWhile_cons_of_neg]
      simp [hl c (by simp)]
  have hlist : stripList text.toList = text.toList := by
    unfold stripList
    rw [hdrop _ h, hdrop _ fun c hc => h c (List.mem_reverse.mp hc), List.reverse_reverse]
  rw [strip, hlist, String.ofList_toList]

/-- What stripping leaves neither begins nor ends with a space. -/
theorem stripList_stripList (text : List Char) : stripList (stripList text) = stripList text := by
  have hshape (l : List Char) : stripList l = (l.dropWhile isPySpace).rdropWhile isPySpace := rfl
  rw [hshape (stripList text), hshape text]
  set rest := text.dropWhile isPySpace with hrest
  have hhead : rest.dropWhile isPySpace = rest := by
    rw [hrest, List.dropWhile_idempotent]
  have hprefix : rest.rdropWhile isPySpace <+: rest := List.rdropWhile_prefix _ _
  have hleft : (rest.rdropWhile isPySpace).dropWhile isPySpace = rest.rdropWhile isPySpace := by
    rw [List.dropWhile_eq_self_iff] at hhead ⊢
    intro hpos
    have hlength := hprefix.length_le
    have hfirst := hprefix.getElem hpos
    rw [hfirst]
    exact hhead (by omega)
  rw [hleft, List.rdropWhile_eq_self_iff]
  intro hne
  exact List.rdropWhile_last_not _ _ hne

theorem strip_strip (text : String) : strip (strip text) = strip text := by
  simp [strip, stripList_stripList]

/-- Splitting keeps the characters and drops the separators. -/
theorem mem_splitOnP {p : Char → Bool} {text word : List Char} (hword : word ∈ text.splitOnP p)
    {c : Char} (hc : c ∈ word) : c ∈ text ∧ p c = false := by
  induction text generalizing word with
  | nil =>
    obtain rfl : word = [] := by simpa using hword
    cases hc
  | cons head tail ih =>
    rw [List.splitOnP_cons_eq_if_modifyHead] at hword
    split_ifs at hword with hhead
    · rcases List.mem_cons.mp hword with rfl | hword
      · cases hc
      · exact ⟨List.mem_cons_of_mem _ (ih hword hc).1, (ih hword hc).2⟩
    · cases hsplit : tail.splitOnP p with
      | nil => exact absurd hsplit (List.splitOnP_ne_nil p tail)
      | cons first rest =>
        rw [hsplit] at hword ih
        rcases List.mem_cons.mp hword with rfl | hword
        · rcases List.mem_cons.mp hc with rfl | hc
          · exact ⟨List.mem_cons_self, by simpa using hhead⟩
          · have hfirst := ih List.mem_cons_self hc
            exact ⟨List.mem_cons_of_mem _ hfirst.1, hfirst.2⟩
        · have hrest := ih (List.mem_cons_of_mem _ hword) hc
          exact ⟨List.mem_cons_of_mem _ hrest.1, hrest.2⟩

theorem mem_splitWords {text word : String} (hword : word ∈ splitWords text) :
    ∀ c ∈ word.toList, c ∈ text.toList ∧ isPySpace c = false := by
  intro c hc
  obtain ⟨chars, hchars, rfl⟩ := List.mem_map.mp hword
  rw [String.toList_ofList] at hc
  exact mem_splitOnP (List.mem_filter.mp hchars).1 hc

/-- A text without spaces is one word. -/
theorem splitWords_eq_singleton {text : String} (h : ∀ c ∈ text.toList, isPySpace c = false)
    (hne : text ≠ "") : splitWords text = [text] := by
  have hlist : text.toList ≠ [] := by simpa using hne
  simp [splitWords, List.splitOnP_eq_singleton h, hlist]

/-- The characters of a joined text come from the separator or from a part. -/
theorem mem_intercalate {sep : String} {parts : List String} {c : Char}
    (hc : c ∈ (sep.intercalate parts).toList) :
    c ∈ sep.toList ∨ ∃ part ∈ parts, c ∈ part.toList := by
  induction parts with
  | nil => simp at hc
  | cons part parts ih =>
    cases parts with
    | nil => exact .inr ⟨part, by simp, by simpa using hc⟩
    | cons next parts =>
      rw [String.intercalate_cons_cons, String.toList_append, String.toList_append] at hc
      rcases List.mem_append.mp hc with hc | hc
      · rcases List.mem_append.mp hc with hc | hc
        · exact .inr ⟨part, by simp, hc⟩
        · exact .inl hc
      · exact (ih hc).imp id fun ⟨p, hp, hc⟩ => ⟨p, List.mem_cons_of_mem _ hp, hc⟩

end Omi.Foundation
