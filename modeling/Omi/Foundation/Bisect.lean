import Mathlib

/-! Python's `bisect.bisect_right`, and the search for the last mark that is not after a key. -/
namespace Omi.Foundation

variable {α : Type*} [LinearOrder α]

/-- The loop of `bisect_right(marks, x, lo, hi)`. -/
def bisectRightFrom (marks : List α) (x : α) (lo hi : ℕ) (hhi : hi ≤ marks.length) : ℕ :=
  if _hlt : lo < hi then
    let mid := (lo + hi) / 2
    if x < marks.get ⟨mid, by omega⟩ then bisectRightFrom marks x lo mid (by omega)
    else bisectRightFrom marks x (mid + 1) hi hhi
  else lo
termination_by hi - lo

/-- `bisect_right(marks, x)`. -/
def bisectRight (marks : List α) (x : α) : ℕ := bisectRightFrom marks x 0 marks.length le_rfl

/-- The marks before `i` are at most `x`, those from `i` on exceed it. -/
structure SplitsAt (marks : List α) (x : α) (i : ℕ) : Prop where
  le_length : i ≤ marks.length
  before : ∀ j (h : j < marks.length), j < i → marks[j] ≤ x
  after : ∀ j (h : j < marks.length), i ≤ j → x < marks[j]

theorem bisectRightFrom_splitsAt {marks : List α} (hsorted : marks.Pairwise (· ≤ ·)) (x : α)
    (lo hi : ℕ) (hhi : hi ≤ marks.length) (hle : lo ≤ hi)
    (hbefore : ∀ j (h : j < marks.length), j < lo → marks[j] ≤ x)
    (hafter : ∀ j (h : j < marks.length), hi ≤ j → x < marks[j]) :
    SplitsAt marks x (bisectRightFrom marks x lo hi hhi) := by
  have hmono : ∀ i j (hi : i < marks.length) (hj : j < marks.length), i ≤ j →
      marks[i] ≤ marks[j] := by
    intro i j hi hj hij
    rcases hij.eq_or_lt with rfl | hlt
    · exact le_rfl
    · exact List.pairwise_iff_getElem.1 hsorted i j hi hj hlt
  fun_induction bisectRightFrom marks x lo hi hhi with
  | case1 lo hi hhi hlt mid hx ih =>
    have hmid : mid < marks.length := by omega
    refine ih (by omega) hbefore fun j hj hmidj => ?_
    exact hx.trans_le (hmono mid j hmid hj hmidj)
  | case2 lo hi hhi hlt mid hx ih =>
    have hmid : mid < marks.length := by omega
    refine ih (by omega) (fun j hj hjmid => ?_) hafter
    exact (hmono j mid hj hmid (by omega)).trans (not_lt.1 hx)
  | case3 lo hi hhi hnot =>
    obtain rfl : lo = hi := by omega
    exact ⟨hhi, hbefore, hafter⟩

theorem bisectRight_splitsAt {marks : List α} (hsorted : marks.Pairwise (· ≤ ·)) (x : α) :
    SplitsAt marks x (bisectRight marks x) :=
  bisectRightFrom_splitsAt hsorted x 0 marks.length le_rfl (Nat.zero_le _)
    (fun _ _ h => absurd h (Nat.not_lt_zero _)) (fun _ h h' => absurd h' (not_le.2 h))

/-- Whatever the list, the answer is one of its insertion points. -/
theorem bisectRightFrom_le (marks : List α) (x : α) (lo hi : ℕ) (hhi : hi ≤ marks.length)
    (hle : lo ≤ hi) : bisectRightFrom marks x lo hi hhi ≤ marks.length := by
  fun_induction bisectRightFrom marks x lo hi hhi with
  | case1 lo hi hhi hlt mid hx ih => exact ih (by omega)
  | case2 lo hi hhi hlt mid hx ih => exact ih (by omega)
  | case3 lo hi hhi hnot => omega

theorem bisectRight_le (marks : List α) (x : α) : bisectRight marks x ≤ marks.length :=
  bisectRightFrom_le marks x 0 marks.length le_rfl (Nat.zero_le _)

/-- A larger key is inserted no earlier. -/
theorem bisectRight_mono {marks : List α} (hsorted : marks.Pairwise (· ≤ ·)) {x y : α}
    (hxy : x ≤ y) : bisectRight marks x ≤ bisectRight marks y := by
  by_contra hnot
  have hlt : bisectRight marks y < bisectRight marks x := Nat.lt_of_not_le hnot
  have hx := bisectRight_splitsAt hsorted x
  have hy := bisectRight_splitsAt hsorted y
  have hbound : bisectRight marks y < marks.length := hlt.trans_le hx.le_length
  have hle := hx.before _ hbound hlt
  have hgt := hy.after _ hbound (Nat.le_refl _)
  exact absurd (hgt.trans_le (hle.trans hxy)) (lt_irrefl y)

/-! ### The last mark that is not after a key -/

/-- The loop over `lo .. hi`, both ends included, that rounds the middle up. -/
def lastAtMostFrom (marks : List α) (x : α) (lo hi : ℕ) (hhi : hi < marks.length) : ℕ :=
  if _hlt : lo < hi then
    let mid := (lo + hi + 1) / 2
    if marks.get ⟨mid, by omega⟩ ≤ x then lastAtMostFrom marks x mid hi hhi
    else lastAtMostFrom marks x lo (mid - 1) (by omega)
  else lo
termination_by hi - lo

theorem lastAtMostFrom_le (marks : List α) (x : α) (lo hi : ℕ) (hhi : hi < marks.length)
    (hle : lo ≤ hi) : lastAtMostFrom marks x lo hi hhi ≤ hi := by
  fun_induction lastAtMostFrom marks x lo hi hhi with
  | case1 lo hi hhi hlt mid hx ih => exact ih (by omega)
  | case2 lo hi hhi hlt mid hx ih =>
    have hmid := ih (by omega)
    omega
  | case3 lo hi hhi hnot => exact hle

/-- The mark found is at most the key, and those behind it exceed it. -/
theorem lastAtMostFrom_spec {marks : List α} (hsorted : marks.Pairwise (· ≤ ·)) (x : α)
    (lo hi : ℕ) (hhi : hi < marks.length) (hle : lo ≤ hi)
    (hlo : ∀ h : lo < marks.length, marks[lo] ≤ x)
    (hafter : ∀ j (h : j < marks.length), hi < j → x < marks[j]) :
    (∀ h : lastAtMostFrom marks x lo hi hhi < marks.length,
      marks[lastAtMostFrom marks x lo hi hhi] ≤ x) ∧
    ∀ j (hj : j < marks.length), lastAtMostFrom marks x lo hi hhi < j → x < marks[j] := by
  fun_induction lastAtMostFrom marks x lo hi hhi with
  | case1 lo hi hhi hlt mid hx ih =>
    have hmid : mid ≤ hi := by omega
    exact ih hmid (fun _ => hx) hafter
  | case2 lo hi hhi hlt mid hx ih =>
    have hmid : lo < mid := by omega
    have hbound : mid < marks.length := by omega
    refine ih (by omega) hlo fun j hj hmidj => ?_
    rcases Nat.lt_or_eq_of_le (show mid ≤ j by omega) with hbeyond | rfl
    · have hmono : marks[mid] ≤ marks[j] :=
        List.pairwise_iff_getElem.mp hsorted mid j hbound hj hbeyond
      exact (not_le.mp hx).trans_le hmono
    · exact not_le.mp hx
  | case3 lo hi hhi hnot =>
    have hlast : lo = hi := by omega
    subst hlast
    exact ⟨hlo, hafter⟩

end Omi.Foundation
