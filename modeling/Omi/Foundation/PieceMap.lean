import Mathlib.Algebra.Order.Field.Basic
import Mathlib.Data.List.Chain
import Mathlib.Tactic.Linarith

/-! Two axes that are aligned piece by piece: each piece lies on both axes with one length. The
map across is the identity up to a shift on every piece, and on the gaps between pieces it is
constant. -/
namespace Omi.Foundation

variable {σ 𝕜 : Type*} [Field 𝕜] [LinearOrder 𝕜]

section definitions
variable (source target len : σ → 𝕜)

/-- The map across: before a piece its start, inside it the shift, behind the last one `end_`. -/
def across (end_ : 𝕜) : List σ → 𝕜 → 𝕜
  | [], _ => end_
  | [piece], x =>
    if x ≤ source piece then target piece
    else if x ≤ source piece + len piece then target piece + (x - source piece)
    else end_
  | piece :: next :: rest, x =>
    if x ≤ source piece then target piece
    else if source next ≤ x then across end_ (next :: rest) x
    else if x ≤ source piece + len piece then target piece + (x - source piece)
    else target next

/-- The pieces are ordered on an axis and do not overlap there. -/
def Apart (pieces : List σ) : Prop :=
  pieces.Pairwise fun a b => source a + len a ≤ source b

/-- Each piece starts on the axis where the one before it ends. -/
def Contiguous (pieces : List σ) : Prop :=
  pieces.IsChain fun a b => source b = source a + len a

/-- The end of the last piece on an axis. -/
def lastEnd (pieces : List σ) : 𝕜 :=
  (pieces.getLast?.map fun piece => source piece + len piece).getD 0

/-- The first piece that starts behind `x`, or the end of the last one. -/
def nextStart (pieces : List σ) (x : 𝕜) : 𝕜 :=
  ((pieces.find? fun piece => x < source piece).map source).getD (lastEnd source len pieces)

end definitions

variable {source target len : σ → 𝕜}

omit [LinearOrder 𝕜] in
@[simp] theorem lastEnd_cons_cons (piece next : σ) (rest : List σ) :
    lastEnd source len (piece :: next :: rest) = lastEnd source len (next :: rest) := by
  rw [lastEnd, lastEnd, List.getLast?_cons_cons]

omit [LinearOrder 𝕜] in
@[simp] theorem lastEnd_singleton (piece : σ) :
    lastEnd source len [piece] = source piece + len piece := by
  rw [lastEnd, List.getLast?_singleton, Option.map_some, Option.getD_some]

omit [LinearOrder 𝕜] in
theorem Contiguous.tail {piece : σ} {rest : List σ}
    (h : Contiguous target len (piece :: rest)) : Contiguous target len rest :=
  List.IsChain.tail h

theorem across_cons_cons (piece next : σ) (rest : List σ) (end_ x : 𝕜) :
    across source target len end_ (piece :: next :: rest) x =
      if x ≤ source piece then target piece
      else if source next ≤ x then across source target len end_ (next :: rest) x
      else if x ≤ source piece + len piece then target piece + (x - source piece)
      else target next := by
  rw [across]

theorem across_of_le {piece : σ} {rest : List σ} {end_ x : 𝕜} (h : x ≤ source piece) :
    across source target len end_ (piece :: rest) x = target piece := by
  cases rest with
  | nil => rw [across, if_pos h]
  | cons next rest => rw [across, if_pos h]

theorem nextStart_of_lt {piece : σ} {rest : List σ} {x : 𝕜} (h : x < source piece) :
    nextStart source len (piece :: rest) x = source piece := by
  rw [nextStart, List.find?_cons_of_pos (by simpa using h), Option.map_some, Option.getD_some]

theorem nextStart_of_le {piece next : σ} {rest : List σ} {x : 𝕜} (h : source piece ≤ x) :
    nextStart source len (piece :: next :: rest) x = nextStart source len (next :: rest) x := by
  rw [nextStart, nextStart, List.find?_cons_of_neg (by simpa using h), lastEnd_cons_cons]

variable [IsStrictOrderedRing 𝕜]

theorem Contiguous.apart {pieces : List σ} (hpos : ∀ p ∈ pieces, 0 < len p)
    (h : Contiguous target len pieces) : Apart target len pieces := by
  induction pieces with
  | nil => exact List.Pairwise.nil
  | cons piece rest ih =>
    have hrest : Apart target len rest :=
      ih (fun p hp => hpos p (List.mem_cons_of_mem _ hp)) h.tail
    refine List.pairwise_cons.mpr ⟨fun later hlater => ?_, hrest⟩
    cases rest with
    | nil => cases hlater
    | cons next rest =>
      have hnext : target next = target piece + len piece := (List.isChain_cons_cons.mp h).1
      rcases List.mem_cons.mp hlater with rfl | hlater
      · exact hnext.ge
      · have hlen := hpos next (by simp)
        have hbehind := (List.pairwise_cons.mp hrest).1 later hlater
        linarith

/-- The map does not go below the target of the first piece. -/
theorem target_le_across (source : σ → 𝕜) {piece : σ} {rest : List σ}
    (hpos : ∀ p ∈ piece :: rest, 0 < len p) (hapart : Apart target len (piece :: rest)) (x : 𝕜) :
    target piece ≤
      across source target len (lastEnd target len (piece :: rest)) (piece :: rest) x := by
  induction rest generalizing piece with
  | nil =>
    have hlen := hpos piece (by simp)
    rw [across, lastEnd_singleton]
    split_ifs <;> linarith
  | cons next rest ih =>
    obtain ⟨hbehind, hapart⟩ := List.pairwise_cons.mp hapart
    have hnext := hbehind next (by simp)
    have hlen := hpos piece (by simp)
    have hrest := ih (fun p hp => hpos p (List.mem_cons_of_mem _ hp)) hapart
    rw [lastEnd_cons_cons, across]
    split_ifs <;> linarith

/-- The map across never goes back. -/
theorem across_mono {pieces : List σ} (hpos : ∀ p ∈ pieces, 0 < len p)
    (hapart : Apart target len pieces) :
    Monotone (across source target len (lastEnd target len pieces) pieces) := by
  intro x y hxy
  induction pieces with
  | nil => rfl
  | cons piece rest ih =>
    have hlen := hpos piece (by simp)
    have hstart := target_le_across source hpos hapart y
    cases rest with
    | nil =>
      simp only [across, lastEnd_singleton] at hstart ⊢
      split_ifs at hstart ⊢ <;> linarith
    | cons next rest =>
      obtain ⟨hbehind, hrest⟩ := List.pairwise_cons.mp hapart
      have hnext := hbehind next (by simp)
      have hpos' : ∀ p ∈ next :: rest, 0 < len p := fun p hp => hpos p (List.mem_cons_of_mem _ hp)
      have hlater := target_le_across source hpos' hrest y
      have hmono := ih hpos' hrest
      rw [lastEnd_cons_cons] at hstart ⊢
      rw [across, across]
      rw [across] at hstart
      split_ifs at hstart ⊢ <;> linarith

/-- The target position of a source position inside a piece. -/
theorem across_of_mem (target : σ → 𝕜) {pieces : List σ} (hpos : ∀ p ∈ pieces, 0 < len p)
    (hapart : Apart source len pieces) (end_ : 𝕜) {piece : σ} (hpiece : piece ∈ pieces) {x : 𝕜}
    (hstart : source piece ≤ x) (hend : x < source piece + len piece) :
    across source target len end_ pieces x = target piece + (x - source piece) := by
  induction pieces with
  | nil => cases hpiece
  | cons first rest ih =>
    obtain ⟨hbehind, hrest⟩ := List.pairwise_cons.mp hapart
    have hpos' : ∀ p ∈ rest, 0 < len p := fun p hp => hpos p (List.mem_cons_of_mem _ hp)
    have hlen := hpos first (by simp)
    have hhere (hle : x ≤ source piece) : target piece = target piece + (x - source piece) := by
      rw [le_antisymm hle hstart, sub_self, add_zero]
    cases rest with
    | nil =>
      obtain rfl : piece = first := by simpa using hpiece
      rw [across, if_pos hend.le]
      split_ifs with hfirst
      · exact hhere hfirst
      · rfl
    | cons next rest =>
      have hnext := hbehind next (by simp)
      rw [across]
      rcases List.mem_cons.mp hpiece with rfl | hlater
      · have hbefore : ¬ source next ≤ x := by linarith
        rw [if_neg hbefore, if_pos hend.le]
        split_ifs with hfirst
        · exact hhere hfirst
        · rfl
      · have hreached : source next ≤ source piece := by
          rcases List.mem_cons.mp hlater with rfl | hlater
          · exact le_rfl
          · have hlenNext := hpos' next (by simp)
            have happart := (List.pairwise_cons.mp hrest).1 piece hlater
            linarith
        have hpast : ¬ x ≤ source first := by linarith
        rw [if_neg hpast, if_pos (hreached.trans hstart)]
        exact ih hpos' hrest hlater

/-- The map at the last piece that starts no later than the position. -/
theorem across_of_last {pieces : List σ} (hpos : ∀ p ∈ pieces, 0 < len p)
    (hapart : Apart source len pieces) (end_ x : 𝕜) (i : ℕ) (hi : i < pieces.length)
    (hstart : source pieces[i] ≤ x) (hlast : ∀ next ∈ pieces[i + 1]?, x < source next) :
    across source target len end_ pieces x =
      if x ≤ source pieces[i] + len pieces[i] then target pieces[i] + (x - source pieces[i])
      else (pieces[i + 1]?.map target).getD end_ := by
  induction pieces generalizing i with
  | nil => cases hi
  | cons first rest ih =>
    obtain ⟨hbehind, hrest⟩ := List.pairwise_cons.mp hapart
    have hpos' : ∀ p ∈ rest, 0 < len p := fun p hp => hpos p (List.mem_cons_of_mem _ hp)
    have hlen := hpos first (by simp)
    cases i with
    | zero =>
      have hfirst : source first ≤ x := hstart
      have hhere : x ≤ source first → target first = target first + (x - source first) := by
        intro hle
        rw [le_antisymm hle hfirst, sub_self, add_zero]
      cases rest with
      | nil =>
        change _ = if x ≤ source first + len first then target first + (x - source first) else end_
        rw [across]
        split_ifs with hbefore hinside
        · exact hhere hbefore
        · exact absurd (show x ≤ source first + len first by linarith) hinside
        · rfl
        · rfl
      | cons next rest =>
        have hgap : x < source next := hlast next rfl
        change _ = if x ≤ source first + len first then target first + (x - source first)
          else target next
        rw [across_cons_cons, if_neg (not_le.mpr hgap)]
        split_ifs with hbefore hinside
        · exact hhere hbefore
        · exact absurd (show x ≤ source first + len first by linarith) hinside
        · rfl
        · rfl
    | succ i =>
      have hbound : i < rest.length := by simpa using hi
      have hreached : source rest[i] ≤ x := hstart
      cases rest with
      | nil => cases hbound
      | cons next rest =>
        have hnext := hbehind next (by simp)
        have hafter : source next ≤ source (next :: rest)[i] := by
          cases i with
          | zero => exact le_rfl
          | succ i =>
            have hlenNext := hpos' next (by simp)
            have hmem : (next :: rest)[i + 1] ∈ rest := by simp
            have happart := (List.pairwise_cons.mp hrest).1 _ hmem
            linarith
        rw [across_cons_cons, if_neg (by linarith), if_pos (hafter.trans hreached)]
        exact ih hpos' hrest i hbound hreached hlast

section inverse
variable {pieces : List σ}

/-- Where the pieces are contiguous, going back and forth is the identity. -/
theorem across_across_of_contiguous (hpos : ∀ p ∈ pieces, 0 < len p)
    (hapart : Apart source len pieces) (hdense : Contiguous target len pieces) {y : 𝕜}
    (hstart : ∀ p ∈ pieces.head?, target p ≤ y) (hend : y ≤ lastEnd target len pieces)
    (hne : pieces ≠ []) :
    across source target len (lastEnd target len pieces) pieces
      (across target source len (lastEnd source len pieces) pieces y) = y := by
  induction pieces with
  | nil => exact absurd rfl hne
  | cons piece rest ih =>
    have hlen := hpos piece (by simp)
    have hfirst : target piece ≤ y := hstart piece rfl
    cases rest with
    | nil =>
      simp only [across, lastEnd_singleton] at hend ⊢
      split_ifs <;> linarith
    | cons next rest =>
      obtain ⟨hbehind, hrest⟩ := List.pairwise_cons.mp hapart
      have hnext := hbehind next (by simp)
      have hjoint : target next = target piece + len piece := (List.isChain_cons_cons.mp hdense).1
      have hpos' : ∀ p ∈ next :: rest, 0 < len p := fun p hp => hpos p (List.mem_cons_of_mem _ hp)
      have hback := target_le_across target hpos' hrest y
      rw [lastEnd_cons_cons] at hend ⊢
      rw [lastEnd_cons_cons, across_cons_cons _ _ _ _ y]
      split_ifs with hbefore hlater hinside
      · rw [across, if_pos le_rfl]
        exact le_antisymm hfirst hbefore
      · have hroundTrip := ih hpos' hrest hdense.tail (by simpa using hlater) hend (by simp)
        rw [across, if_neg (by linarith), if_pos hback]
        exact hroundTrip
      · rw [across, if_neg (by linarith), if_neg (by linarith), if_pos (by linarith)]
        linarith
      · exact absurd (by linarith) hinside

/-- Forth and back again, a position inside a piece is kept. -/
theorem across_across_of_mem (hpos : ∀ p ∈ pieces, 0 < len p) (hapart : Apart source len pieces)
    (hdense : Contiguous target len pieces) {piece : σ} (hpiece : piece ∈ pieces) {x : 𝕜}
    (hstart : source piece ≤ x) (hend : x < source piece + len piece) :
    across target source len (lastEnd source len pieces) pieces
      (across source target len (lastEnd target len pieces) pieces x) = x := by
  have hforth := across_of_mem target hpos hapart (lastEnd target len pieces) hpiece
    hstart hend
  rw [hforth]
  have hback := across_of_mem source hpos (hdense.apart hpos)
    (lastEnd source len pieces) hpiece (x := target piece + (x - source piece))
    (by linarith) (by linarith)
  rw [hback]
  linarith

/-- Any other position goes to the next start, or to the end of the last piece. -/
theorem across_across_of_not_mem (hpos : ∀ p ∈ pieces, 0 < len p)
    (hapart : Apart source len pieces) (hdense : Contiguous target len pieces) {x : 𝕜}
    (hout : ∀ p ∈ pieces, source p ≤ x → source p + len p ≤ x) :
    across target source len (lastEnd source len pieces) pieces
      (across source target len (lastEnd target len pieces) pieces x) =
        nextStart source len pieces x := by
  induction pieces with
  | nil => rfl
  | cons piece rest ih =>
    have hlen := hpos piece (by simp)
    rcases lt_or_ge x (source piece) with hbefore | hstart
    · rw [across_of_le hbefore.le, across_of_le le_rfl, nextStart_of_lt hbefore]
    have hend := hout piece (by simp) hstart
    cases rest with
    | nil =>
      have hforth : across source target len (lastEnd target len [piece]) [piece] x =
          target piece + len piece := by
        rw [across, if_neg (by linarith), lastEnd_singleton]
        split_ifs <;> linarith
      have hnone : nextStart source len [piece] x = source piece + len piece := by
        rw [nextStart, List.find?_cons_of_neg (by simpa using hstart), List.find?_nil,
          Option.map_none, Option.getD_none, lastEnd_singleton]
      rw [hforth, hnone, across, if_neg (by linarith), if_pos le_rfl]
      linarith
    | cons next rest =>
      have hrest : Apart source len (next :: rest) := (List.pairwise_cons.mp hapart).2
      have hjoint : target next = target piece + len piece := (List.isChain_cons_cons.mp hdense).1
      have hpos' : ∀ p ∈ next :: rest, 0 < len p := fun p hp => hpos p (List.mem_cons_of_mem _ hp)
      have hlater := target_le_across source hpos' (hdense.tail.apart hpos') x
      have hroundTrip := ih hpos' hrest hdense.tail fun p hp => hout p (List.mem_cons_of_mem _ hp)
      rw [lastEnd_cons_cons, lastEnd_cons_cons]
      rcases le_or_gt (source next) x with hreached | hgap
      · rw [across_cons_cons _ _ _ _ x, if_neg (by linarith), if_pos hreached, across,
          if_neg (by linarith), if_pos hlater, nextStart_of_le hstart, hroundTrip]
      · have hforth : across source target len (lastEnd target len (next :: rest))
            (piece :: next :: rest) x = target next := by
          rw [across, if_neg (by linarith), if_neg (not_le.mpr hgap)]
          split_ifs <;> linarith
        rw [hforth, across, if_neg (by linarith), if_pos le_rfl, across_of_le le_rfl,
          nextStart_of_le hstart, nextStart_of_lt hgap]

end inverse
end Omi.Foundation
