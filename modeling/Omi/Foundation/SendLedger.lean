import Mathlib

/-! A bounded buffer that a send empties at once and refills when it fails. Items are numbered
as they are received; an overflow discards from the front of the buffer. -/
namespace Omi.Foundation

/-- What has become of the items received so far. -/
structure SendLedger (α : Type*) where
  received : List α := []
  sent : List (α × ℕ) := []
  sending : List (α × ℕ) := []
  buffered : List (α × ℕ) := []
  discarded : List (α × ℕ) := []

namespace SendLedger
variable {α : Type*}

/-- Sent, then being sent, then buffered: in order and without duplicates the items received,
of which only the discarded ones are missing. -/
structure Conserved (ledger : SendLedger α) : Prop where
  kept : (ledger.sent ++ ledger.sending ++ ledger.buffered).Sublist ledger.received.zipIdx
  counted : (ledger.sent ++ ledger.sending ++ ledger.buffered ++ ledger.discarded).Perm
    ledger.received.zipIdx

/-- What happens to a buffer: a send takes all of it, ends, or fails and puts it back in front;
new items join at its end. -/
inductive Step : SendLedger α → SendLedger α → Prop
  | same (ledger : SendLedger α) : Step ledger ledger
  | detach (ledger : SendLedger α) (hidle : ledger.sending = []) :
    Step ledger { ledger with sending := ledger.buffered, buffered := [] }
  | deliver (ledger : SendLedger α) :
    Step ledger { ledger with sent := ledger.sent ++ ledger.sending, sending := [] }
  | restore (ledger : SendLedger α) (overflow buffered : List (α × ℕ))
    (hsplit : overflow ++ buffered = ledger.sending ++ ledger.buffered) :
    Step ledger
      { ledger with
        sending := []
        buffered := buffered
        discarded := ledger.discarded ++ overflow }
  | receive (ledger : SendLedger α) (new : List α) (overflow buffered : List (α × ℕ))
    (hsplit : overflow ++ buffered = ledger.buffered ++ new.zipIdx ledger.received.length) :
    Step ledger
      { ledger with
        received := ledger.received ++ new
        buffered := buffered
        discarded := ledger.discarded ++ overflow }

/-- From one ledger to the next only items older than the whole buffer were discarded. -/
def DiscardsOldest (before after : SendLedger α) : Prop :=
  ∃ overflow, after.discarded = before.discarded ++ overflow ∧
    ∀ old ∈ overflow, ∀ item ∈ after.buffered, old.2 < item.2

/-- The same for all that is held, what is being sent included. -/
def DiscardsOldestHeld (before after : SendLedger α) : Prop :=
  ∃ overflow, after.discarded = before.discarded ++ overflow ∧
    ∀ old ∈ overflow, ∀ item ∈ after.sending ++ after.buffered, old.2 < item.2

theorem pairwise_zipIdx (items : List α) (start : ℕ) :
    (items.zipIdx start).Pairwise fun first second => first.2 < second.2 := by
  induction items generalizing start with
  | nil => exact .nil
  | cons item items ih =>
    rw [List.zipIdx_cons]
    refine List.Pairwise.cons (fun later hmem => ?_) (ih (start + 1))
    exact List.le_snd_of_mem_zipIdx hmem

theorem zipIdx_concat (received new : List α) :
    (received ++ new).zipIdx = received.zipIdx ++ new.zipIdx received.length := by
  rw [List.zipIdx_append, Nat.zero_add]

theorem conserved_start : Conserved ({} : SendLedger α) where
  kept := List.nil_sublist _
  counted := List.Perm.nil

section steps
variable {ledger next : SendLedger α}

theorem Step.conserved (h : ledger.Conserved) (hstep : Step ledger next) : next.Conserved := by
  cases hstep with
  | same => exact h
  | detach hidle =>
    have hkept := h.kept
    have hcounted := h.counted
    rw [hidle, List.append_nil] at hkept hcounted
    constructor
    · simpa using hkept
    · simpa using hcounted
  | deliver =>
    constructor
    · simpa using h.kept
    · simpa using h.counted
  | restore overflow buffered hsplit =>
    constructor
    · refine List.Sublist.trans ?_ h.kept
      rw [List.append_nil, List.append_assoc, ← hsplit]
      exact (List.sublist_append_right overflow buffered).append_left _
    · classical
      refine List.Perm.trans (List.perm_iff_count.2 fun item => ?_) h.counted
      have hcount := congrArg (List.count item) hsplit
      simp only [List.count_append, List.count_nil] at hcount ⊢
      omega
  | receive new overflow buffered hsplit =>
    have hjoined : ledger.sent ++ ledger.sending ++ (overflow ++ buffered) =
        ledger.sent ++ ledger.sending ++ ledger.buffered ++ new.zipIdx ledger.received.length := by
      rw [hsplit, List.append_assoc _ ledger.buffered]
    constructor
    · dsimp only
      rw [zipIdx_concat]
      refine List.Sublist.trans ?_ (h.kept.append_right _)
      rw [← hjoined]
      exact (List.sublist_append_right overflow buffered).append_left _
    · classical
      dsimp only
      rw [zipIdx_concat]
      refine List.Perm.trans (List.perm_iff_count.2 fun item => ?_) (h.counted.append_right _)
      have hcount := congrArg (List.count item) hsplit
      simp only [List.count_append] at hcount ⊢
      omega

/-- The front of an increasing list is below its rest. -/
theorem front_lt {front rest all : List (α × ℕ)} (hall : (front ++ rest).Sublist all)
    (hincreasing : all.Pairwise fun first second => first.2 < second.2) :
    ∀ old ∈ front, ∀ item ∈ rest, old.2 < item.2 := by
  have hpairwise := hincreasing.sublist hall
  rw [List.pairwise_append] at hpairwise
  exact hpairwise.2.2

theorem Step.discardsOldest (h : ledger.Conserved) (hstep : Step ledger next) :
    DiscardsOldest ledger next := by
  have hnone : ∀ {after : SendLedger α}, after.discarded = ledger.discarded →
      DiscardsOldest ledger after := by
    intro after hsame
    refine ⟨[], by rw [hsame, List.append_nil], fun old hmem => ?_⟩
    exact absurd hmem List.not_mem_nil
  cases hstep with
  | same => exact hnone rfl
  | detach => exact hnone rfl
  | deliver => exact hnone rfl
  | restore overflow buffered hsplit =>
    refine ⟨overflow, rfl, front_lt ?_ (pairwise_zipIdx ledger.received 0)⟩
    rw [hsplit]
    refine List.Sublist.trans ?_ h.kept
    rw [List.append_assoc]
    exact List.sublist_append_right _ _
  | receive new overflow buffered hsplit =>
    refine ⟨overflow, rfl, front_lt ?_ (pairwise_zipIdx (ledger.received ++ new) 0)⟩
    rw [hsplit, zipIdx_concat]
    refine List.Sublist.append_right ?_ _
    exact (List.sublist_append_right _ _).trans h.kept

end steps
end SendLedger
end Omi.Foundation
