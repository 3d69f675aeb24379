import Mathlib.Algebra.BigOperators.Group.List.Basic
import Mathlib.Tactic.Ring
import Mathlib.Data.List.Basic

/-! Items that arrive in order and are settled in order: each waits at the end of a queue until
it is delivered or dropped. -/
namespace Omi.Foundation

/-- What became of the items received, oldest first. -/
structure Settlement (α : Type*) where
  /-- The settled items, each with whether it was delivered. -/
  settled : List (Bool × α) := []
  pending : List α := []
  deriving DecidableEq, Repr

namespace Settlement
variable {α : Type*} (account : Settlement α)

def received : List α := account.settled.map Prod.snd ++ account.pending

def delivered : List α := (account.settled.filter fun item => item.1).map Prod.snd

def dropped : List α := (account.settled.filter fun item => !item.1).map Prod.snd

def receive (item : α) : Settlement α := { account with pending := account.pending ++ [item] }

/-- Give up the `count` oldest pending items. -/
def drop (count : ℕ) : Settlement α where
  settled := account.settled ++ (account.pending.take count).map (Prod.mk false)
  pending := account.pending.drop count

/-- Deliver everything pending. -/
def deliver : Settlement α where
  settled := account.settled ++ account.pending.map (Prod.mk true)
  pending := []

@[simp] theorem received_receive (item : α) :
    (account.receive item).received = account.received ++ [item] := by
  simp [received, receive]

@[simp] theorem received_drop (count : ℕ) : (account.drop count).received = account.received := by
  simp [received, drop, Function.comp_def]

@[simp] theorem received_deliver : account.deliver.received = account.received := by
  simp [received, deliver, Function.comp_def]

@[simp] theorem delivered_receive (item : α) :
    (account.receive item).delivered = account.delivered := rfl

@[simp] theorem delivered_drop (count : ℕ) :
    (account.drop count).delivered = account.delivered := by
  have hnone : ((account.pending.take count).map (Prod.mk false)).filter (fun item => item.1) =
      [] := by
    rw [List.filter_eq_nil_iff]
    intro item hitem
    obtain ⟨a, -, rfl⟩ := List.mem_map.1 hitem
    simp
  simp only [delivered, drop, List.filter_append, hnone, List.append_nil]

@[simp] theorem delivered_deliver :
    account.deliver.delivered = account.delivered ++ account.pending := by
  simp [delivered, deliver, List.filter_map, Function.comp_def]

@[simp] theorem pending_receive (item : α) :
    (account.receive item).pending = account.pending ++ [item] := rfl

@[simp] theorem pending_drop (count : ℕ) :
    (account.drop count).pending = account.pending.drop count := rfl

@[simp] theorem pending_deliver : account.deliver.pending = [] := rfl

@[simp] theorem settled_receive (item : α) :
    (account.receive item).settled = account.settled := rfl

/-- Delivered items keep the order in which they came, each delivered once. -/
theorem delivered_sublist_received : List.Sublist account.delivered account.received :=
  (List.filter_sublist.map Prod.snd).trans (List.sublist_append_left _ account.pending)

/-- Every item received is delivered, dropped or pending, in any measure of the items. -/
theorem sum_received (weight : α → ℕ) :
    (account.received.map weight).sum = (account.delivered.map weight).sum +
      (account.pending.map weight).sum + (account.dropped.map weight).sum := by
  have hsettled : ∀ items : List (Bool × α), ((items.map Prod.snd).map weight).sum =
      (((items.filter fun item => item.1).map Prod.snd).map weight).sum +
        (((items.filter fun item => !item.1).map Prod.snd).map weight).sum := by
    intro items
    induction items with
    | nil => rfl
    | cons item rest ih =>
      obtain ⟨isDelivered, a⟩ := item
      cases isDelivered <;> simp at ih ⊢ <;> omega
  unfold received delivered dropped
  rw [List.map_append, List.sum_append, hsettled]
  omega

theorem settled_prefix_drop (count : ℕ) : account.settled <+: (account.drop count).settled :=
  List.prefix_append _ _

theorem settled_prefix_deliver : account.settled <+: account.deliver.settled :=
  List.prefix_append _ _

end Settlement

end Omi.Foundation
