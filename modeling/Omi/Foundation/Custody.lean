import Mathlib.Data.List.Perm.Basic
import Mathlib.Data.List.Basic

/-! What is kept of the things received, in order, and what has gone missing of them. -/
namespace Omi.Foundation
variable {β : Type*}

/-- The things kept stand in the order in which they were received, none of them twice, and
the missing ones are all the others. -/
structure Custody (received kept missing : List β) : Prop where
  ordered : kept.Sublist received
  complete : (kept ++ missing).Perm received

namespace Custody
variable {received kept missing new : List β}

theorem nil : Custody ([] : List β) [] [] :=
  ⟨List.nil_sublist _, List.Perm.nil⟩

theorem receive (h : Custody received kept missing) (new : List β) :
    Custody (received ++ new) (kept ++ new) missing := by
  constructor
  · exact h.ordered.append_right new
  · have hswap : (kept ++ new ++ missing).Perm (kept ++ missing ++ new) := by
      rw [List.append_assoc, List.append_assoc]
      exact (List.perm_append_comm).append_left kept
    exact hswap.trans (h.complete.append_right new)

theorem refuse (h : Custody received kept missing) (new : List β) :
    Custody (received ++ new) kept (missing ++ new) := by
  constructor
  · exact h.ordered.trans (List.sublist_append_left received new)
  · rw [← List.append_assoc]
    exact h.complete.append_right new

theorem lose {front lost back : List β} (h : Custody received (front ++ lost ++ back) missing) :
    Custody received (front ++ back) (missing ++ lost) := by
  constructor
  · refine List.Sublist.trans ?_ h.ordered
    exact (List.sublist_append_left front lost).append_right back
  · refine List.Perm.trans ?_ h.complete
    have hback : (back ++ (missing ++ lost)).Perm (lost ++ (back ++ missing)) := by
      rw [← List.append_assoc]
      exact List.perm_append_comm
    have hfront : (front ++ (back ++ (missing ++ lost))).Perm
        (front ++ (lost ++ (back ++ missing))) := hback.append_left front
    simpa [List.append_assoc] using hfront

end Custody
end Omi.Foundation
