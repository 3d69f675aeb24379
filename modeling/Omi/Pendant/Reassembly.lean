import Mathlib.Data.List.Nodup
import Omi.Pendant.Protocol

/-! The fragment buffer of the three implementations: fragments of a message, by the index of
its packets, until all are there. -/
namespace Omi.Pendant

section entries
variable {β : Type}

/-- A map entry, replaced. -/
def putEntry (entries : List (ℤ × β)) (key : ℤ) (value : β) : List (ℤ × β) :=
  (key, value) :: entries.filter fun entry => entry.1 ≠ key

def getEntry (entries : List (ℤ × β)) (key : ℤ) : Option β :=
  (entries.find? fun entry => entry.1 = key).map Prod.snd

def removeEntry (entries : List (ℤ × β)) (key : ℤ) : List (ℤ × β) :=
  entries.filter fun entry => entry.1 ≠ key

variable {entries : List (ℤ × β)} {key : ℤ}

theorem getEntry_cons (entry : ℤ × β) (rest : List (ℤ × β)) (key : ℤ) :
    getEntry (entry :: rest) key = if entry.1 = key then some entry.2 else getEntry rest key := by
  unfold getEntry
  rw [List.find?_cons]
  by_cases hkey : entry.1 = key
  · simp [hkey]
  · simp [hkey]

theorem getEntry_removeEntry_self : getEntry (removeEntry entries key) key = none := by
  have hnone : (removeEntry entries key).find? (fun entry => entry.1 = key) = none := by
    rw [List.find?_eq_none]
    intro entry hmem
    have hne := (List.mem_filter.1 hmem).2
    simpa using hne
  rw [getEntry, hnone]
  rfl

theorem getEntry_removeEntry_of_ne {other : ℤ} (hne : other ≠ key) :
    getEntry (removeEntry entries key) other = getEntry entries other := by
  unfold getEntry removeEntry
  rw [List.find?_filter]
  congr 2
  funext entry
  by_cases hkey : entry.1 = other
  · simp [hkey, hne]
  · simp [hkey]

theorem getEntry_putEntry_self (value : β) :
    getEntry (putEntry entries key value) key = some value := by
  rw [putEntry, getEntry_cons, if_pos rfl]

theorem getEntry_putEntry_of_ne {other : ℤ} (hne : other ≠ key) (value : β) :
    getEntry (putEntry entries key value) other = getEntry entries other := by
  rw [putEntry, getEntry_cons, if_neg hne.symm]
  exact getEntry_removeEntry_of_ne hne

theorem putEntry_fresh (hfresh : ∀ entry ∈ entries, entry.1 ≠ key) (value : β) :
    putEntry entries key value = (key, value) :: entries := by
  rw [putEntry, List.filter_eq_self.2 (by simpa using hfresh)]

/-- Where no two entries share a key, each is found under its own. -/
theorem getEntry_of_mem (hkeys : (entries.map Prod.fst).Nodup) {value : β}
    (hmem : (key, value) ∈ entries) : getEntry entries key = some value := by
  induction entries with
  | nil => cases hmem
  | cons entry rest ih =>
    rw [List.map_cons, List.nodup_cons] at hkeys
    rw [getEntry_cons]
    rcases List.mem_cons.1 hmem with rfl | hrest
    · exact if_pos rfl
    · have hne : entry.1 ≠ key := by
        intro heq
        exact hkeys.1 (heq ▸ List.mem_map_of_mem hrest)
      rw [if_neg hne]
      exact ih hkeys.2 hrest

end entries

abbrev FragmentBuffer := List (ℤ × List (ℤ × Bytes))

/-- The fragments of a message in order; those that are missing are left out. -/
def joinFragments (fragments : List (ℤ × Bytes)) (numFrags : ℤ) : Bytes :=
  (List.range numFrags.toNat).flatMap fun i : ℕ => (getEntry fragments (i : ℤ)).getD []

/-- A packet is kept; the last of a message completes it. -/
def receiveFragment (buffer : FragmentBuffer) (packet : BlePacket) :
    FragmentBuffer × Option Bytes :=
  let fragments := putEntry ((getEntry buffer packet.index).getD []) packet.seq packet.payload
  if (fragments.length : ℤ) = packet.numFrags then
    (removeEntry buffer packet.index, some (joinFragments fragments packet.numFrags))
  else (putEntry buffer packet.index fragments, none)

/-- A notification of the pendant and the pages that it completes, while stored pages are
downloaded (a drain, or batch mode of the Dart connector). -/
def handleNotification (dialect : Dialect) (buffer : FragmentBuffer) (data : Bytes) :
    FragmentBuffer × List FlashPage :=
  match parseBlePacket dialect data with
  | none => (buffer, [])
  | some packet =>
    match receiveFragment buffer packet with
    | (kept, none) => (kept, [])
    | (kept, some complete) => (kept, parsePendantMessage dialect complete)

end Omi.Pendant
