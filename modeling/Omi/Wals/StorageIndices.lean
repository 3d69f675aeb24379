import Mathlib
import Omi.Foundation.Runs
import Omi.Wals.StorageSync

/-! The file numbers of `StorageSync` against the indices of the device. -/
namespace Omi.Wals
open Omi.Foundation

/-! ### What the commands are meant to do -/

/-- The command went to the recording's own file. -/
def StorageCommand.Addressed (command : StorageCommand) : Prop :=
  ∃ file, fileAt command.files command.wal.fileNum = some file ∧ file.key = command.wal.file

/-- What the command removed had been completely transferred and registered. -/
def StorageCommand.Safe (command : StorageCommand) : Prop :=
  ∀ key, command.removed = some key → key ∈ command.transferred

/-- The chunk holds audio of the recording's own file, under that file's start time. -/
def SavedChunk.Own (chunk : SavedChunk) : Prop :=
  ∃ file, chunk.source = some file ∧ file.key = chunk.wal.file ∧
    chunk.wal.timerStart = file.timestamp

/-- If it was taken over, a recording waits on the phone to be uploaded from a file with the
chunk's frames. -/
def SavedChunk.Pending (chunk : SavedChunk) : Prop :=
  chunk.taken →
  let path := chunk.wal.getFileNameByTimeStarts chunk.timerStart
  (∃ wal ∈ chunk.phone.wals, wal.status = .miss ∧ wal.storage = .disk ∧ wal.filePath = path) ∧
    chunk.phone.files.get path = some (flushData chunk.frames)

/-! ### The invariant -/

/-- Where the recording's file is on the device, its file number is the file's index and its
start time and size are the file's. -/
def Indexes (files : List StorageFile) (wal : StorageWal) : Prop :=
  ∀ (i : ℕ) (file : StorageFile), files[i]? = some file → file.key = wal.file →
    wal.fileNum = i ∧ wal.timerStart = file.timestamp ∧ wal.storageTotalBytes = file.sizeBytes

def OnDevice (files : List StorageFile) (wal : StorageWal) : Prop :=
  ∃ file ∈ files, file.key = wal.file

structure Indexed (world : StorageWorld) : Prop where
  filesNodup : (world.files.map StorageFile.key).Nodup
  filesBelow : ∀ file ∈ world.files, file.key < world.nextKey
  walsNodup : (world.wals.map StorageWal.file).Nodup
  walsBelow : ∀ wal ∈ world.wals, wal.file < world.nextKey
  indexes : ∀ wal ∈ world.wals, Indexes world.files wal
  pending : ∀ wal ∈ world.wals, wal.status = .miss → OnDevice world.files wal
  offset : ∀ wal ∈ world.wals, wal.storageOffset = 0

/-- The file being saved is the listed recording's own, and the next one of the running sync. -/
structure SavesOwn (world : StorageWorld) (save : StorageSave) : Prop where
  next : ∃ cursor rest, world.syncing = some cursor ∧ cursor.rest = save.wal.file :: rest
  listed : save.wal ∈ world.wals
  source : ∃ file ∈ world.files, save.source = some file ∧ file.key = save.wal.file ∧
    save.wal.timerStart = file.timestamp ∧ save.wal.storageTotalBytes = file.sizeBytes

/-- The recordings a running sync has still to take up are pending. -/
def Cursored (world : StorageWorld) : Prop :=
  ∀ cursor, world.syncing = some cursor → cursor.rest.Nodup ∧
    ∀ file ∈ cursor.rest, file ∈ cursor.all ∧
      ∃ wal ∈ world.wals, wal.file = file ∧ wal.status = .miss

section Files
variable {files : List StorageFile} {wal : StorageWal}

theorem fileAt_natCast (files : List StorageFile) (i : ℕ) : fileAt files i = files[i]? := by
  simp [fileAt]

theorem Indexes.fileAt (h : Indexes files wal) (hdevice : OnDevice files wal) :
    ∃ file, fileAt files wal.fileNum = some file ∧ file.key = wal.file ∧
      wal.timerStart = file.timestamp ∧ wal.storageTotalBytes = file.sizeBytes := by
  obtain ⟨file, hmem, hkey⟩ := hdevice
  obtain ⟨i, hi⟩ := List.mem_iff_getElem?.1 hmem
  obtain ⟨hnum, htime, hsize⟩ := h i file hi hkey
  refine ⟨file, ?_, hkey, htime, hsize⟩
  rw [hnum, fileAt_natCast, hi]

theorem Indexes.nonneg (h : Indexes files wal) (hdevice : OnDevice files wal) :
    0 ≤ wal.fileNum := by
  obtain ⟨file, hmem, hkey⟩ := hdevice
  obtain ⟨i, hi⟩ := List.mem_iff_getElem?.1 hmem
  rw [(h i file hi hkey).1]
  exact Int.natCast_nonneg i

/-- Where a file was before the one at `k` was deleted. -/
theorem getElem?_of_eraseIdx {k i : ℕ} {file : StorageFile}
    (h : (files.eraseIdx k)[i]? = some file) :
    (i < k ∧ files[i]? = some file) ∨ (k ≤ i ∧ files[i + 1]? = some file) := by
  rw [List.getElem?_eraseIdx] at h
  split_ifs at h with hlt
  · exact .inl ⟨hlt, h⟩
  · exact .inr ⟨Nat.not_lt.1 hlt, h⟩

/-- A recording above a deleted file keeps its index by shifting down. -/
theorem Indexes.eraseIdx_shift (h : Indexes files wal) {k : ℕ} :
    Indexes (files.eraseIdx k)
      (if (k : ℤ) < wal.fileNum then { wal with fileNum := wal.fileNum - 1 } else wal) := by
  intro i file hi hkey
  have hkey : file.key = wal.file := by
    split_ifs at hkey <;> exact hkey
  rcases getElem?_of_eraseIdx hi with ⟨hlt, hold⟩ | ⟨hge, hold⟩
  · obtain ⟨hnum, hrest⟩ := h i file hold hkey
    rw [if_neg (by omega)]
    exact ⟨hnum, hrest⟩
  · obtain ⟨hnum, hrest⟩ := h (i + 1) file hold hkey
    rw [if_pos (by omega)]
    refine ⟨?_, hrest⟩
    change wal.fileNum - 1 = i
    omega

/-- A recording that is not above the deleted file keeps its index as it is. -/
theorem Indexes.eraseIdx_of_le (h : Indexes files wal) {k : ℕ}
    (hle : OnDevice files wal → wal.fileNum ≤ k) : Indexes (files.eraseIdx k) wal := by
  intro i file hi hkey
  rcases getElem?_of_eraseIdx hi with ⟨hlt, hold⟩ | ⟨hge, hold⟩
  · exact h i file hold hkey
  · obtain ⟨hnum, -⟩ := h (i + 1) file hold hkey
    have hbound := hle ⟨file, List.mem_of_getElem? hold, hkey⟩
    omega

/-- Deleting a file leaves the others on the device. -/
theorem mem_eraseIdx_of_ne {k : ℕ} {file other : StorageFile} (hk : files[k]? = some file)
    (hother : other ∈ files) (hne : other.key ≠ file.key) : other ∈ files.eraseIdx k := by
  obtain ⟨j, hj⟩ := List.mem_iff_getElem?.1 hother
  have hjk : j ≠ k := by
    rintro rfl
    rw [hk] at hj
    exact hne (congrArg StorageFile.key (Option.some.inj hj)).symm
  rcases Nat.lt_or_gt_of_ne hjk with hlt | hgt
  · refine List.mem_of_getElem? (i := j) ?_
    rw [List.getElem?_eraseIdx, if_pos hlt]
    exact hj
  · refine List.mem_of_getElem? (i := j - 1) ?_
    rw [List.getElem?_eraseIdx, if_neg (by omega), Nat.sub_add_cancel (by omega)]
    exact hj

end Files

/-! ### Deletes -/

namespace StorageWorld
variable {world : StorageWorld} {wal : StorageWal}

/-- A delete for a recording whose file number is right removes its file or nothing. -/
theorem deleteStorageFile_cases (h : Indexes world.files wal)
    (hdevice : OnDevice world.files wal) (answer : DeleteAnswer) :
    (answer = .deleted ∧ ∃ (k : ℕ) (file : StorageFile), wal.fileNum = k ∧
      world.files[k]? = some file ∧ file.key = wal.file ∧
      world.deleteStorageFile wal answer =
        ({ world with
            files := world.files.eraseIdx k
            commands := world.commands ++
              [⟨wal, world.files, world.transferred, some wal.file⟩] }, some true)) ∨
    (answer ≠ .deleted ∧
      world.deleteStorageFile wal answer =
        ({ world with
            commands := world.commands ++ [⟨wal, world.files, world.transferred, none⟩] },
          if answer = .refused then some false else none)) := by
  cases answer with
  | threw => exact .inr ⟨by simp, rfl⟩
  | refused => exact .inr ⟨by simp, rfl⟩
  | deleted =>
    obtain ⟨file, hat, hkey, -⟩ := h.fileAt hdevice
    obtain ⟨k, hk⟩ : ∃ k : ℕ, wal.fileNum = k := Int.eq_ofNat_of_zero_le (h.nonneg hdevice)
    have hfile : world.files[k]? = some file := by
      rw [← fileAt_natCast, ← hk]
      exact hat
    refine .inl ⟨rfl, k, file, hk, hfile, hkey, ?_⟩
    rw [hk] at hat
    simp [deleteStorageFile, deleteFile, hk, hat, hkey]

/-- What deletes of `targets` may have changed. -/
structure DeletedFrom (targets : List StorageWal) (ids : List (String × ℕ))
    (world next : StorageWorld) : Prop where
  files : List.Sublist next.files world.files
  kept : ∀ file ∈ world.files, (∀ target ∈ targets, file.key ≠ target.file) → file ∈ next.files
  indexes : ∀ wal ∈ next.wals, wal.id ∉ ids → Indexes next.files wal
  wals : ∀ wal ∈ next.wals, ∃ old ∈ world.wals, wal.file = old.file ∧ wal.status = old.status ∧
    wal.id = old.id ∧ wal.storageOffset = old.storageOffset
  walFiles : next.wals.map StorageWal.file = world.wals.map StorageWal.file
  nextKey : next.nextKey = world.nextKey
  syncing : next.syncing = world.syncing
  saving : next.saving = world.saving
  saved : next.saved = world.saved
  transferred : next.transferred = world.transferred
  commands : ∀ command ∈ next.commands, command ∈ world.commands ∨
    (command.Addressed ∧ command.transferred = world.transferred ∧
      ∀ key, command.removed = some key → ∃ target ∈ targets, target.file = key)

theorem DeletedFrom.refl (targets : List StorageWal) {ids : List (String × ℕ)}
    (h : ∀ wal ∈ world.wals, wal.id ∉ ids → Indexes world.files wal) :
    DeletedFrom targets ids world world where
  files := List.Sublist.refl _
  kept _ hmem _ := hmem
  indexes := h
  wals wal hmem := ⟨wal, hmem, rfl, rfl, rfl, rfl⟩
  walFiles := rfl
  nextKey := rfl
  syncing := rfl
  saving := rfl
  saved := rfl
  transferred := rfl
  commands _ hmem := .inl hmem

theorem mem_shiftAbove {shifts : StorageWal → Bool} {fileNum : ℤ} {other : StorageWal}
    (h : other ∈ (world.shiftAbove shifts fileNum).wals) :
    ∃ old ∈ world.wals, other =
      if shifts old && fileNum < old.fileNum then { old with fileNum := old.fileNum - 1 }
      else old := by
  obtain ⟨old, hmem, hold⟩ := List.mem_map.1 h
  exact ⟨old, hmem, hold.symm⟩

theorem shiftAbove_walFiles (shifts : StorageWal → Bool) (fileNum : ℤ) :
    (world.shiftAbove shifts fileNum).wals.map StorageWal.file =
      world.wals.map StorageWal.file := by
  simp only [shiftAbove, List.map_map]
  refine List.map_congr_left fun old _ => ?_
  simp only [Function.comp_apply]
  split_ifs <;> rfl

theorem DeletedFrom.trans {targets first rest : List StorageWal} {ids : List (String × ℕ)}
    {middle next : StorageWorld} (hfirst : DeletedFrom first ids world middle)
    (hrest : DeletedFrom rest ids middle next) (hsub : ∀ target ∈ first ++ rest, target ∈ targets) :
    DeletedFrom targets ids world next := by
  have hin : ∀ target ∈ first, target ∈ targets := fun target hmem =>
    hsub target (List.mem_append_left rest hmem)
  have hin' : ∀ target ∈ rest, target ∈ targets := fun target hmem =>
    hsub target (List.mem_append_right first hmem)
  constructor
  case files => exact hrest.files.trans hfirst.files
  case kept =>
    intro file hmem hne
    have hmiddle := hfirst.kept file hmem fun target htarget => hne target (hin target htarget)
    exact hrest.kept file hmiddle fun target htarget => hne target (hin' target htarget)
  case indexes => exact hrest.indexes
  case wals =>
    intro wal hmem
    obtain ⟨old, hold, hfile, hstatus, hid, hoffset⟩ := hrest.wals wal hmem
    obtain ⟨older, holder, hfile', hstatus', hid', hoffset'⟩ := hfirst.wals old hold
    exact ⟨older, holder, hfile.trans hfile', hstatus.trans hstatus', hid.trans hid',
      hoffset.trans hoffset'⟩
  case walFiles => exact hrest.walFiles.trans hfirst.walFiles
  case nextKey => exact hrest.nextKey.trans hfirst.nextKey
  case syncing => exact hrest.syncing.trans hfirst.syncing
  case saving => exact hrest.saving.trans hfirst.saving
  case saved => exact hrest.saved.trans hfirst.saved
  case transferred => exact hrest.transferred.trans hfirst.transferred
  case commands =>
    intro command hmem
    rcases hrest.commands command hmem with hmiddle | ⟨haddressed, htransferred, hremoved⟩
    · rcases hfirst.commands command hmiddle with hold | ⟨haddressed, htransferred, hremoved⟩
      · exact .inl hold
      · refine .inr ⟨haddressed, htransferred, fun key hkey => ?_⟩
        obtain ⟨target, htarget, heq⟩ := hremoved key hkey
        exact ⟨target, hin target htarget, heq⟩
    · refine .inr ⟨haddressed, htransferred.trans hfirst.transferred, fun key hkey => ?_⟩
      obtain ⟨target, htarget, heq⟩ := hremoved key hkey
      exact ⟨target, hin' target htarget, heq⟩

/-- One turn of the delete loop. -/
def deleteTurn (world : StorageWorld) (ids : List (String × ℕ)) (answer : DeleteAnswer)
    (wal : StorageWal) : StorageWorld :=
  let deleted := world.deleteStorageFile wal answer
  if deleted.2 = some true then
    deleted.1.shiftAbove (fun other => other.id ∉ ids) wal.fileNum
  else deleted.1

theorem deleteTurn_deletedFrom {ids : List (String × ℕ)}
    (hindexes : ∀ other ∈ world.wals, other.id ∉ ids → Indexes world.files other)
    (h : Indexes world.files wal) (hdevice : OnDevice world.files wal) (answer : DeleteAnswer) :
    DeletedFrom [wal] ids world (world.deleteTurn ids answer wal) := by
  have haddressed : ∀ removed, StorageCommand.Addressed
      ⟨wal, world.files, world.transferred, removed⟩ := by
    intro removed
    obtain ⟨file, hat, hkey, -⟩ := h.fileAt hdevice
    exact ⟨file, hat, hkey⟩
  rcases deleteStorageFile_cases h hdevice answer with
    ⟨-, k, file, hk, hfile, hkey, hdelete⟩ | ⟨-, hdelete⟩
  · unfold deleteTurn
    rw [hdelete]
    simp only [if_true]
    constructor
    case files => exact List.eraseIdx_sublist world.files k
    case kept =>
      intro other hmem hne
      refine mem_eraseIdx_of_ne hfile hmem ?_
      rw [hkey]
      exact hne wal (List.mem_singleton_self wal)
    case indexes =>
      intro other hmem hid
      obtain ⟨old, hold, rfl⟩ := mem_shiftAbove hmem
      have hid : old.id ∉ ids := by
        split_ifs at hid <;> exact hid
      simp only [hid, not_false_eq_true, decide_true, Bool.true_and, decide_eq_true_eq, hk]
      exact (hindexes old hold hid).eraseIdx_shift
    case wals =>
      intro other hmem
      obtain ⟨old, hold, rfl⟩ := mem_shiftAbove hmem
      refine ⟨old, hold, ?_⟩
      split_ifs <;> exact ⟨rfl, rfl, rfl, rfl⟩
    case walFiles => exact shiftAbove_walFiles _ _
    case nextKey => rfl
    case syncing => rfl
    case saving => rfl
    case saved => rfl
    case transferred => rfl
    case commands =>
      intro command hmem
      rcases List.mem_append.1 hmem with hold | hnew
      · exact .inl hold
      · rw [List.mem_singleton.1 hnew]
        refine .inr ⟨haddressed _, rfl, fun key hkey => ?_⟩
        exact ⟨wal, List.mem_singleton_self wal, Option.some.inj hkey⟩
  · have hturn : world.deleteTurn ids answer wal = { world with
        commands := world.commands ++ [⟨wal, world.files, world.transferred, none⟩] } := by
      unfold deleteTurn
      rw [hdelete]
      cases answer <;> rfl
    rw [hturn]
    refine { DeletedFrom.refl [wal] hindexes with commands := ?_ }
    · intro command hmem
      rcases List.mem_append.1 hmem with hold | hnew
      · exact .inl hold
      · rw [List.mem_singleton.1 hnew]
        exact .inr ⟨haddressed _, rfl, fun key hkey => by cases hkey⟩

/-- Two recordings with right file numbers for one file have the same one. -/
theorem fileNum_eq_of_file_eq {files : List StorageFile} {a b : StorageWal}
    (ha : Indexes files a) (hb : Indexes files b) (hdevice : OnDevice files a)
    (hfile : a.file = b.file) : a.fileNum = b.fileNum := by
  obtain ⟨file, hmem, hkey⟩ := hdevice
  obtain ⟨i, hi⟩ := List.mem_iff_getElem?.1 hmem
  rw [(ha i file hi hkey).1, (hb i file hi (hkey.trans hfile)).1]

/-- What a turn of the delete loop leaves of a recording with a lower file number. -/
theorem deleteTurn_lower {ids : List (String × ℕ)} (h : Indexes world.files wal)
    (hdevice : OnDevice world.files wal) (answer : DeleteAnswer) {lower : StorageWal}
    (hlower : Indexes world.files lower) (hdevice' : OnDevice world.files lower)
    (hlt : lower.fileNum < wal.fileNum) :
    Indexes (world.deleteTurn ids answer wal).files lower ∧
      OnDevice (world.deleteTurn ids answer wal).files lower := by
  rcases deleteStorageFile_cases h hdevice answer with
    ⟨-, k, file, hk, hfile, hkey, hdelete⟩ | ⟨-, hdelete⟩
  · unfold deleteTurn
    rw [hdelete]
    refine ⟨hlower.eraseIdx_of_le fun _ => by omega, ?_⟩
    obtain ⟨own, hmem, hown⟩ := hdevice'
    refine ⟨own, mem_eraseIdx_of_ne hfile hmem fun heq => ?_, hown⟩
    have hsame := fileNum_eq_of_file_eq hlower h ⟨own, hmem, hown⟩
      (hown.symm.trans (heq.trans hkey))
    omega
  · have hfiles : (world.deleteTurn ids answer wal).files = world.files := by
      unfold deleteTurn
      rw [hdelete]
      cases answer <;> rfl
    rw [hfiles]
    exact ⟨hlower, hdevice'⟩

theorem deleteLoop_deletedFrom {ids : List (String × ℕ)} {answer : StorageWal → DeleteAnswer}
    {targets : List StorageWal}
    (hindexes : ∀ other ∈ world.wals, other.id ∉ ids → Indexes world.files other)
    (htargets : ∀ target ∈ targets, Indexes world.files target ∧ OnDevice world.files target)
    (hdescending : targets.Pairwise fun a b => b.fileNum < a.fileNum) :
    DeletedFrom targets ids world (deleteLoop ids answer targets world) := by
  induction targets generalizing world with
  | nil => exact .refl [] hindexes
  | cons target rest ih =>
    obtain ⟨h, hdevice⟩ := htargets target List.mem_cons_self
    obtain ⟨hbelow, hrest⟩ := List.pairwise_cons.1 hdescending
    have hturn := deleteTurn_deletedFrom hindexes h hdevice (answer target)
    have hloop : DeletedFrom rest ids (world.deleteTurn ids (answer target) target)
        (deleteLoop ids answer rest (world.deleteTurn ids (answer target) target)) :=
      ih hturn.indexes (fun other hmem => by
        obtain ⟨hother, hdevice'⟩ := htargets other (List.mem_cons_of_mem target hmem)
        exact deleteTurn_lower h hdevice (answer target) hother hdevice' (hbelow other hmem))
      hrest
    exact hturn.trans hloop fun other hmem => hmem

theorem eq_of_file_eq (h : Indexed world) {a b : StorageWal} (ha : a ∈ world.wals)
    (hb : b ∈ world.wals) (hfile : a.file = b.file) : a = b :=
  List.inj_on_of_nodup_map h.walsNodup ha hb hfile

/-- Deletes of recordings of the list whose files are on the device. -/
theorem deleteWalsOnDevice_deletedFrom (sorts : StorageSorts) (h : Indexed world) (targets : List StorageWal)
    (htargets : ∀ target ∈ targets, target ∈ world.wals ∧ OnDevice world.files target)
    (hnodup : (targets.map StorageWal.file).Nodup) (connected : Bool)
    (answer : StorageWal → DeleteAnswer) :
    ∃ ids, (∀ id ∈ ids, ∃ target ∈ targets, target.id = id) ∧
      DeletedFrom targets ids world
        (world.deleteWalsOnDevice sorts targets connected answer) := by
  cases connected with
  | false =>
    exact ⟨[], fun _ hmem => absurd hmem List.not_mem_nil,
      .refl targets fun wal hmem _ => h.indexes wal hmem⟩
  | true =>
    let chosen := targets.filter fun wal => 0 ≤ wal.fileNum
    let sorted := sorts.highestFirst chosen
    have hmem : ∀ target ∈ sorted, target ∈ targets := by
      intro target htarget
      exact (List.mem_filter.1 ((sorts.highestFirst_perm chosen).mem_iff.1 htarget)).1
    have hsorted : ∀ target ∈ sorted, Indexes world.files target ∧
        OnDevice world.files target := by
      intro target htarget
      obtain ⟨hwal, hdevice⟩ := htargets target (hmem target htarget)
      exact ⟨h.indexes target hwal, hdevice⟩
    have hfiles : sorted.Pairwise fun a b => a.file ≠ b.file := by
      have hperm : (sorted.map StorageWal.file).Perm (chosen.map StorageWal.file) :=
        (sorts.highestFirst_perm chosen).map StorageWal.file
      have hchosen : (chosen.map StorageWal.file).Nodup :=
        hnodup.sublist (List.filter_sublist.map StorageWal.file)
      exact List.pairwise_map.1 (hperm.nodup_iff.2 hchosen)
    have hdescending : sorted.Pairwise fun a b => b.fileNum < a.fileNum := by
      refine ((sorts.descending chosen).and hfiles).imp_of_mem fun {a b} ha hb hboth => ?_
      obtain ⟨hle, hne⟩ := hboth
      refine lt_of_le_of_ne hle fun heq => hne ?_
      -- equal indices would be one file
      obtain ⟨fileA, hatA, hkeyA, -⟩ := (hsorted a ha).1.fileAt (hsorted a ha).2
      obtain ⟨fileB, hatB, hkeyB, -⟩ := (hsorted b hb).1.fileAt (hsorted b hb).2
      rw [heq, hatA] at hatB
      rw [← hkeyA, ← hkeyB, Option.some.inj hatB]
    refine ⟨sorted.map fun wal => wal.id, ?_, ?_⟩
    · intro id hid
      obtain ⟨target, htarget, rfl⟩ := List.mem_map.1 hid
      exact ⟨target, hmem target htarget, rfl⟩
    · have hloop : DeletedFrom sorted (sorted.map fun wal => wal.id) world
          (deleteLoop (sorted.map fun wal => wal.id) answer sorted world) :=
        deleteLoop_deletedFrom (fun other hother _ => h.indexes other hother) hsorted hdescending
      exact (DeletedFrom.refl targets fun wal hwal _ => h.indexes wal hwal).trans hloop
        fun target htarget => (List.mem_append.1 htarget).elim id (hmem target)

/-- Dropping the deleted recordings from the list keeps the invariant. -/
theorem indexed_afterDeletes (h : Indexed world) {targets : List StorageWal}
    {ids : List (String × ℕ)} {next : StorageWorld} (hdeleted : DeletedFrom targets ids world next)
    (keep : StorageWal → Bool)
    (hkeep : ∀ wal ∈ next.wals, keep wal = true →
      wal.id ∉ ids ∧ ∀ target ∈ targets, wal.file ≠ target.file) :
    Indexed { next with wals := next.wals.filter keep } := by
  constructor
  case filesNodup => exact h.filesNodup.sublist (hdeleted.files.map StorageFile.key)
  case filesBelow =>
    intro file hmem
    change file.key < next.nextKey
    rw [hdeleted.nextKey]
    exact h.filesBelow file (hdeleted.files.subset hmem)
  case walsNodup =>
    have hnodup := h.walsNodup
    rw [← hdeleted.walFiles] at hnodup
    exact hnodup.sublist (List.filter_sublist.map StorageWal.file)
  case walsBelow =>
    intro wal hmem
    obtain ⟨old, hold, hfile, -⟩ := hdeleted.wals wal (List.mem_filter.1 hmem).1
    change wal.file < next.nextKey
    rw [hdeleted.nextKey, hfile]
    exact h.walsBelow old hold
  case indexes =>
    intro wal hmem
    obtain ⟨hwal, hkept⟩ := List.mem_filter.1 hmem
    exact hdeleted.indexes wal hwal (hkeep wal hwal hkept).1
  case pending =>
    intro wal hmem hstatus
    obtain ⟨hwal, hkept⟩ := List.mem_filter.1 hmem
    obtain ⟨old, hold, hfile, hstatus', -⟩ := hdeleted.wals wal hwal
    obtain ⟨file, hdevice, hkey⟩ := h.pending old hold (hstatus'.symm.trans hstatus)
    refine ⟨file, hdeleted.kept file hdevice fun target htarget heq => ?_, hkey.trans hfile.symm⟩
    exact (hkeep wal hwal hkept).2 target htarget (hfile.trans (hkey.symm.trans heq))
  case offset =>
    intro wal hmem
    obtain ⟨old, hold, -, -, -, hoffset⟩ := hdeleted.wals wal (List.mem_filter.1 hmem).1
    exact hoffset.trans (h.offset old hold)

end StorageWorld

/-! ### Careful steps -/

/-- No recording is shifted that should not be, or left where it should shift. A refused delete
still shifts the recordings of the sync that lie above; a delete that is done does not shift
recordings left over from an earlier sync. -/
def HarmlessDelete (world : StorageWorld) (all : List ℕ) (wal : StorageWal) :
    Option DeleteAnswer → Prop
  | some .refused => ∀ other ∈ world.wals, other.file ∈ all → other.file ≠ wal.file →
    OnDevice world.files other → other.fileNum ≤ wal.fileNum
  | some .deleted => ∀ other ∈ world.wals, other.file ∉ all →
    OnDevice world.files other → other.fileNum ≤ wal.fileNum
  | some .threw => True
  | none => True

/-- No sync runs, the recordings of the status still have their files, and no other recording
shares its id with one of them. -/
def AllDeletable (world : StorageWorld) (status : WalStatus) : Prop :=
  world.syncing = none ∧
  (∀ target ∈ world.wals, target.status = status → OnDevice world.files target) ∧
  ∀ other ∈ world.wals, other.status ≠ status →
    ∀ target ∈ world.wals, target.status = status → other.id ≠ target.id

/-- What keeps the file numbers right. -/
def Careful (world : StorageWorld) : StorageAction → Prop
  | .syncAll => world.syncing = none
  | .finishFile delete => ∀ cursor, world.syncing = some cursor →
    ∀ wal ∈ world.wals, cursor.rest.head? = some wal.file →
      HarmlessDelete world cursor.all wal delete
  | .deleteWal wal _ _ => world.syncing = none ∧ wal ∈ world.wals ∧ OnDevice world.files wal
  | .deleteAllSyncedWals _ _ => AllDeletable world .synced
  | .deleteAllPendingWals _ _ => AllDeletable world .miss
  | _ => True

/-- Each chunk of a complete transfer is taken over by the phone, now or before, and the user
deletes only recordings whose files have been transferred and registered. -/
def HandsOver (world : StorageWorld) : StorageAction → Prop
  | .saveChunk .written => ∀ save ∈ world.saving, save.Complete → ∀ chunk ∈ save.left.head?,
    world.Takes save.wal chunk.1 ∨ world.Registered save.source chunk
  | .deleteWal wal _ _ => wal.file ∈ world.transferred
  | .deleteAllSyncedWals _ _ => ∀ target ∈ world.wals, target.status = .synced →
    target.file ∈ world.transferred
  | .deleteAllPendingWals _ _ => ∀ target ∈ world.wals, target.status = .miss →
    target.file ∈ world.transferred
  | _ => True

/-- Every command sent so far went to its recording's own file, and every chunk written holds audio
of its recording's own file and was pending on the phone that took it over. -/
structure Truthful (world : StorageWorld) : Prop where
  addressed : ∀ command ∈ world.commands, command.Addressed
  own : ∀ chunk ∈ world.saved, chunk.Own ∧ chunk.Pending

/-- What careful steps keep. -/
structure Coherent (world : StorageWorld) : Prop where
  indexed : Indexed world
  cursored : Cursored world
  saves : ∀ save ∈ world.saving, SavesOwn world save
  truthful : Truthful world

/-- What they also keep if everything is handed over. -/
structure Handed (world : StorageWorld) : Prop where
  safe : ∀ command ∈ world.commands, command.Safe
  written : ∀ save ∈ world.saving, save.Complete → ∀ chunk ∈ save.chunks,
    chunk ∈ save.left ∨ world.Registered save.source chunk

namespace StorageWorld
variable {world : StorageWorld}

theorem coherent_start : Coherent {} where
  indexed :=
    { filesNodup := List.nodup_nil
      filesBelow := fun _ hmem => absurd hmem List.not_mem_nil
      walsNodup := List.nodup_nil
      walsBelow := fun _ hmem => absurd hmem List.not_mem_nil
      indexes := fun _ hmem => absurd hmem List.not_mem_nil
      pending := fun _ hmem => absurd hmem List.not_mem_nil
      offset := fun _ hmem => absurd hmem List.not_mem_nil }
  cursored cursor h := by cases h
  saves _ hmem := by cases hmem
  truthful :=
    { addressed := fun _ hmem => absurd hmem List.not_mem_nil
      own := fun _ hmem => absurd hmem List.not_mem_nil }

theorem handed_start : Handed {} where
  safe _ hmem := absurd hmem List.not_mem_nil
  written _ hmem := by cases hmem

/-- Without a running sync no file is being saved. -/
theorem saving_none (h : Coherent world) (hidle : world.syncing = none) :
    world.saving = none := by
  cases hsaving : world.saving with
  | none => rfl
  | some save =>
    obtain ⟨cursor, rest, hcursor, -⟩ := (h.saves save hsaving).next
    rw [hidle] at hcursor
    cases hcursor

/-- What the phone and the connection to it are does not matter here. -/
theorem coherent_phone (h : Coherent world) (hasLocalSync : Bool) (phone : Phone) :
    Coherent { world with hasLocalSync := hasLocalSync, phone := phone } where
  indexed := ⟨h.indexed.filesNodup, h.indexed.filesBelow, h.indexed.walsNodup,
    h.indexed.walsBelow, h.indexed.indexes, h.indexed.pending, h.indexed.offset⟩
  cursored := h.cursored
  saves save hmem := ⟨(h.saves save hmem).next, (h.saves save hmem).listed,
    (h.saves save hmem).source⟩
  truthful := ⟨h.truthful.addressed, h.truthful.own⟩

theorem coherent_record (h : Coherent world) (timestamp sizeBytes : ℕ)
    (stream : List Bytes) : Coherent (world.record timestamp sizeBytes stream) := by
  have hindexed := h.indexed
  refine ⟨?_, h.cursored, fun save hmem => ?_, ⟨h.truthful.addressed, h.truthful.own⟩⟩
  case refine_2 =>
    obtain ⟨hnext, hlisted, file, hfile, hsource⟩ := h.saves save hmem
    exact ⟨hnext, hlisted, file, List.mem_append_left _ hfile, hsource⟩
  constructor
  case filesNodup =>
    simp only [record, List.map_append, List.map_singleton]
    refine hindexed.filesNodup.append (List.nodup_singleton _) fun key hold hnew => ?_
    obtain ⟨file, hmem, rfl⟩ := List.mem_map.1 hold
    have hbelow := hindexed.filesBelow file hmem
    rw [List.mem_singleton] at hnew
    omega
  case filesBelow =>
    intro file hmem
    change file.key < world.nextKey + 1
    rcases List.mem_append.1 hmem with hold | hnew
    · exact Nat.lt_succ_of_lt (hindexed.filesBelow file hold)
    · rw [List.mem_singleton.1 hnew]
      exact Nat.lt_succ_self world.nextKey
  case walsNodup => exact hindexed.walsNodup
  case walsBelow =>
    intro wal hmem
    exact Nat.lt_succ_of_lt (hindexed.walsBelow wal hmem)
  case indexes =>
    intro wal hmem i file hi hkey
    rcases Nat.lt_or_ge i world.files.length with hlt | hge
    · rw [record, List.getElem?_append_left hlt] at hi
      exact hindexed.indexes wal hmem i file hi hkey
    · rw [record, List.getElem?_append_right hge] at hi
      have hnew := List.mem_singleton.1 (List.mem_of_getElem? hi)
      have hbelow := hindexed.walsBelow wal hmem
      rw [hnew] at hkey
      simp only at hkey
      omega
  case pending =>
    intro wal hmem hstatus
    obtain ⟨file, hdevice, hkey⟩ := hindexed.pending wal hmem hstatus
    exact ⟨file, List.mem_append_left _ hdevice, hkey⟩
  case offset => exact hindexed.offset

theorem mem_oldestFirst {sorts : StorageSorts} {wals : List StorageWal} {wal : StorageWal} :
    wal ∈ sorts.oldestFirst wals ↔ wal ∈ wals :=
  (sorts.oldestFirst_perm wals).mem_iff

theorem oldestFirst_files_nodup {sorts : StorageSorts} {wals : List StorageWal} :
    ((sorts.oldestFirst wals).map StorageWal.file).Nodup ↔
      (wals.map StorageWal.file).Nodup :=
  ((sorts.oldestFirst_perm wals).map StorageWal.file).nodup_iff

theorem listedWal_eq {device : String} {codec : BleAudioCodec} {file : StorageFile} {index : ℕ}
    {wal : StorageWal} (h : listedWal device codec file index = some wal) :
    wal.file = file.key ∧ wal.fileNum = index ∧ wal.timerStart = file.timestamp ∧
      wal.storageTotalBytes = file.sizeBytes ∧ wal.storageOffset = 0 := by
  unfold listedWal at h
  dsimp only at h
  split_ifs at h
  obtain rfl := Option.some.inj h
  exact ⟨rfl, rfl, rfl, rfl, rfl⟩

theorem indexed_listed (sorts : StorageSorts) (h : Indexed world) (device : String)
    (codec : BleAudioCodec) : Indexed { world with
      wals := sorts.oldestFirst (world.files.zipIdx.filterMap fun (file, index) =>
        listedWal device codec file index) } := by
  have hlisted : ∀ wal ∈ sorts.oldestFirst (world.files.zipIdx.filterMap fun (file, index) =>
      listedWal device codec file index), ∃ (file : StorageFile) (index : ℕ),
        world.files[index]? = some file ∧ listedWal device codec file index = some wal := by
    intro wal hmem
    obtain ⟨⟨file, index⟩, hzip, hwal⟩ := List.mem_filterMap.1 (mem_oldestFirst.1 hmem)
    exact ⟨file, index, List.mk_mem_zipIdx_iff_getElem?.1 hzip, hwal⟩
  constructor
  case filesNodup => exact h.filesNodup
  case filesBelow => exact h.filesBelow
  case walsNodup =>
    refine oldestFirst_files_nodup.2 (List.pairwise_map.2 ?_)
    have hkeys : world.files.zipIdx.Pairwise fun a b => a.1.key ≠ b.1.key := by
      rw [← List.pairwise_map (f := Prod.fst) (R := fun a b : StorageFile => a.key ≠ b.key)]
      rw [List.zipIdx_map_fst]
      exact List.pairwise_map.1 h.filesNodup
    rw [List.pairwise_filterMap]
    refine hkeys.imp fun {a b} hne wal hwal other hother => ?_
    rw [(listedWal_eq hwal).1, (listedWal_eq hother).1]
    exact hne
  case walsBelow =>
    intro wal hmem
    obtain ⟨file, index, hfile, hwal⟩ := hlisted wal hmem
    rw [(listedWal_eq hwal).1]
    exact h.filesBelow file (List.mem_of_getElem? hfile)
  case indexes =>
    intro wal hmem i own hi hkey
    obtain ⟨file, index, hfile, hwal⟩ := hlisted wal hmem
    obtain ⟨hsame, hnum, htime, hsize, -⟩ := listedWal_eq hwal
    have hbound : index < (world.files.map StorageFile.key).length := by
      rw [List.length_map]
      exact (List.getElem?_eq_some_iff.1 hfile).1
    have hindex : index = i := by
      refine (List.getElem?_inj hbound h.filesNodup).1 ?_
      rw [List.getElem?_map, List.getElem?_map, hfile, hi]
      exact congrArg some (hsame.symm.trans hkey.symm)
    subst hindex
    obtain rfl := Option.some.inj (hfile.symm.trans hi)
    exact ⟨hnum, htime, hsize⟩
  case pending =>
    intro wal hmem _
    obtain ⟨file, index, hfile, hwal⟩ := hlisted wal hmem
    exact ⟨file, List.mem_of_getElem? hfile, (listedWal_eq hwal).1.symm⟩
  case offset =>
    intro wal hmem
    obtain ⟨file, index, -, hwal⟩ := hlisted wal hmem
    exact (listedWal_eq hwal).2.2.2.2

theorem coherent_refresh (sorts : StorageSorts) (h : Coherent world) (device : String)
    (answer : Discovery) : Coherent (world.refreshWalsFromDevice sorts device answer) := by
  unfold refreshWalsFromDevice
  split_ifs with hsyncing
  · exact h
  have hidle : world.syncing = none := by simpa using hsyncing
  have hnothing : ∀ wals, ∀ save ∈ world.saving, SavesOwn { world with wals := wals } save := by
    intro wals save hmem
    rw [saving_none h hidle] at hmem
    cases hmem
  have hcursored : ∀ wals, Cursored { world with wals := wals } := by
    intro wals cursor hcursor
    rw [show world.syncing = some cursor from hcursor] at hidle
    cases hidle
  cases answer with
  | failed => exact h
  | empty =>
    refine ⟨?_, hcursored [], hnothing [], ⟨h.truthful.addressed, h.truthful.own⟩⟩
    exact
      { filesNodup := h.indexed.filesNodup
        filesBelow := h.indexed.filesBelow
        walsNodup := List.nodup_nil
        walsBelow := fun _ hmem => absurd hmem List.not_mem_nil
        indexes := fun _ hmem => absurd hmem List.not_mem_nil
        pending := fun _ hmem => absurd hmem List.not_mem_nil
        offset := fun _ hmem => absurd hmem List.not_mem_nil }
  | listed codec =>
    exact ⟨indexed_listed sorts h.indexed device codec, hcursored _, hnothing _,
      ⟨h.truthful.addressed, h.truthful.own⟩⟩

theorem coherent_syncAll (sorts : StorageSorts) (h : Coherent world) :
    Coherent (world.syncAll sorts) := by
  unfold syncAll
  dsimp only
  split_ifs with hnone
  · exact h
  · refine ⟨⟨h.indexed.filesNodup, h.indexed.filesBelow, h.indexed.walsNodup,
      h.indexed.walsBelow, h.indexed.indexes, h.indexed.pending, h.indexed.offset⟩, ?_,
      fun _ hmem => (by cases hmem), ⟨h.truthful.addressed, h.truthful.own⟩⟩
    intro cursor hcursor
    obtain rfl := Option.some.inj hcursor
    refine ⟨?_, fun file hmem => ⟨hmem, ?_⟩⟩
    · exact oldestFirst_files_nodup.2
        (h.indexed.walsNodup.sublist (List.filter_sublist.map StorageWal.file))
    · obtain ⟨wal, hwal, rfl⟩ := List.mem_map.1 hmem
      obtain ⟨hlist, hstatus⟩ := List.mem_filter.1 (mem_oldestFirst.1 hwal)
      exact ⟨wal, hlist, rfl, of_decide_eq_true (Bool.and_eq_true_iff.1 hstatus).1⟩

/-! ### One turn of a sync -/

theorem indexed_syncing (h : Indexed world) (syncing : Option SyncCursor) :
    Indexed { world with syncing := syncing } :=
  ⟨h.filesNodup, h.filesBelow, h.walsNodup, h.walsBelow, h.indexes, h.pending, h.offset⟩

/-- The end of a sync. -/
theorem coherent_idle (h : Indexed world) (htruthful : Truthful world)
    (hsaving : world.saving = none) : Coherent { world with syncing := none } where
  indexed := indexed_syncing h none
  cursored cursor hcursor := by cases hcursor
  saves save hmem := by
    rw [show world.saving = some save from hmem] at hsaving
    cases hsaving
  truthful := ⟨htruthful.addressed, htruthful.own⟩

theorem handed_idle (h : Handed world) {next : StorageWorld}
    (hcommands : next.commands = world.commands) (hnext : next.saving = none) :
    Handed next where
  safe command hmem := h.safe command (hcommands ▸ hmem)
  written save hmem := by
    rw [hnext] at hmem
    cases hmem

/-- A read for a pending recording of the list. -/
theorem coherent_readFile (h : Coherent world) {cursor : SyncCursor} {wal : StorageWal}
    {rest : List ℕ} (hcursor : world.syncing = some cursor)
    (hrest : cursor.rest = wal.file :: rest) (hwal : wal ∈ world.wals)
    (hdevice : OnDevice world.files wal) (delivered now : ℕ) :
    Coherent (world.readFile wal delivered now) ∧
      (Handed world → Handed (world.readFile wal delivered now)) := by
  obtain ⟨source, hat, hkey, htime, hsize⟩ := (h.indexed.indexes wal hwal).fileAt hdevice
  have hmem : source ∈ world.files := by
    unfold fileAt at hat
    split_ifs at hat
    exact List.mem_of_getElem? hat
  refine ⟨⟨?_, h.cursored, ?_, ⟨?_, h.truthful.own⟩⟩, fun hhanded => ⟨?_, ?_⟩⟩
  · exact ⟨h.indexed.filesNodup, h.indexed.filesBelow, h.indexed.walsNodup, h.indexed.walsBelow,
      h.indexed.indexes, h.indexed.pending, h.indexed.offset⟩
  · intro save hsave
    obtain rfl := Option.some.inj hsave
    exact ⟨⟨cursor, rest, hcursor, hrest⟩, hwal, source, hmem, hat, hkey, htime, hsize⟩
  · intro command hcommand
    rcases List.mem_append.1 hcommand with hold | hnew
    · exact h.truthful.addressed command hold
    · rw [List.mem_singleton.1 hnew]
      exact ⟨source, hat, hkey⟩
  · intro command hcommand
    rcases List.mem_append.1 hcommand with hold | hnew
    · exact hhanded.safe command hold
    · rw [List.mem_singleton.1 hnew]
      intro key hremoved
      cases hremoved
  · intro save hsave _ chunk hchunk
    obtain rfl := Option.some.inj hsave
    exact .inl hchunk

theorem mem_markSynced {file : ℕ} {wal : StorageWal} (h : wal ∈ (world.markSynced file).wals) :
    ∃ old ∈ world.wals, wal = if old.file = file then { old with status := .synced } else old := by
  obtain ⟨old, hmem, hold⟩ := List.mem_map.1 h
  exact ⟨old, hmem, hold.symm⟩

/-- Marking a recording as synced leaves the rest as it is. -/
theorem indexed_markSynced (h : Indexed world) (file : ℕ) : Indexed (world.markSynced file) := by
  constructor
  case filesNodup => exact h.filesNodup
  case filesBelow => exact h.filesBelow
  case walsNodup =>
    have hfiles : (world.markSynced file).wals.map StorageWal.file =
        world.wals.map StorageWal.file := by
      simp only [markSynced, List.map_map]
      refine List.map_congr_left fun old _ => ?_
      simp only [Function.comp_apply]
      split_ifs <;> rfl
    rw [hfiles]
    exact h.walsNodup
  case walsBelow =>
    intro wal hmem
    obtain ⟨old, hold, rfl⟩ := mem_markSynced hmem
    have hbelow := h.walsBelow old hold
    split_ifs <;> exact hbelow
  case indexes =>
    intro wal hmem
    obtain ⟨old, hold, rfl⟩ := mem_markSynced hmem
    have hindexes := h.indexes old hold
    split_ifs <;> exact hindexes
  case pending =>
    intro wal hmem hstatus
    obtain ⟨old, hold, rfl⟩ := mem_markSynced hmem
    split_ifs at hstatus ⊢
    exact h.pending old hold hstatus
  case offset =>
    intro wal hmem
    obtain ⟨old, hold, rfl⟩ := mem_markSynced hmem
    have hoffset := h.offset old hold
    split_ifs <;> exact hoffset

/-- The invariant after some files are gone and some recordings have shifted. -/
theorem indexed_shiftAbove (h : Indexed world) {files : List StorageFile}
    {commands : List StorageCommand} {shifts : StorageWal → Bool} {fileNum : ℤ}
    (hfiles : List.Sublist files world.files)
    (hindexes : ∀ old ∈ world.wals, Indexes files
      (if shifts old && fileNum < old.fileNum then { old with fileNum := old.fileNum - 1 }
        else old))
    (hpending : ∀ old ∈ world.wals, old.status = .miss → OnDevice files old) :
    Indexed (StorageWorld.shiftAbove { world with files := files, commands := commands }
      shifts fileNum) := by
  constructor
  case filesNodup => exact h.filesNodup.sublist (hfiles.map StorageFile.key)
  case filesBelow => exact fun file hmem => h.filesBelow file (hfiles.subset hmem)
  case walsNodup =>
    rw [shiftAbove_walFiles]
    exact h.walsNodup
  case walsBelow =>
    intro other hmem
    obtain ⟨old, hold, rfl⟩ := mem_shiftAbove hmem
    have hbelow := h.walsBelow old hold
    split_ifs <;> exact hbelow
  case indexes =>
    intro other hmem
    obtain ⟨old, hold, rfl⟩ := mem_shiftAbove hmem
    exact hindexes old hold
  case pending =>
    intro other hmem hstatus
    obtain ⟨old, hold, rfl⟩ := mem_shiftAbove hmem
    have hstatus' : old.status = .miss := by
      split_ifs at hstatus <;> exact hstatus
    have hdevice := hpending old hold hstatus'
    split_ifs <;> exact hdevice
  case offset =>
    intro other hmem
    obtain ⟨old, hold, rfl⟩ := mem_shiftAbove hmem
    have hoffset := h.offset old hold
    split_ifs <;> exact hoffset

/-- The file is gone: the recordings of the sync shift, and no other lies above. -/
theorem indexed_deleted {wal : StorageWal} {all : List ℕ} (h : Indexed world)
    (hwal : Indexes world.files wal)
    (hsynced : ∀ other ∈ world.wals, other.file = wal.file → other.status = .synced)
    (hharmless : HarmlessDelete world all wal (some .deleted)) {k : ℕ} {file : StorageFile}
    (hk : wal.fileNum = k) (hfile : world.files[k]? = some file) (hkey : file.key = wal.file)
    (commands : List StorageCommand) :
    Indexed (StorageWorld.shiftAbove
      { world with files := world.files.eraseIdx k, commands := commands }
      (fun other => other.file ∈ all && other.file ≠ wal.file) wal.fileNum) := by
  have hdevice : OnDevice world.files wal := ⟨file, List.mem_of_getElem? hfile, hkey⟩
  refine indexed_shiftAbove h (List.eraseIdx_sublist _ k) (fun old hold => ?_) fun old hold hstatus => ?_
  · have hold' := h.indexes old hold
    by_cases hshifts : old.file ∈ all ∧ old.file ≠ wal.file
    · simp only [hshifts, ne_eq, not_false_eq_true, decide_true, Bool.and_self, Bool.true_and,
        decide_eq_true_eq, hk]
      exact hold'.eraseIdx_shift
    · have hstays : (decide (old.file ∈ all) && decide (old.file ≠ wal.file)) = false := by
        rw [← Bool.decide_and]
        exact decide_eq_false hshifts
      simp only [hstays, Bool.false_and, Bool.false_eq_true, if_false]
      refine hold'.eraseIdx_of_le fun hdevice' => ?_
      rw [← hk]
      by_cases hown : old.file = wal.file
      · exact (fileNum_eq_of_file_eq hold' hwal hdevice' hown).le
      · exact hharmless old hold (fun hall => hshifts ⟨hall, hown⟩) hdevice'
  · have hne : old.file ≠ wal.file := fun heq => by
      rw [hsynced old hold heq] at hstatus
      cases hstatus
    obtain ⟨own, hown, hownKey⟩ := h.pending old hold hstatus
    refine ⟨own, mem_eraseIdx_of_ne hfile hown fun heq => hne ?_, hownKey⟩
    rw [← hownKey, heq, hkey]

/-- The delete was refused: what shifts is not on the device. -/
theorem indexed_refused {wal : StorageWal} {all : List ℕ} (h : Indexed world)
    (hharmless : HarmlessDelete world all wal (some .refused))
    (commands : List StorageCommand) :
    Indexed (StorageWorld.shiftAbove { world with commands := commands }
      (fun other => other.file ∈ all && other.file ≠ wal.file) wal.fileNum) := by
  refine indexed_shiftAbove h (List.Sublist.refl _) (fun old hold => ?_) h.pending
  have hold' := h.indexes old hold
  split_ifs with hshift
  · simp only [Bool.and_eq_true, decide_eq_true_eq] at hshift
    obtain ⟨⟨hall, hne⟩, habove⟩ := hshift
    intro i own hi hown
    have hle := hharmless old hold hall hne ⟨own, List.mem_of_getElem? hi, hown⟩
    omega
  · exact hold'

/-- What the delete after a complete transfer leaves alone. -/
structure DeleteFrame (world next : StorageWorld) (wal : StorageWal) : Prop where
  saving : next.saving = world.saving
  saved : next.saved = world.saved
  transferred : next.transferred = world.transferred
  commands : ∀ command ∈ next.commands, command ∈ world.commands ∨
    (command.Addressed ∧ command.transferred = world.transferred ∧
      ∀ key, command.removed = some key → key = wal.file)
  wals : ∀ old ∈ world.wals, ∃ shifted ∈ next.wals,
    shifted.file = old.file ∧ shifted.status = old.status

/-- The delete after a complete transfer keeps the file numbers right, if it is harmless. -/
theorem deleteAfterSync_spec {wal : StorageWal} {all : List ℕ} {answer : Option DeleteAnswer}
    (h : Indexed world) (hwal : Indexes world.files wal) (hdevice : OnDevice world.files wal)
    (hsynced : ∀ other ∈ world.wals, other.file = wal.file → other.status = .synced)
    (hharmless : HarmlessDelete world all wal answer) :
    Indexed (world.deleteAfterSync all wal answer) ∧
      DeleteFrame world (world.deleteAfterSync all wal answer) wal := by
  cases answer with
  | none => exact ⟨h, ⟨rfl, rfl, rfl, fun _ hmem => .inl hmem,
    fun old hold => ⟨old, hold, rfl, rfl⟩⟩⟩
  | some answer =>
    have hcommands : ∀ removed, (∀ key, removed = some key → key = wal.file) →
        ∀ command ∈ world.commands ++ [⟨wal, world.files, world.transferred, removed⟩],
          command ∈ world.commands ∨ (command.Addressed ∧
            command.transferred = world.transferred ∧
            ∀ key, command.removed = some key → key = wal.file) := by
      intro removed hremoved command hmem
      rcases List.mem_append.1 hmem with hold | hnew
      · exact .inl hold
      · obtain ⟨file, hat, hkey, -⟩ := hwal.fileAt hdevice
        rw [List.mem_singleton.1 hnew]
        exact .inr ⟨⟨file, hat, hkey⟩, rfl, hremoved⟩
    have hmapped : ∀ (next : StorageWorld) (shifts : StorageWal → Bool) (fileNum : ℤ),
        ∀ old ∈ next.wals, ∃ shifted ∈ (next.shiftAbove shifts fileNum).wals,
          shifted.file = old.file ∧ shifted.status = old.status := by
      intro next shifts fileNum old hold
      refine ⟨_, List.mem_map_of_mem hold, ?_⟩
      split_ifs <;> exact ⟨rfl, rfl⟩
    unfold deleteAfterSync
    simp only [hwal.nonneg hdevice, if_true]
    rcases deleteStorageFile_cases hwal hdevice answer with
      ⟨rfl, k, file, hk, hfile, hkey, hdelete⟩ | ⟨hanswer, hdelete⟩
    · rw [hdelete]
      exact ⟨indexed_deleted h hwal hsynced hharmless hk hfile hkey _, rfl, rfl, rfl,
        hcommands _ fun key heq => (Option.some.inj heq).symm, hmapped _ _ _⟩
    · rw [hdelete]
      have hnothing : ∀ key, (none : Option ℕ) = some key → key = wal.file := by
        intro key heq
        cases heq
      cases answer with
      | deleted => exact absurd rfl hanswer
      | refused =>
        exact ⟨indexed_refused h hharmless _, rfl, rfl, rfl, hcommands _ hnothing, hmapped _ _ _⟩
      | threw =>
        exact ⟨⟨h.filesNodup, h.filesBelow, h.walsNodup, h.walsBelow, h.indexes, h.pending,
          h.offset⟩, rfl, rfl, rfl, hcommands _ hnothing, fun old hold => ⟨old, hold, rfl, rfl⟩⟩

/-- Whether a delete is harmless does not depend on which recordings are marked as synced. -/
theorem harmless_markSynced {all : List ℕ} {wal : StorageWal} {answer : Option DeleteAnswer}
    (h : HarmlessDelete world all wal answer) (file : ℕ) :
    HarmlessDelete (world.markSynced file) all wal answer := by
  have hold : ∀ other ∈ (world.markSynced file).wals, ∃ old ∈ world.wals,
      other.file = old.file ∧ other.fileNum = old.fileNum := by
    intro other hmem
    obtain ⟨old, hmem', rfl⟩ := mem_markSynced hmem
    refine ⟨old, hmem', ?_⟩
    split_ifs <;> exact ⟨rfl, rfl⟩
  cases answer with
  | none => trivial
  | some answer =>
    cases answer with
    | threw => trivial
    | deleted =>
      intro other hmem hall hdevice
      obtain ⟨old, hmem', hfile, hnum⟩ := hold other hmem
      obtain ⟨own, hown, hkey⟩ := hdevice
      rw [hfile] at hall
      rw [hnum]
      exact h old hmem' hall ⟨own, hown, hkey.trans hfile⟩
    | refused =>
      intro other hmem hall hne hdevice
      obtain ⟨old, hmem', hfile, hnum⟩ := hold other hmem
      obtain ⟨own, hown, hkey⟩ := hdevice
      rw [hfile] at hall hne
      rw [hnum]
      exact h old hmem' hall hne ⟨own, hown, hkey.trans hfile⟩

/-- A complete transfer and the delete after it. -/
theorem coherent_complete {cursor : SyncCursor} {wal : StorageWal} {rest : List ℕ}
    {delete : Option DeleteAnswer} (h : Indexed world) (htruthful : Truthful world)
    (hsaving : world.saving = none) (hwal : wal ∈ world.wals)
    (hdevice : OnDevice world.files wal) (hnodup : (wal.file :: rest).Nodup)
    (hpending : ∀ file ∈ rest, file ∈ cursor.all ∧
      ∃ own ∈ world.wals, own.file = file ∧ own.status = .miss)
    (hharmless : HarmlessDelete world cursor.all wal delete) :
    let next := { (world.markSynced wal.file).deleteAfterSync cursor.all wal delete with
      syncing := some ⟨cursor.all, rest⟩ }
    Coherent next ∧ ((∀ command ∈ world.commands, command.Safe) →
      wal.file ∈ world.transferred → Handed next) := by
  intro next
  have hsynced : ∀ other ∈ (world.markSynced wal.file).wals, other.file = wal.file →
      other.status = .synced := by
    intro other hmem hfile
    obtain ⟨old, hold, rfl⟩ := mem_markSynced hmem
    split_ifs with hsame
    · rfl
    · rw [if_neg hsame] at hfile
      exact absurd hfile hsame
  obtain ⟨hindexed, hframe⟩ := deleteAfterSync_spec (indexed_markSynced h wal.file)
    (h.indexes wal hwal) hdevice hsynced (harmless_markSynced hharmless wal.file)
  have hnothing : next.saving = none := hframe.saving.trans hsaving
  refine ⟨⟨indexed_syncing hindexed _, ?_, fun save hmem => ?_,
    ⟨fun command hmem => ?_, fun chunk hmem => ?_⟩⟩, fun hsafe htransferred => ⟨?_, ?_⟩⟩
  · intro later hlater
    obtain rfl := Option.some.inj hlater
    refine ⟨(List.nodup_cons.1 hnodup).2, fun file hmem => ?_⟩
    obtain ⟨hall, own, hown, hfile, hstatus⟩ := hpending file hmem
    have hne : own.file ≠ wal.file := fun heq =>
      (List.nodup_cons.1 hnodup).1 (by rwa [← heq, hfile])
    have hkept : own ∈ (world.markSynced wal.file).wals := by
      refine List.mem_map.2 ⟨own, hown, ?_⟩
      rw [if_neg hne]
    obtain ⟨shifted, hshifted, hfile', hstatus'⟩ := hframe.wals own hkept
    exact ⟨hall, shifted, hshifted, hfile'.trans hfile, hstatus'.trans hstatus⟩
  · rw [hnothing] at hmem
    cases hmem
  · rcases hframe.commands command hmem with hold | ⟨haddressed, -⟩
    · exact htruthful.addressed command hold
    · exact haddressed
  · have hmem' : chunk ∈ world.saved := by
      have hsaved : next.saved = world.saved := hframe.saved
      rwa [hsaved] at hmem
    exact htruthful.own chunk hmem'
  · intro command hmem
    rcases hframe.commands command hmem with hold | ⟨-, hsnapshot, hremoved⟩
    · exact hsafe command hold
    · intro key hkey
      rw [hsnapshot, hremoved key hkey]
      exact htransferred
  · intro save hmem
    rw [hnothing] at hmem
    cases hmem

theorem coherent_syncNext (h : Coherent world) (outcome : FileOutcome) :
    Coherent (world.syncNext outcome) ∧ (Handed world → Handed (world.syncNext outcome)) := by
  unfold syncNext
  split_ifs with hsaving
  · exact ⟨h, id⟩
  have hnothing : world.saving = none := by simpa using hsaving
  have hidle : Coherent { world with syncing := none } ∧
      (Handed world → Handed { world with syncing := none }) :=
    ⟨coherent_idle h.indexed h.truthful hnothing, fun hhanded =>
      handed_idle hhanded rfl hnothing⟩
  cases hcursor : world.syncing with
  | none => exact ⟨h, id⟩
  | some cursor =>
    simp only
    cases hrest : cursor.rest with
    | nil => exact hidle
    | cons file rest =>
      simp only
      cases hfind : world.wals.find? fun wal => wal.file = file with
      | none => exact hidle
      | some wal =>
        have hwal := List.mem_of_find?_eq_some hfind
        obtain rfl : wal.file = file := by simpa using List.find?_some hfind
        cases outcome with
        | cancelled => exact hidle
        | failed => exact hidle
        | unplugged =>
          refine ⟨coherent_idle (indexed_markSynced h.indexed wal.file)
            ⟨h.truthful.addressed, h.truthful.own⟩ hnothing, fun hhanded => ?_⟩
          exact handed_idle hhanded rfl hnothing
        | read delivered now =>
          obtain ⟨-, own, hown, hfile, hstatus⟩ := (h.cursored cursor hcursor).2 wal.file (by
            rw [hrest]
            exact List.mem_cons_self)
          obtain rfl := eq_of_file_eq h.indexed hown hwal hfile
          exact coherent_readFile h hcursor hrest hwal (h.indexed.pending own hown hstatus)
            delivered now

/-! ### Saving what was read -/

/-- What was taken over stays so. -/
theorem Registered.mono {next : StorageWorld} {source : Option StorageFile}
    {chunk : ℕ × List Bytes} (h : world.Registered source chunk)
    (hsub : ∀ old ∈ world.saved, old ∈ next.saved) : next.Registered source chunk := by
  obtain ⟨old, hold, heq⟩ := h
  exact ⟨old, hsub old hold, heq⟩

/-- A chunk that is taken over waits on the phone in a file of its frames. -/
theorem pending_register (world : StorageWorld) (wal : StorageWal) (source : Option StorageFile)
    (timerStart : ℕ) (frames : List Bytes) :
    SavedChunk.Pending ⟨wal, source, timerStart, frames, world.Takes wal timerStart,
      world.phone.sync.register world.hasLocalSync wal.toWal timerStart frames⟩ := by
  intro htaken
  obtain ⟨hlocal, htakes⟩ := of_decide_eq_true htaken
  refine ⟨?_, ?_⟩
  · rcases htakes with hnew | ⟨⟨old, index⟩, hmem, hmiss, hdisk, hpath, -⟩
    · refine ⟨wal.toWal.chunkWal timerStart frames.length, ?_, rfl, rfl, rfl⟩
      rw [hlocal, LocalSync.wals_register wal.toWal timerStart frames hnew]
      exact List.mem_append_right _ (List.mem_singleton_self _)
    · have hold := List.mk_mem_zipIdx_iff_getElem?.1 hmem
      exact ⟨old, List.mem_of_getElem? (LocalSync.getElem?_register _ _ _ frames hold), hmiss,
        hdisk, hpath⟩
  · rw [LocalSync.files_register, if_pos rfl]

theorem coherent_writeChunk (h : Coherent world) {save : StorageSave}
    (hsaving : world.saving = some save) (chunk : ℕ × List Bytes)
    (left : List (ℕ × List Bytes)) : Coherent (world.writeChunk save chunk left) := by
  obtain ⟨hnext, hlisted, file, hfile, hsource, hkey, htime, hsize⟩ := h.saves save hsaving
  refine ⟨?_, h.cursored, ?_, ⟨h.truthful.addressed, ?_⟩⟩
  · exact ⟨h.indexed.filesNodup, h.indexed.filesBelow, h.indexed.walsNodup, h.indexed.walsBelow,
      h.indexed.indexes, h.indexed.pending, h.indexed.offset⟩
  · intro saved hsaved
    obtain rfl := Option.some.inj hsaved
    exact ⟨hnext, hlisted, file, hfile, hsource, hkey, htime, hsize⟩
  · intro old hold
    rcases List.mem_append.1 hold with hbefore | hnew
    · exact h.truthful.own old hbefore
    · rw [List.mem_singleton.1 hnew]
      exact ⟨⟨file, hsource, hkey, htime⟩,
        pending_register world save.wal save.source chunk.1 chunk.2⟩

theorem handed_writeChunk (h : Handed world) {save : StorageSave}
    (hsaving : world.saving = some save) {chunk : ℕ × List Bytes}
    {left : List (ℕ × List Bytes)} (hleft : save.left = chunk :: left)
    (htakes : save.Complete →
      world.Takes save.wal chunk.1 ∨ world.Registered save.source chunk) :
    Handed (world.writeChunk save chunk left) := by
  have hstays : ∀ old ∈ world.saved, old ∈ (world.writeChunk save chunk left).saved :=
    fun old hold => List.mem_append_left _ hold
  refine ⟨h.safe, fun saved hsaved hcomplete other hother => ?_⟩
  obtain rfl := Option.some.inj hsaved
  rcases h.written save hsaving hcomplete other hother with hmem | hbefore
  · rw [hleft] at hmem
    rcases List.mem_cons.1 hmem with rfl | hrest
    · right
      rcases htakes hcomplete with htaken | hbefore
      · exact ⟨_, List.mem_append_right _ (List.mem_singleton_self _), decide_eq_true htaken,
          rfl, rfl⟩
      · exact hbefore.mono hstays
    · exact .inl hrest
  · exact .inr (hbefore.mono hstays)

theorem coherent_failChunk (h : Coherent world) (sync : LocalSync) :
    Coherent (world.failChunk sync) ∧ (Handed world → Handed (world.failChunk sync)) := by
  refine ⟨⟨?_, fun _ hmem => (by cases hmem), fun _ hmem => (by cases hmem),
    ⟨h.truthful.addressed, h.truthful.own⟩⟩, fun hhanded =>
      ⟨hhanded.safe, fun _ hmem => (by cases hmem)⟩⟩
  exact ⟨h.indexed.filesNodup, h.indexed.filesBelow, h.indexed.walsNodup, h.indexed.walsBelow,
    h.indexed.indexes, h.indexed.pending, h.indexed.offset⟩

theorem coherent_saveChunk (h : Coherent world) (answer : FlushAnswer) :
    Coherent (world.saveChunk answer) ∧
      (HandsOver world (.saveChunk answer) → Handed world →
        Handed (world.saveChunk answer)) := by
  unfold saveChunk
  cases hsaving : world.saving with
  | none => exact ⟨h, fun _ => id⟩
  | some save =>
    dsimp only
    cases hleft : save.left with
    | nil => exact ⟨h, fun _ => id⟩
    | cons chunk left =>
      cases answer with
      | writeFailed begun =>
        obtain ⟨hcoherent, hhands⟩ := coherent_failChunk h
          (world.phone.sync.beginFile save.wal.toWal chunk.1 chunk.2 begun)
        exact ⟨hcoherent, fun _ => hhands⟩
      | registerFailed =>
        obtain ⟨hcoherent, hhands⟩ := coherent_failChunk h (world.registerChunk save chunk)
        exact ⟨hcoherent, fun _ => hhands⟩
      | written =>
        refine ⟨coherent_writeChunk h hsaving chunk left, fun htakes hhanded => ?_⟩
        refine handed_writeChunk hhanded hsaving hleft fun hcomplete => ?_
        exact htakes save hsaving hcomplete chunk (by rw [hleft]; rfl)

/-- The listed recording of a file. -/
theorem find?_listed (h : Indexed world) {wal : StorageWal} (hwal : wal ∈ world.wals) :
    world.wals.find? (fun other => other.file = wal.file) = some wal := by
  cases hfind : world.wals.find? fun other => other.file = wal.file with
  | none => simpa using List.find?_eq_none.1 hfind wal hwal
  | some other =>
    have hother := List.mem_of_find?_eq_some hfind
    have hfile : other.file = wal.file := by simpa using List.find?_some hfind
    rw [eq_of_file_eq h hother hwal hfile]

/-- A file that was read completely counts as transferred once its chunks are taken over. -/
theorem mem_transferredWith {save : StorageSave} (hown : SavesOwn world save)
    (hcomplete : save.Complete) (hall : ∀ chunk ∈ save.chunks, world.Registered save.source chunk) :
    save.wal.file ∈ world.transferredWith save := by
  obtain ⟨-, -, file, -, hsource, hkey, -, hsize⟩ := hown
  have hwhole : file.sizeBytes ≤ save.offset := hsize ▸ hcomplete
  rw [hsource] at hall
  simp only [transferredWith, hsource]
  rw [if_pos ⟨hwhole, hall⟩, ← hkey]
  exact List.mem_append_right _ (List.mem_singleton_self file.key)

/-- The end of a turn. -/
theorem coherent_finishFile (h : Coherent world) (delete : Option DeleteAnswer)
    (hcareful : Careful world (.finishFile delete)) :
    Coherent (world.finishFile delete) ∧ (Handed world → Handed (world.finishFile delete)) := by
  unfold finishFile
  cases hcursor : world.syncing with
  | none => exact ⟨h, id⟩
  | some cursor =>
    cases hsaving : world.saving with
    | none => exact ⟨h, id⟩
    | some save =>
      have hown := h.saves save hsaving
      obtain ⟨⟨other, rest, hother, hrest⟩, hlisted, file, hfile, -, hkey, -⟩ := hown
      obtain rfl := Option.some.inj (hcursor.symm.trans hother)
      obtain ⟨hnodup, hpending⟩ := h.cursored cursor hcursor
      rw [hrest] at hnodup hpending
      dsimp only
      rw [find?_listed h.indexed hlisted, Option.getD_some, hrest, List.tail_cons]
      have hindexed : Indexed (world.fileSaved save) := ⟨h.indexed.filesNodup, h.indexed.filesBelow,
        h.indexed.walsNodup, h.indexed.walsBelow, h.indexed.indexes, h.indexed.pending,
        h.indexed.offset⟩
      have htruthful : Truthful (world.fileSaved save) := ⟨h.truthful.addressed, h.truthful.own⟩
      split_ifs with hleft hcomplete
      · have hharmless : HarmlessDelete (world.fileSaved save) cursor.all save.wal delete :=
          hcareful cursor hcursor save.wal hlisted (by rw [hrest]; rfl)
        have hlater : ∀ later ∈ rest, later ∈ cursor.all ∧
            ∃ own ∈ (world.fileSaved save).wals, own.file = later ∧ own.status = .miss :=
          fun later hmem => hpending later (List.mem_cons_of_mem save.wal.file hmem)
        obtain ⟨hcoherent, hhands⟩ := coherent_complete hindexed htruthful rfl hlisted
          ⟨file, hfile, hkey⟩ hnodup hlater hharmless
        refine ⟨hcoherent, fun hhanded => hhands hhanded.safe ?_⟩
        refine mem_transferredWith (h.saves save hsaving) hcomplete fun chunk hchunk => ?_
        refine (hhanded.written save hsaving hcomplete chunk hchunk).resolve_left ?_
        rw [hleft]
        exact List.not_mem_nil
      · refine ⟨coherent_idle (indexed_markSynced hindexed save.wal.file)
          ⟨htruthful.addressed, htruthful.own⟩ rfl, fun hhanded => ?_⟩
        exact ⟨hhanded.safe, fun _ hmem => (by cases hmem)⟩
      · exact ⟨h, id⟩

/-! ### Deletes by the user -/

theorem coherent_deleted (h : Coherent world) (hidle : world.syncing = none)
    {targets : List StorageWal} {ids : List (String × ℕ)} {next : StorageWorld}
    (hdeleted : DeletedFrom targets ids world next) (keep : StorageWal → Bool)
    (hkeep : ∀ wal ∈ next.wals, keep wal = true →
      wal.id ∉ ids ∧ ∀ target ∈ targets, wal.file ≠ target.file) :
    Coherent { next with wals := next.wals.filter keep } ∧
      ((∀ target ∈ targets, target.file ∈ world.transferred) → Handed world →
        Handed { next with wals := next.wals.filter keep }) := by
  have hnothing : next.saving = none := hdeleted.saving.trans (saving_none h hidle)
  refine ⟨⟨indexed_afterDeletes h.indexed hdeleted keep hkeep, ?_, fun save hmem => ?_,
    ⟨?_, ?_⟩⟩, fun htargets hhanded => ⟨?_, fun save hmem => ?_⟩⟩
  · intro cursor hcursor
    have hnone : next.syncing = none := hdeleted.syncing.trans hidle
    rw [show next.syncing = some cursor from hcursor] at hnone
    cases hnone
  · rw [show next.saving = some save from hmem] at hnothing
    cases hnothing
  · intro command hmem
    rcases hdeleted.commands command hmem with hold | ⟨haddressed, -⟩
    · exact h.truthful.addressed command hold
    · exact haddressed
  · intro chunk hmem
    change chunk ∈ next.saved at hmem
    rw [hdeleted.saved] at hmem
    exact h.truthful.own chunk hmem
  · intro command hmem
    rcases hdeleted.commands command hmem with hold | ⟨-, hsnapshot, hremoved⟩
    · exact hhanded.safe command hold
    · intro key hkey
      obtain ⟨target, htarget, rfl⟩ := hremoved key hkey
      rw [hsnapshot]
      exact htargets target htarget
  · rw [show next.saving = some save from hmem] at hnothing
    cases hnothing

theorem coherent_deleteWal (sorts : StorageSorts) (h : Coherent world) {wal : StorageWal}
    {connected : Bool} {answer : StorageWal → DeleteAnswer}
    (hcareful : Careful world (.deleteWal wal connected answer)) :
    Coherent (world.deleteWal sorts wal connected answer) ∧
      (wal.file ∈ world.transferred → Handed world →
        Handed (world.deleteWal sorts wal connected answer)) := by
  obtain ⟨hidle, hwal, hdevice⟩ := hcareful
  obtain ⟨ids, hids, hdeleted⟩ := deleteWalsOnDevice_deletedFrom sorts h.indexed [wal]
    (fun target htarget => by
      rw [List.mem_singleton.1 htarget]
      exact ⟨hwal, hdevice⟩) (List.nodup_singleton wal.file) connected answer
  obtain ⟨hcoherent, hsafe⟩ := coherent_deleted h hidle hdeleted
    (fun other => other.id ≠ wal.id) (fun other hmem hkept => by
      have hne : other.id ≠ wal.id := of_decide_eq_true hkept
      refine ⟨fun hid => ?_, fun target htarget hfile => ?_⟩
      · obtain ⟨target, htarget, heq⟩ := hids other.id hid
        rw [List.mem_singleton.1 htarget] at heq
        exact hne heq.symm
      · rw [List.mem_singleton.1 htarget] at hfile
        obtain ⟨old, hold, hfile', -, hid, -⟩ := hdeleted.wals other hmem
        have hsame := eq_of_file_eq h.indexed hold hwal (hfile'.symm.trans hfile)
        rw [hsame] at hid
        exact hne hid)
  refine ⟨hcoherent, fun htransferred => hsafe fun target htarget => ?_⟩
  rw [List.mem_singleton.1 htarget]
  exact htransferred

theorem coherent_deleteAllWals (sorts : StorageSorts) (h : Coherent world) {status : WalStatus}
    (connected : Bool) (answer : StorageWal → DeleteAnswer)
    (hcareful : AllDeletable world status) :
    Coherent (world.deleteAllWals sorts status connected answer) ∧
      ((∀ target ∈ world.wals, target.status = status → target.file ∈ world.transferred) →
        Handed world → Handed (world.deleteAllWals sorts status connected answer)) := by
  obtain ⟨hidle, hdevice, hids⟩ := hcareful
  let targets := world.wals.filter fun wal => wal.status = status
  have htarget : ∀ target ∈ targets, target ∈ world.wals ∧ target.status = status := by
    intro target hmem
    obtain ⟨hwal, hstatus⟩ := List.mem_filter.1 hmem
    exact ⟨hwal, of_decide_eq_true hstatus⟩
  obtain ⟨ids, hfrom, hdeleted⟩ := deleteWalsOnDevice_deletedFrom sorts h.indexed targets
    (fun target hmem =>
      ⟨(htarget target hmem).1, hdevice target (htarget target hmem).1 (htarget target hmem).2⟩)
    (h.indexed.walsNodup.sublist (List.filter_sublist.map StorageWal.file)) connected answer
  obtain ⟨hcoherent, hsafe⟩ := coherent_deleted h hidle hdeleted
    (fun other => other.status ≠ status) (fun other hmem hkept => by
      have hne : other.status ≠ status := of_decide_eq_true hkept
      obtain ⟨old, hold, hfile, hstatus, hid, -⟩ := hdeleted.wals other hmem
      rw [hstatus] at hne
      refine ⟨fun hother => ?_, fun target hmem' heq => ?_⟩
      · obtain ⟨target, hmem', heq⟩ := hfrom other.id hother
        exact hids old hold hne target (htarget target hmem').1 (htarget target hmem').2
          (hid.symm.trans heq.symm)
      · have hsame := eq_of_file_eq h.indexed hold (htarget target hmem').1 (hfile.symm.trans heq)
        rw [hsame] at hne
        exact hne (htarget target hmem').2)
  exact ⟨hcoherent, fun htransferred => hsafe fun target hmem =>
    htransferred target (htarget target hmem).1 (htarget target hmem).2⟩

/-- A careful step keeps the file numbers right, and removes only transferred files if everything
is handed over. -/
theorem coherent_step (sorts : StorageSorts) (h : Coherent world) (action : StorageAction)
    (hcareful : Careful world action) :
    Coherent (world.step sorts action) ∧
      (HandsOver world action → Handed world → Handed (world.step sorts action)) := by
  cases action with
  | recorded timestamp sizeBytes stream =>
    exact ⟨coherent_record h timestamp sizeBytes stream, fun _ hhanded =>
      ⟨hhanded.safe, hhanded.written⟩⟩
  | setLocalSync =>
    exact ⟨coherent_phone h true world.phone, fun _ hhanded => ⟨hhanded.safe, hhanded.written⟩⟩
  | phoneChanged phone =>
    exact ⟨coherent_phone h world.hasLocalSync phone, fun _ hhanded =>
      ⟨hhanded.safe, hhanded.written⟩⟩
  | refreshWalsFromDevice device answer =>
    refine ⟨coherent_refresh sorts h device answer, fun _ hhanded => ?_⟩
    change Handed (world.refreshWalsFromDevice sorts device answer)
    unfold refreshWalsFromDevice
    split_ifs
    · exact hhanded
    · cases answer with
      | failed => exact hhanded
      | empty => exact ⟨hhanded.safe, hhanded.written⟩
      | listed codec => exact ⟨hhanded.safe, hhanded.written⟩
  | syncAll =>
    refine ⟨coherent_syncAll sorts h, fun _ hhanded => ?_⟩
    change Handed (world.syncAll sorts)
    unfold syncAll
    dsimp only
    split_ifs
    · exact hhanded
    · exact ⟨hhanded.safe, fun _ hmem => (by cases hmem)⟩
  | syncNext outcome =>
    obtain ⟨hcoherent, hhands⟩ := coherent_syncNext h outcome
    exact ⟨hcoherent, fun _ => hhands⟩
  | saveChunk answer => exact coherent_saveChunk h answer
  | finishFile delete =>
    obtain ⟨hcoherent, hhands⟩ := coherent_finishFile h delete hcareful
    exact ⟨hcoherent, fun _ => hhands⟩
  | deleteWal wal connected answer => exact coherent_deleteWal sorts h hcareful
  | deleteAllSyncedWals connected answer =>
    exact coherent_deleteAllWals sorts h connected answer hcareful
  | deleteAllPendingWals connected answer =>
    exact coherent_deleteAllWals sorts h connected answer hcareful

/-- The states of a run. -/
def run (sorts : StorageSorts) (world : StorageWorld) (actions : List StorageAction) :
    StorageWorld :=
  actions.foldl (step sorts) world

theorem run_append (sorts : StorageSorts) (world : StorageWorld)
    (first rest : List StorageAction) :
    world.run sorts (first ++ rest) = (world.run sorts first).run sorts rest :=
  List.foldl_append

end StorageWorld

theorem coherent_run (sorts : StorageSorts) {world : StorageWorld} (h : Coherent world)
    (actions : List StorageAction)
    (hcareful : EveryStep (StorageWorld.step sorts) Careful world actions) :
    Coherent (world.run sorts actions) ∧
      (EveryStep (StorageWorld.step sorts) HandsOver world actions → Handed world →
        Handed (world.run sorts actions)) := by
  induction actions generalizing world with
  | nil => exact ⟨h, fun _ => id⟩
  | cons action rest ih =>
    obtain ⟨hstep, hrest⟩ := hcareful
    obtain ⟨hnext, hhands⟩ := StorageWorld.coherent_step sorts h action hstep
    obtain ⟨hrun, hhandsRun⟩ := ih hnext hrest
    exact ⟨hrun, fun hover hold => hhandsRun hover.2 (hhands hover.1 hold)⟩

/-! ### Two files -/

instance : Std.Total fun a b : StorageWal => a.timerStart ≤ b.timerStart :=
  ⟨fun a b => Nat.le_total a.timerStart b.timerStart⟩

instance : IsTrans StorageWal fun a b => a.timerStart ≤ b.timerStart :=
  ⟨fun _ _ _ hab hbc => hab.trans hbc⟩

instance : Std.Total fun a b : StorageWal => b.fileNum ≤ a.fileNum :=
  ⟨fun a b => Int.le_total b.fileNum a.fileNum⟩

instance : IsTrans StorageWal fun a b => b.fileNum ≤ a.fileNum :=
  ⟨fun _ _ _ hab hbc => hbc.trans hab⟩

/-- Stable sorts. -/
def StorageSorts.stable : StorageSorts where
  oldestFirst wals := wals.insertionSort fun a b => a.timerStart ≤ b.timerStart
  oldestFirst_perm wals := List.perm_insertionSort _ wals
  ascending wals := List.pairwise_insertionSort _ wals
  highestFirst wals := wals.insertionSort fun a b => b.fileNum ≤ a.fileNum
  highestFirst_perm wals := List.perm_insertionSort _ wals
  descending wals := List.pairwise_insertionSort _ wals

/-- The recording of a file of 80000 bytes. -/
def blockWal (timerStart fileNum file : ℕ) : StorageWal :=
  { timerStart := timerStart
    codec := .opus
    seconds := 10
    device := "omi"
    status := .miss
    storage := .sdcard
    storageTotalBytes := 80000
    fileNum := fileNum
    totalFrames := 1000
    file := file }

theorem listedWal_block (key timestamp index : ℕ) (stream : List Bytes) :
    StorageWorld.listedWal "omi" .opus ⟨key, timestamp, 80000, stream⟩ index =
      some (blockWal timestamp index key) := by
  simp [StorageWorld.listedWal, blockWal, BleAudioCodec.getFramesPerSecond,
    BleAudioCodec.getFramesLengthInBytes]

theorem receive_block {block : Bytes} {frames : List Bytes} (hlength : block.length = 80000)
    (hunpack : unpack 80000 block = frames) :
    Transfer.receive 80000 { offset := 0 } (0 :: 0 :: 0 :: 0 :: block) =
      { offset := 80000, frames := frames, done := true } := by
  simp [Transfer.receive, Transfer.receiveData, hlength, hunpack]

/-- One frame and padding. -/
def frameBlock (count : ℕ) : Bytes := 1 :: 7 :: List.replicate (count + 1) 0

theorem unpack_frameBlock (count : ℕ) : unpack (count + 3) (frameBlock count) = [[7]] := by
  have hrest := unpack_replicate_zero (count + 2) (count + 1)
  rw [frameBlock, unpack]
  simp [hrest]

theorem length_frameBlock (count : ℕ) : (frameBlock count).length = count + 3 := by
  simp [frameBlock]

/-- The world with two files of 80000 bytes and their recordings. -/
def twoFiles (stream : List Bytes) : StorageWorld where
  files := [⟨0, 5, 80000, stream⟩, ⟨1, 9, 80000, stream⟩]
  nextKey := 2
  wals := [blockWal 5 0 0, blockWal 9 1 1]
  hasLocalSync := true

def discovery (stream : List Bytes) : List StorageAction :=
  [.setLocalSync, .recorded 5 80000 stream, .recorded 9 80000 stream,
    .refreshWalsFromDevice "omi" (.listed .opus)]

theorem run_discovery (stream : List Bytes) :
    StorageWorld.run .stable {} (discovery stream) = twoFiles stream := by
  let recorded : StorageWorld :=
    { files := [⟨0, 5, 80000, stream⟩, ⟨1, 9, 80000, stream⟩], nextKey := 2, hasLocalSync := true }
  let listed := recorded.files.zipIdx.filterMap fun entry =>
    StorageWorld.listedWal "omi" .opus entry.1 entry.2
  have hlisted : listed = [blockWal 5 0 0, blockWal 9 1 1] := by
    simp [listed, recorded, listedWal_block]
  have hrefreshed : StorageWorld.run .stable {} (discovery stream) =
      { recorded with wals := StorageSorts.stable.oldestFirst listed } := rfl
  rw [hrefreshed, hlisted]
  rfl

/-- The whole of a block of 80000 bytes is read. -/
theorem readFile_block (world : StorageWorld) {block : Bytes} {frames : List Bytes}
    (hblock : Transfer.receive 80000 { offset := 0 } (0 :: 0 :: 0 :: 0 :: block) =
      { offset := 80000, frames := frames, done := true })
    (timerStart fileNum file : ℕ) {key timestamp size : ℕ}
    (hat : world.files[fileNum]? = some ⟨key, timestamp, size, [0 :: 0 :: 0 :: 0 :: block]⟩) :
    world.readFile (blockWal timerStart fileNum file) 1 0 =
      { world with
        commands := world.commands ++
          [⟨blockWal timerStart fileNum file, world.files, world.transferred, none⟩]
        saving := some ⟨blockWal timerStart fileNum file,
          some ⟨key, timestamp, size, [0 :: 0 :: 0 :: 0 :: block]⟩, 80000,
          (blockWal timerStart fileNum file).chunks 0 frames,
          (blockWal timerStart fileNum file).chunks 0 frames⟩ } := by
  have hfile : fileAt world.files (blockWal timerStart fileNum file).fileNum =
      some ⟨key, timestamp, size, [0 :: 0 :: 0 :: 0 :: block]⟩ :=
    (fileAt_natCast world.files fileNum).trans hat
  have hbytes : (blockWal timerStart fileNum file).storageTotalBytes = 80000 := rfl
  have hoffset : (blockWal timerStart fileNum file).storageOffset = 0 := rfl
  simp only [StorageWorld.readFile, hfile, hbytes, hoffset, Option.elim_some,
    List.take_succ_cons, List.take_zero, List.foldl_cons, List.foldl_nil, hblock]

/-- What is known of a file that has been read and saved as one chunk. -/
theorem transferredWith_one (world : StorageWorld) (wal : StorageWal) {source : StorageFile}
    {chunk : SavedChunk} (hmem : chunk ∈ world.saved) (htaken : chunk.taken)
    (hsource : chunk.source = some source) (hsize : source.sizeBytes = 80000) :
    world.transferredWith ⟨wal, some source, 80000, [(chunk.timerStart, chunk.frames)], []⟩ =
      world.transferred ++ [source.key] := by
  have hall : ∀ other ∈ [(chunk.timerStart, chunk.frames)], world.Registered source other := by
    intro other hother
    rw [List.mem_singleton.1 hother]
    exact ⟨chunk, hmem, htaken, hsource, rfl⟩
  simp only [StorageWorld.transferredWith]
  rw [if_pos ⟨hsize.le, hall⟩]

section twoFiles
variable (block : Bytes)

/-- A file of one block. -/
def blockFile (key timestamp : ℕ) : StorageFile :=
  ⟨key, timestamp, 80000, [0 :: 0 :: 0 :: 0 :: block]⟩

/-- What is read of it, with its one frame. -/
def blockSave (timerStart fileNum file : ℕ) : StorageSave :=
  ⟨blockWal timerStart fileNum file, some (blockFile block file timerStart), 80000,
    [(timerStart, [[7]])], [(timerStart, [[7]])]⟩

def blockChunk (save : StorageSave) (world : StorageWorld) (timerStart : ℕ) : SavedChunk :=
  ⟨save.wal, save.source, timerStart, [[7]], true, world.registerChunk save (timerStart, [[7]])⟩

/-- The sync of the two files has begun. -/
def prepared : StorageWorld :=
  { twoFiles [0 :: 0 :: 0 :: 0 :: block] with syncing := some ⟨[0, 1], [0, 1]⟩ }

/-- The first file is read. -/
def firstRead : StorageWorld :=
  { prepared block with
    commands := [⟨blockWal 5 0 0, [blockFile block 0 5, blockFile block 1 9], [], none⟩]
    saving := some (blockSave block 5 0 0) }

/-- Its chunk is on the phone. -/
def firstSaved : StorageWorld :=
  { firstRead block with
    phone := { sync := (firstRead block).registerChunk (blockSave block 5 0 0) (5, [[7]]) }
    saved := [blockChunk (blockSave block 5 0 0) (firstRead block) 5]
    saving := some { blockSave block 5 0 0 with left := [] } }

/-- It is deleted, and the second file is at index 0. -/
def firstDone : StorageWorld :=
  { firstSaved block with
    files := [blockFile block 1 9]
    wals := [{ blockWal 5 0 0 with status := .synced }, blockWal 9 0 1]
    syncing := some ⟨[0, 1], [1]⟩
    saving := none
    transferred := [0]
    commands := [⟨blockWal 5 0 0, [blockFile block 0 5, blockFile block 1 9], [], none⟩,
      ⟨blockWal 5 0 0, [blockFile block 0 5, blockFile block 1 9], [0], some 0⟩] }

def secondRead : StorageWorld :=
  { firstDone block with
    commands := (firstDone block).commands ++
      [⟨blockWal 9 0 1, [blockFile block 1 9], [0], none⟩]
    saving := some (blockSave block 9 0 1) }

def secondSaved : StorageWorld :=
  { secondRead block with
    phone := { sync := (secondRead block).registerChunk (blockSave block 9 0 1) (9, [[7]]) }
    saved := [blockChunk (blockSave block 5 0 0) (firstRead block) 5,
      blockChunk (blockSave block 9 0 1) (secondRead block) 9]
    saving := some { blockSave block 9 0 1 with left := [] } }

def secondDone : StorageWorld :=
  { secondSaved block with
    files := []
    wals := [{ blockWal 5 0 0 with status := .synced }, { blockWal 9 0 1 with status := .synced }]
    syncing := some ⟨[0, 1], []⟩
    saving := none
    transferred := [0, 1]
    commands := (secondRead block).commands ++
      [⟨blockWal 9 0 1, [blockFile block 1 9], [0, 1], some 1⟩] }

/-- One file is read, saved and deleted, then the other. -/
def twoTurns : List StorageAction :=
  [.syncAll, .syncNext (.read 1 0), .saveChunk .written, .finishFile (some .deleted),
    .syncNext (.read 1 0), .saveChunk .written, .finishFile (some .deleted)]

variable {block}

theorem firstRead_takes : (firstRead block).Takes (blockWal 5 0 0) 5 :=
  ⟨rfl, .inl (by rintro ⟨wal, hwal, -⟩; cases hwal)⟩

theorem secondRead_takes : (secondRead block).Takes (blockWal 9 0 1) 9 := by
  have hknown : (secondRead block).phone.sync.wals = [(blockWal 5 0 0).chunkWal 5 1] := rfl
  refine ⟨rfl, .inl ?_⟩
  rintro ⟨wal, hwal, hid⟩
  rw [hknown] at hwal
  rw [List.mem_singleton.1 hwal] at hid
  exact absurd (congrArg Prod.snd hid) (by decide : 5 ≠ 9)

theorem firstRead_saveChunk : (firstRead block).saveChunk .written = firstSaved block := by
  change (firstRead block).writeChunk (blockSave block 5 0 0) (5, [[7]]) [] = firstSaved block
  have htakes : decide ((firstRead block).Takes (blockSave block 5 0 0).wal 5) = true :=
    decide_eq_true firstRead_takes
  rw [StorageWorld.writeChunk, htakes]
  rfl

theorem firstSaved_finishFile :
    (firstSaved block).finishFile (some .deleted) = firstDone block := by
  have htransferred := transferredWith_one (firstSaved block) (blockWal 5 0 0)
    (List.mem_singleton_self (blockChunk (blockSave block 5 0 0) (firstRead block) 5)) rfl rfl rfl
  change { ((StorageWorld.markSynced { firstSaved block with
      saving := none
      transferred := (firstSaved block).transferredWith { blockSave block 5 0 0 with left := [] } }
        0).deleteAfterSync [0, 1] (blockWal 5 0 0) (some .deleted)) with
      syncing := some ⟨[0, 1], [1]⟩ } = firstDone block
  have hkey : (firstSaved block).transferredWith { blockSave block 5 0 0 with left := [] } = [0] :=
    htransferred
  rw [hkey]
  rfl

theorem secondRead_saveChunk : (secondRead block).saveChunk .written = secondSaved block := by
  change (secondRead block).writeChunk (blockSave block 9 0 1) (9, [[7]]) [] = secondSaved block
  have htakes : decide ((secondRead block).Takes (blockSave block 9 0 1).wal 9) = true :=
    decide_eq_true secondRead_takes
  rw [StorageWorld.writeChunk, htakes]
  rfl

theorem secondSaved_finishFile :
    (secondSaved block).finishFile (some .deleted) = secondDone block := by
  have htransferred := transferredWith_one (secondSaved block) (blockWal 9 0 1)
    (List.mem_cons_of_mem _
      (List.mem_singleton_self (blockChunk (blockSave block 9 0 1) (secondRead block) 9)))
    rfl rfl rfl
  change { ((StorageWorld.markSynced { secondSaved block with
      saving := none
      transferred := (secondSaved block).transferredWith { blockSave block 9 0 1 with left := [] } }
        1).deleteAfterSync [0, 1] (blockWal 9 0 1) (some .deleted)) with
      syncing := some ⟨[0, 1], []⟩ } = secondDone block
  have hkeys : (secondSaved block).transferredWith { blockSave block 9 0 1 with left := [] } =
      [0, 1] := htransferred
  rw [hkeys]
  rfl

/-- A delete that goes through shifts only recordings of the sync. -/
theorem careful_finishFile {world : StorageWorld} {rest : List ℕ}
    (hfiles : world.wals.map StorageWal.file = [0, 1])
    (hsyncing : world.syncing = some ⟨[0, 1], rest⟩) :
    Careful world (.finishFile (some .deleted)) := by
  intro cursor hcursor wal _ _ other hother hnone
  obtain rfl := Option.some.inj (hsyncing.symm.trans hcursor)
  refine absurd ?_ hnone
  rw [← hfiles]
  exact List.mem_map_of_mem hother

theorem handsOver_saveChunk {world : StorageWorld} {save : StorageSave} {chunk : ℕ × List Bytes}
    (hsaving : world.saving = some save) (hleft : save.left = [chunk])
    (htakes : world.Takes save.wal chunk.1) : HandsOver world (.saveChunk .written) := by
  intro other hother _ next hnext
  obtain rfl := Option.some.inj (hsaving.symm.trans hother)
  rw [hleft] at hnext
  obtain rfl := Option.some.inj hnext
  exact .inl htakes

section turns
variable (hblock : Transfer.receive 80000 { offset := 0 } (0 :: 0 :: 0 :: 0 :: block) =
  { offset := 80000, frames := [[7]], done := true })
include hblock

theorem prepared_read : (prepared block).syncNext (.read 1 0) = firstRead block :=
  readFile_block (prepared block) hblock 5 0 0 rfl

theorem firstDone_read : (firstDone block).syncNext (.read 1 0) = secondRead block :=
  readFile_block (firstDone block) hblock 9 0 1 rfl

theorem run_twoTurns :
    (twoFiles [0 :: 0 :: 0 :: 0 :: block]).run .stable twoTurns = secondDone block := by
  change (((((((prepared block).syncNext (.read 1 0)).saveChunk .written).finishFile
    (some .deleted)).syncNext (.read 1 0)).saveChunk .written).finishFile (some .deleted)) =
      secondDone block
  rw [prepared_read hblock, firstRead_saveChunk, firstSaved_finishFile, firstDone_read hblock,
    secondRead_saveChunk, secondSaved_finishFile]

theorem careful_twoTurns : EveryStep (StorageWorld.step .stable) Careful
    (twoFiles [0 :: 0 :: 0 :: 0 :: block]) twoTurns := by
  suffices hturns : EveryStep (StorageWorld.step .stable) Careful (prepared block) twoTurns.tail from
    .cons rfl rfl hturns
  refine .cons trivial (prepared_read hblock) (.cons trivial firstRead_saveChunk ?_)
  refine .cons (careful_finishFile rfl rfl) firstSaved_finishFile ?_
  refine .cons trivial (firstDone_read hblock) (.cons trivial secondRead_saveChunk ?_)
  exact .cons (careful_finishFile rfl rfl) secondSaved_finishFile trivial

theorem handsOver_twoTurns : EveryStep (StorageWorld.step .stable) HandsOver
    (twoFiles [0 :: 0 :: 0 :: 0 :: block]) twoTurns := by
  have hfirst : HandsOver (firstRead block) (.saveChunk .written) :=
    handsOver_saveChunk rfl rfl firstRead_takes
  have hsecond : HandsOver (secondRead block) (.saveChunk .written) :=
    handsOver_saveChunk rfl rfl secondRead_takes
  suffices hturns : EveryStep (StorageWorld.step .stable) HandsOver (prepared block)
      twoTurns.tail from .cons trivial rfl hturns
  refine .cons trivial (prepared_read hblock) (.cons hfirst firstRead_saveChunk ?_)
  refine .cons trivial firstSaved_finishFile ?_
  refine .cons trivial (firstDone_read hblock) (.cons hsecond secondRead_saveChunk ?_)
  exact .cons trivial secondSaved_finishFile trivial

end turns
end twoFiles

/-! ### The results -/

/-- Every careful run sends each read and delete to its recording's own file and writes audio
under its own start time; a delete removes only what has been transferred and registered,
if everything is handed over. -/
theorem fileNumsCoherent (sorts : StorageSorts) (actions : List StorageAction)
    (hcareful : EveryStep (StorageWorld.step sorts) Careful {} actions) :
    (∀ command ∈ (StorageWorld.run sorts {} actions).commands, command.Addressed) ∧
      (∀ chunk ∈ (StorageWorld.run sorts {} actions).saved, chunk.Own ∧ chunk.Pending) ∧
      (EveryStep (StorageWorld.step sorts) HandsOver {} actions →
        ∀ command ∈ (StorageWorld.run sorts {} actions).commands, command.Safe) := by
  obtain ⟨hcoherent, hhands⟩ := coherent_run sorts StorageWorld.coherent_start actions hcareful
  refine ⟨hcoherent.truthful.addressed, hcoherent.truthful.own, fun hover => ?_⟩
  exact (hhands hover StorageWorld.handed_start).safe

/-- Two files, each with a frame: one is read, saved and deleted, then the other. -/
theorem fileNumsCoherent_twoFiles :
    ∃ actions : List StorageAction,
      (StorageWorld.run .stable {} actions).commands.map StorageCommand.removed =
        [none, some 0, none, some 1] ∧
      (∀ command ∈ (StorageWorld.run .stable {} actions).commands, command.Addressed) ∧
      (StorageWorld.run .stable {} actions).saved.map SavedChunk.timerStart = [5, 9] ∧
      (∀ chunk ∈ (StorageWorld.run .stable {} actions).saved, chunk.Own ∧ chunk.Pending) ∧
      ∀ command ∈ (StorageWorld.run .stable {} actions).commands, command.Safe := by
  obtain ⟨block, hblock⟩ : ∃ block : Bytes,
      Transfer.receive 80000 { offset := 0 } (0 :: 0 :: 0 :: 0 :: block) =
        { offset := 80000, frames := [[7]], done := true } :=
    ⟨frameBlock 79997, receive_block (length_frameBlock 79997) (unpack_frameBlock 79997)⟩
  let actions := discovery [0 :: 0 :: 0 :: 0 :: block] ++ twoTurns
  have hrun : StorageWorld.run .stable {} actions = secondDone block := by
    rw [StorageWorld.run_append, run_discovery]
    exact run_twoTurns hblock
  have hcareful : EveryStep (StorageWorld.step .stable) Careful {} actions := by
    refine EveryStep.append ⟨trivial, trivial, trivial, trivial, trivial⟩ ?_
    rw [← StorageWorld.run, run_discovery]
    exact careful_twoTurns hblock
  have hover : EveryStep (StorageWorld.step .stable) HandsOver {} actions := by
    refine EveryStep.append ⟨trivial, trivial, trivial, trivial, trivial⟩ ?_
    rw [← StorageWorld.run, run_discovery]
    exact handsOver_twoTurns hblock
  obtain ⟨haddressed, hown, hsafe⟩ := fileNumsCoherent .stable actions hcareful
  exact ⟨actions, by rw [hrun]; rfl, haddressed, by rw [hrun]; rfl, hown, hsafe hover⟩

/-- After a refused delete the next recording is read from the file that was not deleted. -/
theorem not_fileNumsCoherent :
    ¬∀ (sorts : StorageSorts) (actions : List StorageAction),
      ∀ command ∈ (StorageWorld.run sorts {} actions).commands, command.Addressed := by
  intro h
  obtain ⟨block, hblock⟩ : ∃ block : Bytes,
      Transfer.receive 80000 { offset := 0 } (0 :: 0 :: 0 :: 0 :: block) =
        { offset := 80000, frames := [], done := true } :=
    ⟨List.replicate 80000 0,
      receive_block List.length_replicate (unpack_replicate_zero 80000 80000)⟩
  let stream : List Bytes := [0 :: 0 :: 0 :: 0 :: block]
  let first : StorageFile := ⟨0, 5, 80000, stream⟩
  let second : StorageFile := ⟨1, 9, 80000, stream⟩
  let prepared : StorageWorld := { twoFiles stream with syncing := some ⟨[0, 1], [0, 1]⟩ }
  let readCommand : StorageCommand := ⟨blockWal 5 0 0, [first, second], [], none⟩
  have hread : prepared.syncNext (.read 1 0) =
      { prepared with
        commands := [readCommand]
        saving := some ⟨blockWal 5 0 0, some first, 80000, [], []⟩ } :=
    readFile_block prepared hblock 5 0 0 rfl
  -- The refused delete leaves both files, yet the second recording moves down.
  let shifted : StorageWorld :=
    { prepared with
      wals := [{ blockWal 5 0 0 with status := .synced }, blockWal 9 0 1]
      syncing := some ⟨[0, 1], [1]⟩
      transferred := [0]
      commands := [readCommand, { readCommand with transferred := [0] }] }
  have hrefused : (prepared.syncNext (.read 1 0)).finishFile (some .refused) = shifted := by
    rw [hread]
    rfl
  let command : StorageCommand := ⟨blockWal 9 0 1, [first, second], [0], none⟩
  have hrun : command ∈ (StorageWorld.run .stable {} (discovery stream ++ [.syncAll,
      .syncNext (.read 1 0), .finishFile (some .refused), .syncNext (.read 0 0)])).commands := by
    have hsplit : StorageWorld.run .stable {} (discovery stream ++ [.syncAll,
        .syncNext (.read 1 0), .finishFile (some .refused), .syncNext (.read 0 0)]) =
        ((prepared.syncNext (.read 1 0)).finishFile (some .refused)).syncNext (.read 0 0) := by
      rw [StorageWorld.run_append, run_discovery]
      rfl
    rw [hsplit, hrefused]
    exact List.mem_cons_of_mem _ (List.mem_cons_of_mem _ List.mem_cons_self)
  obtain ⟨file, hat, hkey⟩ := h .stable _ command hrun
  obtain rfl : first = file := Option.some.inj hat
  cases hkey

end Omi.Wals
