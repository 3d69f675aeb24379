import Mathlib.Tactic.SplitIfs
import Omi.Pendant.Varint

/-! The file that drained audio goes into (`LimitlessBatchAudioWriter` over
`BaseBatchAudioWriter`, the same on both platforms): when it is opened, closed and synced, and
which pages an fsync covers. File names and the low-storage flag are left out. -/
namespace Omi.Pendant



/-- The state of the writer. Each page appended has a ticket: it is unsynced until a successful
fsync makes it durable, failed where the fsync of a close or of the barrier fails, doubtful
where a periodic one does. -/
structure BatchWriter where
  isOpen : Bool := false
  currentBytes : ℕ := 0
  currentFrames : ℕ := 0
  lastFsyncMs : ℤ := 0
  lastPageTimestampMs : ℤ := 0
  closeSyncFailed : Bool := false
  unsynced : List ℕ := []
  durable : List ℕ := []
  failed : List ℕ := []
  doubtful : List ℕ := []
  deriving DecidableEq, Repr

/-- How the write of a page's frames ends: all are written, or it fails after some and the file
is closed, with or without a successful fsync. -/
inductive WriteAnswer where
  | written
  | failed (frames : ℕ) (synced : Bool)
  deriving DecidableEq, Repr

/-- What happens during one `append`: a `stop` from another thread before it, the clock, the
fsync of a close, the size of the file that is opened (`none` where it cannot be), the write and
the periodic fsync. -/
structure AppendAnswer where
  stopped : Option Bool := none
  now : ℤ := 0
  closeSynced : Bool := true
  opened : Option ℕ := some 0
  write : WriteAnswer := .written
  periodicSynced : Bool := true
  deriving DecidableEq, Repr

/-- What happens at an fsync barrier: a `stop` from another thread before it, and the fsync. -/
structure SyncAnswer where
  stopped : Option Bool := none
  synced : Bool := true
  deriving DecidableEq, Repr

namespace BatchWriter

def fsyncIntervalMs : ℤ := 2000

def sessionGapMs : ℤ := 120000

def maxAudioSeconds : ℕ := 900

def framesPerSecond : ℕ := 50

def minValidTsMs : ℤ := 1577836800000

/-- A successful fsync of the open file. -/
def cover (writer : BatchWriter) : BatchWriter :=
  { writer with unsynced := [], durable := writer.durable ++ writer.unsynced }

/-- Without a successful fsync the barrier is held, and the file is not published. -/
def closeCurrentLocked (writer : BatchWriter) (synced : Bool) : BatchWriter :=
  if writer.isOpen then
    { writer with
      isOpen := false
      currentBytes := 0
      currentFrames := 0
      lastPageTimestampMs := 0
      closeSyncFailed := writer.closeSyncFailed || (0 < writer.currentBytes && !synced)
      unsynced := []
      durable := if synced then writer.durable ++ writer.unsynced else writer.durable
      failed := if synced then writer.failed else writer.failed ++ writer.unsynced }
  else { writer with lastPageTimestampMs := 0 }

/-- `stop`, where another thread calls it. -/
def stop (writer : BatchWriter) : Option Bool → BatchWriter
  | none => writer
  | some synced => writer.closeCurrentLocked synced

/-- A file that is there already is appended to. -/
def openLocked (writer : BatchWriter) (now : ℤ) (existing : ℕ) : BatchWriter :=
  { writer with
    isOpen := true, currentBytes := existing, currentFrames := 0, lastFsyncMs := now }

/-- Each frame behind its length in four bytes. -/
def frameBytes (frames : List Bytes) : ℕ := (frames.map fun frame => 4 + frame.length).sum

def writeFramesLocked (writer : BatchWriter) (ticket : ℕ) (frames : List Bytes) :
    WriteAnswer → BatchWriter × Bool
  | .written =>
    ({ writer with
        currentBytes := writer.currentBytes + frameBytes frames
        currentFrames := writer.currentFrames + frames.length
        unsynced := writer.unsynced ++ [ticket] }, true)
  | .failed count synced =>
    (closeCurrentLocked
      { writer with
        currentBytes := writer.currentBytes + frameBytes (frames.take count)
        currentFrames := writer.currentFrames + (frames.take count).length } synced, false)

/-- A periodic fsync that fails is only logged. -/
def maybeFsyncLocked (writer : BatchWriter) (now : ℤ) (synced : Bool) : BatchWriter :=
  if fsyncIntervalMs ≤ now - writer.lastFsyncMs then
    { if synced then writer.cover
      else { writer with doubtful := writer.doubtful ++ writer.unsynced } with
      lastFsyncMs := now }
  else writer

/-- The timestamp of a page: the pendant's own, else the last one, else the phone's clock. -/
def pageTime (writer : BatchWriter) (pageTimestampMs now : ℤ) : ℤ :=
  if minValidTsMs < pageTimestampMs then pageTimestampMs
  else if 0 < writer.lastPageTimestampMs then writer.lastPageTimestampMs
  else now

/-- A session gap or fifteen minutes of audio close the file. -/
def rotate (writer : BatchWriter) (ts : ℤ) (synced : Bool) : BatchWriter :=
  let gapped :=
    if writer.isOpen && 0 < writer.lastPageTimestampMs &&
        sessionGapMs < ((ts - writer.lastPageTimestampMs).natAbs : ℤ) then
      writer.closeCurrentLocked synced
    else writer
  if gapped.isOpen && maxAudioSeconds * framesPerSecond ≤ gapped.currentFrames then
    gapped.closeCurrentLocked synced
  else gapped

/-- What `append` does once a file is open. -/
def appendOpen (writer : BatchWriter) (ticket : ℕ) (frames : List Bytes) (ts : ℤ)
    (answer : AppendAnswer) : BatchWriter × Bool :=
  match writer.writeFramesLocked ticket frames answer.write with
  | (failed, false) => (failed, false)
  | (written, true) =>
    ({ written with lastPageTimestampMs := ts }.maybeFsyncLocked answer.now
      answer.periodicSynced, true)

/-- `append` of a page with frames. -/
def append (writer : BatchWriter) (ticket : ℕ) (frames : List Bytes) (pageTimestampMs : ℤ)
    (answer : AppendAnswer) : BatchWriter × Bool :=
  let stopped := writer.stop answer.stopped
  let ts := stopped.pageTime pageTimestampMs answer.now
  let rotated := stopped.rotate ts answer.closeSynced
  if rotated.isOpen then rotated.appendOpen ticket frames ts answer
  else
    match answer.opened with
    | none => (rotated, false)
    | some existing => (rotated.openLocked answer.now existing).appendOpen ticket frames ts answer

/-- `sync`, the fsync barrier. A close that failed to sync fails it once. -/
def sync (writer : BatchWriter) (answer : SyncAnswer) : BatchWriter × Bool :=
  let stopped := writer.stop answer.stopped
  if stopped.closeSyncFailed then ({ stopped with closeSyncFailed := false }, false)
  else if !stopped.isOpen then (stopped, true)
  else if answer.synced then (stopped.cover, true)
  else ({ stopped with failed := stopped.failed ++ stopped.unsynced }, false)

/-! ### What an fsync covers -/

variable {writer : BatchWriter} {tickets : ℕ → Prop}

/-- The tickets given out so far lie below `next`; unsynced pages are in the open file. -/
structure Sound (next : ℕ) (writer : BatchWriter) : Prop where
  opened : writer.unsynced ≠ [] → writer.isOpen ∧ 0 < writer.currentBytes
  unsynced : ∀ ticket ∈ writer.unsynced, ticket < next
  failed : ∀ ticket ∈ writer.failed, ticket < next

/-- The pages are durable or will be with the next fsync, unless that is known to fail. -/
def Covers (writer : BatchWriter) (tickets : ℕ → Prop) : Prop :=
  writer.closeSyncFailed ∨
    ∀ ticket, tickets ticket →
      (ticket ∈ writer.unsynced ∨ ticket ∈ writer.durable) ∧ ticket ∉ writer.failed

variable {next : ℕ}

theorem Sound.mono (h : Sound next writer) {later : ℕ} (hle : next ≤ later) :
    Sound later writer where
  opened := h.opened
  unsynced ticket hmem := (h.unsynced ticket hmem).trans_le hle
  failed ticket hmem := (h.failed ticket hmem).trans_le hle

theorem sound_cover (h : Sound next writer) : Sound next writer.cover where
  opened hne := absurd rfl hne
  unsynced _ hmem := absurd hmem List.not_mem_nil
  failed := h.failed

theorem covers_cover (h : writer.Covers tickets) : writer.cover.Covers tickets := by
  rcases h with hheld | hcovered
  · exact .inl hheld
  · refine .inr fun ticket hticket => ⟨.inr ?_, (hcovered ticket hticket).2⟩
    rcases (hcovered ticket hticket).1 with hunsynced | hdurable
    · exact List.mem_append_right _ hunsynced
    · exact List.mem_append_left _ hdurable

theorem sound_close (h : Sound next writer) (synced : Bool) :
    Sound next (writer.closeCurrentLocked synced) := by
  unfold closeCurrentLocked
  by_cases hopen : writer.isOpen
  · rw [if_pos hopen]
    constructor
    case opened => exact fun hne => absurd rfl hne
    case unsynced => exact fun _ hmem => absurd hmem List.not_mem_nil
    case failed =>
      intro ticket hmem
      cases synced with
      | true => exact h.failed ticket hmem
      | false =>
        rcases List.mem_append.1 hmem with hold | hnew
        · exact h.failed ticket hold
        · exact h.unsynced ticket hnew
  · rw [if_neg hopen]
    exact ⟨h.opened, h.unsynced, h.failed⟩

theorem covers_close (h : Sound next writer) (hcovers : writer.Covers tickets) (synced : Bool) :
    (writer.closeCurrentLocked synced).Covers tickets := by
  unfold closeCurrentLocked
  by_cases hopen : writer.isOpen
  · rw [if_pos hopen]
    rcases hcovers with hheld | hcovered
    · exact .inl (by simp [hheld])
    · cases synced with
      | true => exact (covers_cover (.inr hcovered)).imp_left fun hheld => Bool.or_eq_true_iff.2 (.inl hheld)
      | false =>
        by_cases hunsynced : writer.unsynced = []
        · refine .inr fun ticket hticket => ?_
          obtain ⟨hkept, hfailed⟩ := hcovered ticket hticket
          rw [hunsynced] at hkept
          exact ⟨hkept, by simpa [hunsynced] using hfailed⟩
        · exact .inl (by simp [(h.opened hunsynced).2])
  · rw [if_neg hopen]
    exact hcovers

theorem sound_stop (h : Sound next writer) (stopped : Option Bool) :
    Sound next (writer.stop stopped) := by
  cases stopped with
  | none => exact h
  | some synced => exact sound_close h synced

theorem covers_stop (h : Sound next writer) (hcovers : writer.Covers tickets)
    (stopped : Option Bool) : (writer.stop stopped).Covers tickets := by
  cases stopped with
  | none => exact hcovers
  | some synced => exact covers_close h hcovers synced

theorem rotate_spec (h : Sound next writer) (hcovers : writer.Covers tickets) (ts : ℤ)
    (synced : Bool) :
    Sound next (writer.rotate ts synced) ∧ (writer.rotate ts synced).Covers tickets := by
  unfold rotate
  dsimp only
  split_ifs
  · exact ⟨sound_close (sound_close h synced) synced,
      covers_close (sound_close h synced) (covers_close h hcovers synced) synced⟩
  · exact ⟨sound_close h synced, covers_close h hcovers synced⟩
  · exact ⟨sound_close h synced, covers_close h hcovers synced⟩
  · exact ⟨h, hcovers⟩

theorem maybeFsync_spec (h : Sound next writer) (hcovers : writer.Covers tickets) (now : ℤ)
    (synced : Bool) :
    Sound next (writer.maybeFsyncLocked now synced) ∧
      (writer.maybeFsyncLocked now synced).Covers tickets := by
  unfold maybeFsyncLocked
  split_ifs
  · have hcover := sound_cover h
    exact ⟨⟨hcover.opened, hcover.unsynced, hcover.failed⟩, covers_cover hcovers⟩
  · exact ⟨⟨h.opened, h.unsynced, h.failed⟩, hcovers⟩
  · exact ⟨h, hcovers⟩

theorem frameBytes_pos {frames : List Bytes} (h : frames ≠ []) : 0 < frameBytes frames := by
  cases frames with
  | nil => exact absurd rfl h
  | cons frame rest =>
    simp only [frameBytes, List.map_cons, List.sum_cons]
    omega

/-- What an append promises: the pages covered before stay so, and so does the new one if the
append succeeds. -/
structure Appended (next : ℕ) (tickets : ℕ → Prop) (result : BatchWriter × Bool) : Prop where
  sound : Sound (next + 1) result.1
  covers : result.1.Covers tickets
  appended : result.2 → result.1.Covers fun ticket => tickets ticket ∨ ticket = next

theorem appendOpen_spec (h : Sound next writer) (hopen : writer.isOpen)
    (hcovers : writer.Covers tickets) {frames : List Bytes} (hframes : frames ≠ []) (ts : ℤ)
    (answer : AppendAnswer) : Appended next tickets (writer.appendOpen next frames ts answer) := by
  unfold appendOpen
  cases answer.write with
  | failed count synced =>
    have hpartial : Sound next
        { writer with
          currentBytes := writer.currentBytes + frameBytes (frames.take count)
          currentFrames := writer.currentFrames + (frames.take count).length } := by
      constructor
      case opened =>
        intro hne
        obtain ⟨hopened, hpos⟩ := h.opened hne
        exact ⟨hopened, Nat.add_pos_left hpos _⟩
      case unsynced => exact h.unsynced
      case failed => exact h.failed
    exact ⟨(sound_close hpartial synced).mono (Nat.le_succ next),
      covers_close hpartial hcovers synced, fun hok => by cases hok⟩
  | written =>
    have hwritten : Sound (next + 1)
        { writer with
          currentBytes := writer.currentBytes + frameBytes frames
          currentFrames := writer.currentFrames + frames.length
          unsynced := writer.unsynced ++ [next]
          lastPageTimestampMs := ts } := by
      constructor
      case opened =>
        intro _
        exact ⟨hopen, Nat.add_pos_right _ (frameBytes_pos hframes)⟩
      case unsynced =>
        intro ticket hmem
        rcases List.mem_append.1 hmem with hold | hnew
        · exact (h.unsynced ticket hold).trans (Nat.lt_succ_self next)
        · exact Nat.lt_succ_of_le (List.mem_singleton.1 hnew).le
      case failed => exact fun ticket hmem => (h.failed ticket hmem).trans (Nat.lt_succ_self next)
    have hboth : BatchWriter.Covers
        { writer with
          currentBytes := writer.currentBytes + frameBytes frames
          currentFrames := writer.currentFrames + frames.length
          unsynced := writer.unsynced ++ [next]
          lastPageTimestampMs := ts } (fun ticket => tickets ticket ∨ ticket = next) := by
      rcases hcovers with hheld | hcovered
      · exact .inl hheld
      · refine .inr fun ticket hticket => ?_
        rcases hticket with hold | rfl
        · obtain ⟨hunsynced | hdurable, hfailed⟩ := hcovered ticket hold
          · exact ⟨.inl (List.mem_append_left _ hunsynced), hfailed⟩
          · exact ⟨.inr hdurable, hfailed⟩
        · refine ⟨.inl (by simp), fun hfailed => ?_⟩
          exact absurd (h.failed ticket hfailed) (Nat.lt_irrefl ticket)
    have hfsync := maybeFsync_spec hwritten hboth answer.now answer.periodicSynced
    refine ⟨hfsync.1, ?_, fun _ => hfsync.2⟩
    exact hfsync.2.imp_right fun hall ticket hticket => hall ticket (.inl hticket)

theorem append_spec (h : Sound next writer) (hcovers : writer.Covers tickets)
    {frames : List Bytes} (hframes : frames ≠ []) (pageTimestampMs : ℤ) (answer : AppendAnswer) :
    Appended next tickets (writer.append next frames pageTimestampMs answer) := by
  unfold append
  dsimp only
  obtain ⟨hrotated, hkept⟩ := rotate_spec (sound_stop h answer.stopped)
    (covers_stop h hcovers answer.stopped)
    ((writer.stop answer.stopped).pageTime pageTimestampMs answer.now) answer.closeSynced
  split_ifs with hopen
  · exact appendOpen_spec hrotated hopen hkept hframes _ answer
  · cases answer.opened with
    | none => exact ⟨hrotated.mono (Nat.le_succ next), hkept, fun hok => by cases hok⟩
    | some existing =>
      have hclosed (hne : (rotate (writer.stop answer.stopped)
          ((writer.stop answer.stopped).pageTime pageTimestampMs answer.now)
          answer.closeSynced).unsynced ≠ []) : False :=
        hopen (hrotated.opened hne).1
      let opened := openLocked (rotate (writer.stop answer.stopped)
        ((writer.stop answer.stopped).pageTime pageTimestampMs answer.now)
        answer.closeSynced) answer.now existing
      have hopened : Sound next opened :=
        ⟨fun hne => (hclosed hne).elim, hrotated.unsynced, hrotated.failed⟩
      exact appendOpen_spec hopened rfl hkept hframes _ answer

/-- A successful barrier makes every page durable that it covers; a failed one keeps the books
in order. -/
theorem sync_spec (h : Sound next writer) (hcovers : writer.Covers tickets) (answer : SyncAnswer) :
    Sound next (writer.sync answer).1 ∧
      ((writer.sync answer).2 → (writer.sync answer).1.Covers tickets ∧
        ∀ ticket, tickets ticket → ticket ∈ (writer.sync answer).1.durable ∧
          ticket ∉ (writer.sync answer).1.failed) := by
  have hsound := sound_stop h answer.stopped
  have hstopped := covers_stop h hcovers answer.stopped
  unfold sync
  dsimp only
  split_ifs with hheld hclosed hsynced
  · exact ⟨⟨hsound.opened, hsound.unsynced, hsound.failed⟩, fun hok => by cases hok⟩
  · refine ⟨hsound, fun _ => ⟨hstopped, fun ticket hticket => ?_⟩⟩
    rcases hstopped with hbad | hcovered
    · exact absurd hbad hheld
    · obtain ⟨hunsynced | hdurable, hfailed⟩ := hcovered ticket hticket
      · have hopen := (hsound.opened (List.ne_nil_of_mem hunsynced)).1
        rw [hopen] at hclosed
        cases hclosed
      · exact ⟨hdurable, hfailed⟩
  · refine ⟨sound_cover hsound, fun _ => ⟨covers_cover hstopped, fun ticket hticket => ?_⟩⟩
    rcases hstopped with hbad | hcovered
    · exact absurd hbad hheld
    · obtain ⟨hunsynced | hdurable, hfailed⟩ := hcovered ticket hticket
      · exact ⟨List.mem_append_right _ hunsynced, hfailed⟩
      · exact ⟨List.mem_append_left _ hdurable, hfailed⟩
  · refine ⟨⟨hsound.opened, hsound.unsynced, ?_⟩, fun hok => by cases hok⟩
    intro ticket hmem
    rcases List.mem_append.1 hmem with hold | hnew
    · exact hsound.failed ticket hold
    · exact hsound.unsynced ticket hnew

/-! ### Periodic fsyncs -/

theorem doubtful_close (writer : BatchWriter) (synced : Bool) :
    (writer.closeCurrentLocked synced).doubtful = writer.doubtful := by
  unfold closeCurrentLocked
  split_ifs <;> rfl

theorem doubtful_stop (writer : BatchWriter) (stopped : Option Bool) :
    (writer.stop stopped).doubtful = writer.doubtful := by
  cases stopped with
  | none => rfl
  | some synced => exact doubtful_close writer synced

theorem doubtful_rotate (writer : BatchWriter) (ts : ℤ) (synced : Bool) :
    (writer.rotate ts synced).doubtful = writer.doubtful := by
  unfold rotate
  dsimp only
  split_ifs <;> simp only [doubtful_close]

theorem doubtful_maybeFsync (writer : BatchWriter) (now : ℤ) :
    (writer.maybeFsyncLocked now true).doubtful = writer.doubtful := by
  unfold maybeFsyncLocked
  by_cases hdue : fsyncIntervalMs ≤ now - writer.lastFsyncMs
  · rw [if_pos hdue, if_pos rfl]
    rfl
  · rw [if_neg hdue]

theorem doubtful_appendOpen (writer : BatchWriter) (ticket : ℕ) (frames : List Bytes) (ts : ℤ)
    {answer : AppendAnswer} (h : answer.periodicSynced) :
    (writer.appendOpen ticket frames ts answer).1.doubtful = writer.doubtful := by
  unfold appendOpen
  cases answer.write with
  | written =>
    rw [h]
    exact doubtful_maybeFsync _ answer.now
  | failed count synced => exact doubtful_close _ synced

theorem doubtful_append (writer : BatchWriter) (ticket : ℕ) (frames : List Bytes)
    (pageTimestampMs : ℤ) {answer : AppendAnswer} (h : answer.periodicSynced) :
    (writer.append ticket frames pageTimestampMs answer).1.doubtful = writer.doubtful := by
  have hrotate (ts : ℤ) : ((writer.stop answer.stopped).rotate ts answer.closeSynced).doubtful =
      writer.doubtful := by
    rw [doubtful_rotate, doubtful_stop]
  unfold append
  dsimp only
  split_ifs
  · rw [doubtful_appendOpen _ _ _ _ h, hrotate]
  · cases answer.opened with
    | none => exact hrotate _
    | some existing =>
      rw [doubtful_appendOpen _ _ _ _ h]
      exact hrotate _

theorem doubtful_sync (writer : BatchWriter) (answer : SyncAnswer) :
    (writer.sync answer).1.doubtful = writer.doubtful := by
  unfold sync
  dsimp only
  split_ifs <;> exact doubtful_stop writer answer.stopped

end BatchWriter
end Omi.Pendant
