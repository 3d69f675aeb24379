import Omi.Wals.SessionCapture

/-! Where the frames of a session end up: in files that keep them all, unless a cut begins when an
earlier one did. -/
namespace Omi.Wals
open Omi.Foundation

/-! ### What is claimed of a session -/

/-- The payloads that a run captures, in its order. -/
def captures (actions : List SessionAction) : List Bytes :=
  actions.filterMap fun action =>
    match action with
    | .onFrameCaptured frame => some frame.payload
    | _ => none

/-- The recording holds the frames captured at some places, in their order. -/
def HoldsPlaces (captured : List Bytes) (wal : SessionWal) (places : List ℕ) : Prop :=
  places.Pairwise (· < ·) ∧ places.map (captured[·]?) = wal.data.map some

/-- Every captured frame is in one place of one recording, every recording is in a file of its own,
and there are no other files. -/
structure FramesKept (captured : List Bytes) (s : SessionSync) : Prop where
  once : ∃ places, List.Forall₂ (HoldsPlaces captured) s.wals places ∧
    places.flatten.Perm (List.range captured.length)
  onDisk : ∀ wal ∈ s.wals, wal.storage = .disk ∧
    s.files.get wal.getFileName = some (flushData wal.data)
  files : ∀ name data, s.files.get name = some data → ∃ wal ∈ s.wals, wal.getFileName = name
  names : (s.wals.map SessionWal.getFileName).Nodup
  counts : ∀ wal ∈ s.wals, wal.totalFrames = wal.data.length

/-- The readings of the clock in a run. -/
def clocks (actions : List SessionAction) : List ℕ :=
  actions.filterMap fun action =>
    match action with
    | .chunk now | .finalizeCurrentSession now => some now
    | _ => none

/-- No file loses what was in it. -/
def FilesGrow (before after : SessionSync) : Prop :=
  ∀ name data, before.files.get name = some data →
    ∃ more, after.files.get name = some (data ++ more)

/-- No step of the session loses a file's frames, and at its end all frames are kept. -/
structure SessionKept (settings : SessionSettings) (actions : List SessionAction) : Prop where
  grow : EveryStep (SessionSync.step settings)
    (fun s action => FilesGrow s (s.step settings action)) {} actions
  kept : FramesKept (captures actions) (actions.foldl (SessionSync.step settings) {})

/-- A cut does not begin when a recording of the session began. -/
def StartsFresh (settings : SessionSettings) (s : SessionSync) : SessionAction → Prop
  | .chunk now => s.pivot settings = 0 ∨
    ∀ wal ∈ s.wals, wal.timerStart ≠ s.chunkStart settings now
  | .finalizeCurrentSession now => s.frames = [] ∨
    ∀ wal ∈ s.wals, wal.timerStart ≠ s.finalStart settings now
  | _ => True

instance (settings : SessionSettings) (s : SessionSync) :
    ∀ action, Decidable (StartsFresh settings s action)
  | .chunk _ | .finalizeCurrentSession _ => inferInstanceAs (Decidable (_ ∨ _))
  | .onFrameCaptured _ | .markFrameSynced _ | .flush => isTrue trivial

namespace SessionSync
variable {settings : SessionSettings} {s : SessionSync} {wal cut : SessionWal}
  {wals : List SessionWal} {files : Table Bytes} {captured : List Bytes}

/-! ### Names and files -/

theorem getFileName_inj {wal other : SessionWal} (hdevice : wal.device = other.device)
    (hcodec : wal.codec = other.codec) (h : wal.getFileName = other.getFileName) :
    wal.timerStart = other.timerStart := by
  unfold SessionWal.getFileName at h
  rw [hdevice, hcodec] at h
  have htext := (String.append_right_inj _).1 h
  exact Int.repr_injective ((String.append_left_inj _).1 htext)

@[simp] theorem flushed_getFileName : (flushed wal).getFileName = wal.getFileName := by
  unfold flushed
  split_ifs <;> rfl

@[simp] theorem flushed_data : (flushed wal).data = wal.data := by
  unfold flushed
  split_ifs <;> rfl

@[simp] theorem flushed_totalFrames : (flushed wal).totalFrames = wal.totalFrames := by
  unfold flushed
  split_ifs <;> rfl

@[simp] theorem flushed_timerStart : (flushed wal).timerStart = wal.timerStart := by
  unfold flushed
  split_ifs <;> rfl

@[simp] theorem flushed_device : (flushed wal).device = wal.device := by
  unfold flushed
  split_ifs <;> rfl

@[simp] theorem flushed_codec : (flushed wal).codec = wal.codec := by
  unfold flushed
  split_ifs <;> rfl

theorem writeWals_cons : writeWals files (wal :: wals) =
    writeWals (if wal.storage = .mem then files.set wal.getFileName (flushData wal.data)
      else files) wals := rfl

/-- A name that no recording in memory has is left alone. -/
theorem writeWals_other {name : String}
    (h : ∀ wal ∈ wals, wal.storage = .mem → wal.getFileName ≠ name) :
    (writeWals files wals).get name = files.get name := by
  induction wals generalizing files with
  | nil => rfl
  | cons wal wals ih =>
    rw [List.forall_mem_cons] at h
    rw [writeWals_cons, ih h.2]
    split_ifs with hmem
    · rw [Table.get_set, if_neg (Ne.symm (h.1 hmem))]
    · rfl

/-- Among recordings of different names, each in memory is written. -/
theorem writeWals_mem (hnames : (wals.map SessionWal.getFileName).Nodup) (hwal : wal ∈ wals)
    (hmem : wal.storage = .mem) :
    (writeWals files wals).get wal.getFileName = some (flushData wal.data) := by
  induction wals generalizing files with
  | nil => cases hwal
  | cons first wals ih =>
    rw [List.map_cons, List.nodup_cons] at hnames
    rw [writeWals_cons]
    rcases List.mem_cons.mp hwal with rfl | hwal
    · have hother : ∀ other ∈ wals, other.storage = .mem →
          other.getFileName ≠ wal.getFileName := by
        intro other hother _ hsame
        exact hnames.1 (hsame ▸ List.mem_map_of_mem hother)
      rw [if_pos hmem, writeWals_other hother, Table.get_set, if_pos rfl]
    · exact ih hnames.2 hwal

/-! ### Sessions whose cuts start fresh -/

/-- What holds while every cut starts fresh: the captured frames are those of the recordings and
then those still held, and a recording is in its file once it has left memory. -/
structure Recorded (settings : SessionSettings) (captured : List Bytes) (s : SessionSync) :
    Prop where
  kept : captured = s.wals.flatMap (·.data) ++ s.frames.map (·.payload)
  alike : ∀ wal ∈ s.wals, wal.device = settings.device ∧ wal.codec = settings.codec
  counts : ∀ wal ∈ s.wals, wal.totalFrames = wal.data.length
  starts : (s.wals.map (·.timerStart)).Nodup
  unwritten : ∀ wal ∈ s.wals, wal.storage = .mem → s.files.get wal.getFileName = none
  written : ∀ wal ∈ s.wals, wal.storage ≠ .mem → wal.storage = .disk ∧
    s.files.get wal.getFileName = some (flushData wal.data)
  files : ∀ name data, s.files.get name = some data → ∃ wal ∈ s.wals, wal.getFileName = name

theorem Recorded.names (h : Recorded settings captured s) :
    (s.wals.map SessionWal.getFileName).Nodup := by
  have hstarts := h.starts
  rw [List.nodup_iff_pairwise_ne, List.pairwise_map] at hstarts ⊢
  apply hstarts.imp_of_mem
  intro wal other hwal hother hne hname
  have hdevice := (h.alike wal hwal).1.trans (h.alike other hother).1.symm
  have hcodec := (h.alike wal hwal).2.trans (h.alike other hother).2.symm
  exact hne (getFileName_inj hdevice hcodec hname)

/-- A cut that starts fresh is a new recording. -/
theorem storeCut_fresh (h : ∀ wal ∈ wals, wal.timerStart ≠ cut.timerStart) :
    storeCut settings cut wals = wals ++ [cut] := by
  induction wals with
  | nil => rfl
  | cons wal wals ih =>
    rw [List.forall_mem_cons] at h
    rw [storeCut, if_neg, ih h.2, List.cons_append]
    simp [beganAt, h.1]

/-- Some of the frames move into a new recording. -/
theorem Recorded.add (h : Recorded settings captured s) {timerStart : ℤ}
    {frames rest : List WalFrame} (synced left : List Bool) (hframes : s.frames = frames ++ rest)
    (hfresh : ∀ wal ∈ s.wals, wal.timerStart ≠ timerStart) :
    Recorded settings captured
      { s with
        wals := s.wals ++ [walOf settings timerStart frames synced]
        frames := rest
        frameSynced := left } := by
  constructor
  · rw [h.kept, hframes]
    simp [walOf]
  · rw [List.forall_mem_append, List.forall_mem_singleton]
    exact ⟨h.alike, rfl, rfl⟩
  · rw [List.forall_mem_append, List.forall_mem_singleton]
    exact ⟨h.counts, (List.length_map _).symm⟩
  · dsimp only
    rw [List.map_append, List.map_singleton, List.nodup_append]
    refine ⟨h.starts, List.nodup_singleton _, ?_⟩
    intro start hstart other hother
    obtain ⟨wal, hwal, rfl⟩ := List.mem_map.mp hstart
    rw [List.mem_singleton] at hother
    subst hother
    exact hfresh wal hwal
  · rw [List.forall_mem_append, List.forall_mem_singleton]
    refine ⟨h.unwritten, fun _ => ?_⟩
    cases hfile : s.files.get (walOf settings timerStart frames synced).getFileName with
    | none => rfl
    | some data =>
      obtain ⟨wal, hwal, hname⟩ := h.files _ _ hfile
      exact absurd (getFileName_inj (h.alike wal hwal).1 (h.alike wal hwal).2 hname)
        (hfresh wal hwal)
  · rw [List.forall_mem_append, List.forall_mem_singleton]
    exact ⟨h.written, fun hdisk => absurd rfl hdisk⟩
  · intro name data hfile
    obtain ⟨wal, hwal, hname⟩ := h.files name data hfile
    exact ⟨wal, List.mem_append_left _ hwal, hname⟩

theorem Recorded.flush (h : Recorded settings captured s) :
    Recorded settings captured s.flush := by
  have hmap : ∀ {p : SessionWal → Prop}, (∀ wal ∈ s.wals, p (flushed wal)) →
      ∀ wal ∈ s.flush.wals, p wal := by
    intro p hall wal hwal
    obtain ⟨before, hbefore, rfl⟩ := List.mem_map.mp hwal
    exact hall before hbefore
  constructor
  · rw [h.kept, SessionSync.flush]
    simp [List.flatMap_map]
  · apply hmap
    intro wal hwal
    rw [flushed_device, flushed_codec]
    exact h.alike wal hwal
  · apply hmap
    intro wal hwal
    rw [flushed_totalFrames, flushed_data]
    exact h.counts wal hwal
  · rw [SessionSync.flush, List.map_map]
    have hsame : ((·.timerStart) ∘ flushed) = (·.timerStart) := by
      funext wal
      exact flushed_timerStart
    rw [hsame]
    exact h.starts
  · apply hmap
    intro wal hwal hmem
    unfold flushed at hmem
    split_ifs at hmem with hstorage
    exact absurd hmem hstorage
  · apply hmap
    intro wal hwal _
    rw [flushed_getFileName, flushed_data]
    by_cases hmem : wal.storage = .mem
    · refine ⟨?_, writeWals_mem h.names hwal hmem⟩
      rw [flushed, if_pos hmem]
    · obtain ⟨hdisk, hfile⟩ := h.written wal hwal hmem
      refine ⟨by rw [flushed, if_neg hmem]; exact hdisk, ?_⟩
      have hother : ∀ other ∈ s.wals, other.storage = .mem →
          other.getFileName ≠ wal.getFileName := by
        intro other hother hstorage hname
        have hnone := h.unwritten other hother hstorage
        rw [hname, hfile] at hnone
        cases hnone
      exact (writeWals_other hother).trans hfile
  · intro name data hfile
    by_cases hname : ∃ wal ∈ s.wals, wal.getFileName = name
    · obtain ⟨wal, hwal, hname⟩ := hname
      exact ⟨flushed wal, List.mem_map_of_mem hwal, flushed_getFileName.trans hname⟩
    · have hother : ∀ wal ∈ s.wals, wal.storage = .mem → wal.getFileName ≠ name :=
        fun wal hwal _ hsame => hname ⟨wal, hwal, hsame⟩
      exact absurd (h.files name data ((writeWals_other hother).symm.trans hfile)) hname

theorem Recorded.flush_disk (h : Recorded settings captured s) :
    ∀ wal ∈ s.flush.wals, wal.storage = .disk := by
  intro wal hwal
  obtain ⟨before, hbefore, rfl⟩ := List.mem_map.mp hwal
  unfold flushed
  split_ifs with hmem
  · rfl
  · exact (h.written before hbefore hmem).1

theorem Recorded.flush_grow (h : Recorded settings captured s) : FilesGrow s s.flush := by
  intro name data hfile
  have hother : ∀ wal ∈ s.wals, wal.storage = .mem → wal.getFileName ≠ name := by
    intro wal hwal hmem hname
    have hnone := h.unwritten wal hwal hmem
    rw [hname, hfile] at hnone
    cases hnone
  exact ⟨[], by rw [List.append_nil]; exact (writeWals_other hother).trans hfile⟩

/-- The session has written its recordings once it holds no frames. -/
def WrittenWhenEmpty (s : SessionSync) : Prop := s.frames = [] → ∀ wal ∈ s.wals, wal.storage = .disk

theorem shouldStored_unlimited (hunlimited : settings.unlimitedLocalStorageEnabled = true)
    (synced : List Bool) : shouldStored settings synced = true := by
  rw [shouldStored, hunlimited]
  rfl

theorem Recorded.chunk (h : Recorded settings captured s)
    (hunlimited : settings.unlimitedLocalStorageEnabled = true) {now : ℕ}
    (hfresh : StartsFresh settings s (.chunk now)) :
    Recorded settings captured (s.chunk settings now) := by
  unfold SessionSync.chunk
  dsimp only
  split_ifs with hnone hstored
  · exact h
  · have hstarts := hfresh.resolve_left hnone
    rw [storeCut_fresh hstarts]
    exact h.add _ _ (List.take_append_drop _ _).symm hstarts
  · exact absurd (shouldStored_unlimited hunlimited _) hstored

theorem frames_chunk (now : ℕ) :
    (s.chunk settings now).frames = s.frames.drop (s.pivot settings) := by
  unfold SessionSync.chunk
  dsimp only
  by_cases hnone : s.pivot settings = 0
  · rw [if_pos hnone, hnone, List.drop_zero]
  · rw [if_neg hnone]

theorem files_chunk (now : ℕ) : (s.chunk settings now).files = s.files := by
  unfold SessionSync.chunk
  dsimp only
  by_cases hnone : s.pivot settings = 0
  · rw [if_pos hnone]
  · rw [if_neg hnone]

/-- The frames of the last seconds stay. -/
theorem chunk_frames_ne_nil (now : ℕ) (hheld : s.frames ≠ []) :
    (s.chunk settings now).frames ≠ [] := by
  rw [frames_chunk]
  have hpos := settings.framesPerSecond_pos
  have hlength := List.length_pos_iff.mpr hheld
  intro hempty
  have hdropped := congrArg List.length hempty
  rw [List.length_drop, List.length_nil, pivot, newFrameSyncDelaySeconds] at hdropped
  omega

theorem Recorded.finalize (h : Recorded settings captured s)
    (hunlimited : settings.unlimitedLocalStorageEnabled = true) {now : ℕ} (hheld : s.frames ≠ [])
    (hfresh : StartsFresh settings s (.finalizeCurrentSession now)) :
    ∃ before, Recorded settings captured before ∧ before.files = s.files ∧
      s.finalizeCurrentSession settings now = before.flush := by
  refine ⟨_, h.add s.frameSynced [] (List.append_nil _).symm (hfresh.resolve_left hheld), rfl, ?_⟩
  rw [finalizeCurrentSession, if_neg hheld, if_pos (shouldStored_unlimited hunlimited _)]

/-- One step of a session whose cuts start fresh. -/
theorem Recorded.step (h : Recorded settings captured s) (hsettled : WrittenWhenEmpty s)
    (hunlimited : settings.unlimitedLocalStorageEnabled = true) {action : SessionAction}
    (hfresh : StartsFresh settings s action) :
    Recorded settings (captured ++ captures [action]) (s.step settings action) ∧
      WrittenWhenEmpty (s.step settings action) ∧ FilesGrow s (s.step settings action) := by
  have hsame : ∀ {after : SessionSync}, after.files = s.files → FilesGrow s after := by
    intro after hfiles name data hfile
    exact ⟨[], by rw [hfiles, List.append_nil]; exact hfile⟩
  cases action with
  | onFrameCaptured frame =>
    refine ⟨⟨?_, h.alike, h.counts, h.starts, h.unwritten, h.written, h.files⟩, ?_, hsame rfl⟩
    · rw [h.kept]
      simp [captures, SessionSync.step, onFrameCaptured]
    · intro hempty
      exact absurd hempty (List.append_ne_nil_of_right_ne_nil _ (List.cons_ne_nil _ _))
  | markFrameSynced key =>
    rw [show captures [.markFrameSynced key] = [] from rfl, List.append_nil]
    change Recorded settings captured (s.markFrameSynced key) ∧
      WrittenWhenEmpty (s.markFrameSynced key) ∧ FilesGrow s (s.markFrameSynced key)
    unfold markFrameSynced
    split
    · exact ⟨h, hsettled, hsame rfl⟩
    · exact ⟨⟨h.kept, h.alike, h.counts, h.starts, h.unwritten, h.written, h.files⟩, hsettled,
        hsame rfl⟩
  | chunk now =>
    rw [show captures [.chunk now] = [] from rfl, List.append_nil]
    refine ⟨h.chunk hunlimited hfresh, ?_, hsame (files_chunk now)⟩
    intro hempty
    by_cases hheld : s.frames = []
    · have hnone : s.pivot settings = 0 := by
        rw [pivot, hheld, List.length_nil, Nat.zero_sub]
      have hstays : s.chunk settings now = s := by
        rw [SessionSync.chunk]
        exact if_pos hnone
      change ∀ wal ∈ (s.chunk settings now).wals, wal.storage = .disk
      rw [hstays]
      exact hsettled hheld
    · exact absurd hempty (chunk_frames_ne_nil now hheld)
  | flush =>
    rw [show captures [.flush] = [] from rfl, List.append_nil]
    exact ⟨h.flush, fun _ => h.flush_disk, h.flush_grow⟩
  | finalizeCurrentSession now =>
    rw [show captures [.finalizeCurrentSession now] = [] from rfl, List.append_nil]
    change Recorded settings captured (s.finalizeCurrentSession settings now) ∧
      WrittenWhenEmpty (s.finalizeCurrentSession settings now) ∧
      FilesGrow s (s.finalizeCurrentSession settings now)
    by_cases hheld : s.frames = []
    · rw [finalizeCurrentSession, if_pos hheld]
      exact ⟨h, hsettled, hsame rfl⟩
    · obtain ⟨before, hbefore, hfiles, hflush⟩ := h.finalize hunlimited hheld hfresh
      rw [hflush]
      refine ⟨hbefore.flush, fun _ => hbefore.flush_disk, ?_⟩
      intro name data hfile
      exact hbefore.flush_grow name data (hfiles.symm ▸ hfile)

/-- A session whose cuts start fresh. -/
theorem Recorded.run (hunlimited : settings.unlimitedLocalStorageEnabled = true)
    {actions : List SessionAction} (h : Recorded settings captured s)
    (hsettled : WrittenWhenEmpty s)
    (hfresh : EveryStep (SessionSync.step settings) (StartsFresh settings) s actions) :
    Recorded settings (captured ++ captures actions)
        (actions.foldl (SessionSync.step settings) s) ∧
      WrittenWhenEmpty (actions.foldl (SessionSync.step settings) s) ∧
      EveryStep (SessionSync.step settings)
        (fun s action => FilesGrow s (s.step settings action)) s actions := by
  induction actions generalizing s captured with
  | nil =>
    rw [show captures [] = [] from rfl, List.append_nil]
    exact ⟨h, hsettled, trivial⟩
  | cons action actions ih =>
    obtain ⟨hfirst, hrest⟩ := hfresh
    obtain ⟨hrecorded, hsettled', hgrow⟩ := h.step hsettled hunlimited hfirst
    obtain ⟨hend, hsettled'', hgrows⟩ := ih hrecorded hsettled' hrest
    have hcaptures : captures (action :: actions) = captures [action] ++ captures actions := by
      cases action <;> rfl
    rw [hcaptures, ← List.append_assoc]
    exact ⟨hend, hsettled'', hgrow, hgrows⟩

theorem recorded_empty : Recorded settings [] {} where
  kept := rfl
  alike _ hwal := absurd hwal List.not_mem_nil
  counts _ hwal := absurd hwal List.not_mem_nil
  starts := List.nodup_nil
  unwritten _ hwal := absurd hwal List.not_mem_nil
  written _ hwal := absurd hwal List.not_mem_nil
  files _ _ hfile := by cases hfile

/-- The last call leaves no frames. -/
theorem finalize_frames (now : ℕ) : (s.finalizeCurrentSession settings now).frames = [] := by
  unfold finalizeCurrentSession
  by_cases hheld : s.frames = []
  · rw [if_pos hheld]
    exact hheld
  · rw [if_neg hheld]
    rfl

/-- Recordings whose frames are all there is, one after the other, hold consecutive places. -/
theorem exists_places (before after : List Bytes) (wals : List SessionWal) :
    ∃ places, List.Forall₂
        (HoldsPlaces (before ++ wals.flatMap (·.data) ++ after)) wals places ∧
      places.flatten = List.range' before.length (wals.flatMap (·.data)).length := by
  induction wals generalizing before with
  | nil => exact ⟨[], .nil, rfl⟩
  | cons wal wals ih =>
    obtain ⟨places, hholds, hplaces⟩ := ih (before ++ wal.data)
    refine ⟨List.range' before.length wal.data.length :: places, .cons ?_ ?_, ?_⟩
    · refine ⟨List.pairwise_lt_range', ?_⟩
      apply List.ext_getElem
      · simp
      · intro i hi _
        have hlt : i < wal.data.length := by simpa using hi
        simp [List.getElem?_append, hlt]
    · rw [List.flatMap_cons, ← List.append_assoc]
      exact hholds
    · rw [List.flatten_cons, hplaces, List.flatMap_cons, List.length_append, List.length_append,
        List.range'_append_1]

theorem Recorded.framesKept (h : Recorded settings captured s) (hsettled : WrittenWhenEmpty s)
    (hempty : s.frames = []) : FramesKept captured s := by
  have hkept : captured = s.wals.flatMap (·.data) := by
    rw [h.kept, hempty, List.map_nil, List.append_nil]
  have honce : ∃ places, List.Forall₂ (HoldsPlaces captured) s.wals places ∧
      places.flatten.Perm (List.range captured.length) := by
    obtain ⟨places, hholds, hplaces⟩ := exists_places [] [] s.wals
    rw [List.nil_append, List.append_nil, ← hkept] at hholds
    rw [← hkept] at hplaces
    refine ⟨places, hholds, ?_⟩
    rw [hplaces, List.length_nil, List.range_eq_range']
  refine ⟨honce, ?_, h.files, h.names, h.counts⟩
  intro wal hwal
  have hdisk := hsettled hempty wal hwal
  have hout : wal.storage ≠ .mem := by
    rw [hdisk]
    decide
  exact ⟨hdisk, (h.written wal hwal hout).2⟩

/-! ### Sessions with a cut that does not -/

/-- What every recording of the session has. -/
def Alike (settings : SessionSettings) (wals : List SessionWal) : Prop :=
  ∀ wal ∈ wals, wal.device = settings.device ∧ wal.codec = settings.codec ∧ wal.data ≠ []

/-- A recording that counts fewer frames than it holds, or two of one name. -/
def Spoiled (wals : List SessionWal) : Prop :=
  (∃ wal ∈ wals, wal.totalFrames < wal.data.length) ∨
    ¬ (wals.map SessionWal.getFileName).Nodup

/-- What holds of a cut, and of every recording with a cut behind its frames, stays true. -/
theorem forall_storeCut {p : SessionWal → Prop} (hcut : p cut)
    (hmerge : ∀ wal, p wal → p (mergeWal wal cut)) (h : ∀ wal ∈ wals, p wal) :
    ∀ wal ∈ storeCut settings cut wals, p wal := by
  induction wals with
  | nil => exact List.forall_mem_singleton.mpr hcut
  | cons wal wals ih =>
    rw [List.forall_mem_cons] at h
    rw [storeCut]
    split_ifs
    · exact List.forall_mem_cons.mpr ⟨hmerge wal h.1, h.2⟩
    · exact List.forall_mem_cons.mpr ⟨h.1, ih h.2⟩

theorem names_storeCut : (storeCut settings cut wals).map SessionWal.getFileName =
      wals.map SessionWal.getFileName ∨
    (storeCut settings cut wals).map SessionWal.getFileName =
      wals.map SessionWal.getFileName ++ [cut.getFileName] := by
  induction wals with
  | nil => exact .inr rfl
  | cons wal wals ih =>
    rw [storeCut]
    split_ifs
    · exact .inl rfl
    · rw [List.map_cons, List.map_cons, List.cons_append]
      exact ih.imp (congrArg _) (congrArg _)

/-- A recording that a cut joins counts the frames of the cut only. -/
theorem mergeWal_miscounts (hcut : cut.totalFrames = cut.data.length) (hdata : wal.data ≠ []) :
    (mergeWal wal cut).totalFrames < (mergeWal wal cut).data.length := by
  have hpos := List.length_pos_iff.mpr hdata
  change cut.totalFrames < (wal.data ++ cut.data).length
  rw [List.length_append]
  omega

theorem storeCut_merges (hcut : cut.totalFrames = cut.data.length)
    (hdata : ∀ wal ∈ wals, wal.data ≠ []) (hwal : wal ∈ wals)
    (hbegan : beganAt settings cut.timerStart wal = true) :
    ∃ merged ∈ storeCut settings cut wals, merged.totalFrames < merged.data.length := by
  induction wals with
  | nil => cases hwal
  | cons first wals ih =>
    rw [List.forall_mem_cons] at hdata
    rw [storeCut]
    split_ifs with hfirst
    · exact ⟨_, List.mem_cons_self, mergeWal_miscounts hcut hdata.1⟩
    · rcases List.mem_cons.mp hwal with rfl | hwal
      · exact absurd hbegan hfirst
      · obtain ⟨merged, hmerged, hless⟩ := ih hdata.2 hwal
        exact ⟨merged, List.mem_cons_of_mem _ hmerged, hless⟩

theorem storeCut_miscounts (hcut : cut.totalFrames = cut.data.length)
    (hdata : ∀ wal ∈ wals, wal.data ≠ []) (hwal : wal ∈ wals)
    (hless : wal.totalFrames < wal.data.length) :
    ∃ kept ∈ storeCut settings cut wals, kept.totalFrames < kept.data.length := by
  induction wals with
  | nil => cases hwal
  | cons first wals ih =>
    rw [List.forall_mem_cons] at hdata
    rw [storeCut]
    split_ifs
    · exact ⟨_, List.mem_cons_self, mergeWal_miscounts hcut hdata.1⟩
    · rcases List.mem_cons.mp hwal with rfl | hwal
      · exact ⟨wal, List.mem_cons_self, hless⟩
      · obtain ⟨kept, hkept, hless⟩ := ih hdata.2 hwal
        exact ⟨kept, List.mem_cons_of_mem _ hkept, hless⟩

theorem alike_walOf {timerStart : ℤ} {frames : List WalFrame} {synced : List Bool}
    (h : frames ≠ []) : (walOf settings timerStart frames synced).device = settings.device ∧
      (walOf settings timerStart frames synced).codec = settings.codec ∧
      (walOf settings timerStart frames synced).data ≠ [] := by
  refine ⟨rfl, rfl, ?_⟩
  rw [walOf]
  simpa using h

theorem Alike.flushed (h : Alike settings wals) : Alike settings (wals.map flushed) := by
  intro wal hwal
  obtain ⟨before, hbefore, rfl⟩ := List.mem_map.mp hwal
  rw [flushed_device, flushed_codec, flushed_data]
  exact h before hbefore

theorem Spoiled.flushed (h : Spoiled wals) : Spoiled (wals.map flushed) := by
  rcases h with ⟨wal, hwal, hless⟩ | hnames
  · refine .inl ⟨_, List.mem_map_of_mem hwal, ?_⟩
    rw [flushed_totalFrames, flushed_data]
    exact hless
  · refine .inr ?_
    have hsame : SessionWal.getFileName ∘ SessionSync.flushed = SessionWal.getFileName := by
      funext wal
      exact flushed_getFileName
    rw [List.map_map, hsame]
    exact hnames

theorem Spoiled.append (h : Spoiled wals) (more : List SessionWal) : Spoiled (wals ++ more) := by
  rcases h with ⟨wal, hwal, hless⟩ | hnames
  · exact .inl ⟨wal, List.mem_append_left _ hwal, hless⟩
  · refine .inr fun hall => hnames ?_
    rw [List.map_append, List.nodup_append] at hall
    exact hall.1

theorem Spoiled.storeCut (h : Spoiled wals) (halike : Alike settings wals)
    (hcut : cut.totalFrames = cut.data.length) : Spoiled (storeCut settings cut wals) := by
  rcases h with ⟨wal, hwal, hless⟩ | hnames
  · exact .inl (storeCut_miscounts hcut (fun wal hwal => (halike wal hwal).2.2) hwal hless)
  · refine .inr fun hall => hnames ?_
    rcases @names_storeCut settings cut wals with hsame | hmore
    · exact hsame ▸ hall
    · rw [hmore, List.nodup_append] at hall
      exact hall.1

/-- What a step makes of the recordings. -/
theorem wals_step (hunlimited : settings.unlimitedLocalStorageEnabled = true)
    (action : SessionAction) :
    (s.step settings action).wals = s.wals ∨
    (s.step settings action).wals = s.wals.map flushed ∨
    (∃ now, action = .chunk now ∧ s.pivot settings ≠ 0 ∧ (s.step settings action).wals =
      storeCut settings (walOf settings (s.chunkStart settings now)
        (s.frames.take (s.pivot settings)) (s.frameSynced.take (s.pivot settings))) s.wals) ∨
    (∃ now, action = .finalizeCurrentSession now ∧ s.frames ≠ [] ∧
      (s.step settings action).wals = (s.wals ++
        [walOf settings (s.finalStart settings now) s.frames s.frameSynced]).map flushed) := by
  cases action with
  | onFrameCaptured frame => exact .inl rfl
  | markFrameSynced key =>
    refine .inl ?_
    change (s.markFrameSynced key).wals = s.wals
    unfold markFrameSynced
    split <;> rfl
  | chunk now =>
    by_cases hnone : s.pivot settings = 0
    · refine .inl ?_
      change (s.chunk settings now).wals = s.wals
      rw [SessionSync.chunk]
      dsimp only
      rw [if_pos hnone]
    · refine .inr (.inr (.inl ⟨now, rfl, hnone, ?_⟩))
      change (s.chunk settings now).wals = _
      rw [SessionSync.chunk]
      dsimp only
      rw [if_neg hnone, if_pos (shouldStored_unlimited hunlimited _)]
  | flush => exact .inr (.inl rfl)
  | finalizeCurrentSession now =>
    by_cases hheld : s.frames = []
    · refine .inl ?_
      change (s.finalizeCurrentSession settings now).wals = s.wals
      rw [finalizeCurrentSession, if_pos hheld]
    · refine .inr (.inr (.inr ⟨now, rfl, hheld, ?_⟩))
      change (s.finalizeCurrentSession settings now).wals = _
      rw [finalizeCurrentSession, if_neg hheld, if_pos (shouldStored_unlimited hunlimited _)]
      rfl

theorem walOf_counts {timerStart : ℤ} {frames : List WalFrame} {synced : List Bool} :
    (walOf settings timerStart frames synced).totalFrames =
      (walOf settings timerStart frames synced).data.length :=
  (List.length_map _).symm

theorem take_pivot_ne_nil (h : s.pivot settings ≠ 0) : s.frames.take (s.pivot settings) ≠ [] := by
  have hpos := Nat.pos_of_ne_zero h
  have hlong : 0 < s.frames.length := by
    unfold pivot at h
    omega
  rw [← List.length_pos_iff, List.length_take]
  exact lt_min hpos hlong

theorem Alike.step (h : Alike settings s.wals)
    (hunlimited : settings.unlimitedLocalStorageEnabled = true) (action : SessionAction) :
    Alike settings (s.step settings action).wals := by
  obtain hsame | hflush | ⟨now, -, hpivot, hcut⟩ | ⟨now, -, hheld, hlast⟩ :=
    wals_step hunlimited action
  · rw [hsame]
    exact h
  · rw [hflush]
    exact h.flushed
  · rw [hcut]
    apply forall_storeCut (alike_walOf (take_pivot_ne_nil hpivot)) _ h
    rintro wal ⟨hdevice, hcodec, hdata⟩
    exact ⟨hdevice, hcodec, List.append_ne_nil_of_left_ne_nil hdata _⟩
  · rw [hlast]
    apply Alike.flushed
    rw [Alike, List.forall_mem_append, List.forall_mem_singleton]
    exact ⟨h, alike_walOf hheld⟩

theorem Spoiled.step (h : Spoiled s.wals) (halike : Alike settings s.wals)
    (hunlimited : settings.unlimitedLocalStorageEnabled = true) (action : SessionAction) :
    Spoiled (s.step settings action).wals := by
  obtain hsame | hflush | ⟨now, -, -, hcut⟩ | ⟨now, -, -, hlast⟩ := wals_step hunlimited action
  · rw [hsame]
    exact h
  · rw [hflush]
    exact h.flushed
  · rw [hcut]
    exact h.storeCut halike walOf_counts
  · rw [hlast]
    exact (h.append _).flushed

/-- A cut that begins when a recording began spoils the session. -/
theorem spoiled_of_not_fresh (halike : Alike settings s.wals)
    (hunlimited : settings.unlimitedLocalStorageEnabled = true) {action : SessionAction}
    (h : ¬ StartsFresh settings s action) : Spoiled (s.step settings action).wals := by
  cases action with
  | onFrameCaptured frame => exact absurd trivial h
  | markFrameSynced key => exact absurd trivial h
  | flush => exact absurd trivial h
  | chunk now =>
    simp only [StartsFresh, not_or, not_forall, not_not] at h
    obtain ⟨hpivot, wal, hwal, hstart⟩ := h
    have hcut : (s.chunk settings now).wals = storeCut settings
        (walOf settings (s.chunkStart settings now) (s.frames.take (s.pivot settings))
          (s.frameSynced.take (s.pivot settings))) s.wals := by
      rw [SessionSync.chunk]
      dsimp only
      rw [if_neg hpivot, if_pos (shouldStored_unlimited hunlimited _)]
    change Spoiled (s.chunk settings now).wals
    rw [hcut]
    refine .inl (storeCut_merges walOf_counts (fun wal hwal => (halike wal hwal).2.2) hwal ?_)
    simp [beganAt, hstart, walOf, halike wal hwal]
  | finalizeCurrentSession now =>
    simp only [StartsFresh, not_or, not_forall, not_not] at h
    obtain ⟨hheld, wal, hwal, hstart⟩ := h
    change Spoiled (s.finalizeCurrentSession settings now).wals
    rw [finalizeCurrentSession, if_neg hheld, if_pos (shouldStored_unlimited hunlimited _)]
    apply Spoiled.flushed
    refine .inr fun hall => ?_
    rw [List.map_append, List.map_singleton, List.nodup_append] at hall
    apply hall.2.2 _ (List.mem_map_of_mem hwal) _ (List.mem_singleton_self _)
    unfold SessionWal.getFileName
    rw [(halike wal hwal).1, (halike wal hwal).2.1, hstart]
    rfl

theorem spoiled_run (hunlimited : settings.unlimitedLocalStorageEnabled = true)
    (actions : List SessionAction) (halike : Alike settings s.wals) (h : Spoiled s.wals) :
    Spoiled (actions.foldl (SessionSync.step settings) s).wals := by
  induction actions generalizing s with
  | nil => exact h
  | cons action actions ih =>
    exact ih (halike.step hunlimited action) (h.step halike hunlimited action)

/-- One cut that does not start fresh spoils the whole session. -/
theorem spoiled_of_not_every (hunlimited : settings.unlimitedLocalStorageEnabled = true)
    {actions : List SessionAction} (halike : Alike settings s.wals)
    (h : ¬ EveryStep (SessionSync.step settings) (StartsFresh settings) s actions) :
    Spoiled (actions.foldl (SessionSync.step settings) s).wals := by
  induction actions generalizing s with
  | nil => exact absurd trivial h
  | cons action actions ih =>
    have hnext := halike.step hunlimited action
    by_cases hfresh : StartsFresh settings s action
    · exact ih hnext fun hrest => h ⟨hfresh, hrest⟩
    · exact spoiled_run hunlimited actions hnext (spoiled_of_not_fresh halike hunlimited hfresh)

theorem not_spoiled_of_kept (h : FramesKept captured s) : ¬ Spoiled s.wals := by
  rintro (⟨wal, hwal, hless⟩ | hnames)
  · have hcounts := h.counts wal hwal
    omega
  · exact hnames h.names

end SessionSync

open SessionSync

/-- A session that ends with `finalizeCurrentSession` keeps every captured frame in one file,
exactly where each of its cuts starts at a time of its own. -/
theorem sessionKept_iff (settings : SessionSettings)
    (hunlimited : settings.unlimitedLocalStorageEnabled = true) (actions : List SessionAction)
    (now : ℕ) :
    SessionKept settings (actions ++ [.finalizeCurrentSession now]) ↔
      EveryStep (SessionSync.step settings) (StartsFresh settings) {}
        (actions ++ [.finalizeCurrentSession now]) := by
  constructor
  · intro h
    by_contra hstale
    have halike : Alike settings ([] : List SessionWal) :=
      fun wal hwal => absurd hwal List.not_mem_nil
    exact not_spoiled_of_kept h.kept (spoiled_of_not_every hunlimited halike hstale)
  · intro hfresh
    have hstart : WrittenWhenEmpty {} := fun _ wal hwal => absurd hwal List.not_mem_nil
    obtain ⟨hrecorded, hsettled, hgrow⟩ := recorded_empty.run hunlimited hstart hfresh
    have hempty : ((actions ++ [SessionAction.finalizeCurrentSession now]).foldl
        (SessionSync.step settings) {}).frames = [] := by
      rw [List.foldl_append]
      exact finalize_frames now
    exact ⟨hgrow, hrecorded.framesKept hsettled hempty⟩

/-- Sixteen seconds of one frame each are cut and written; then comes one more frame. -/
def crowdedSession : List SessionAction :=
  List.replicate 16 (.onFrameCaptured ⟨[7], [0]⟩) ++
    [.chunk 100000, .flush, .onFrameCaptured ⟨[8], [1]⟩]

/-- A second later the last cut begins a second after the first. -/
theorem sessionKept_iff_lateTail : SessionKept ⟨1, .pcm8, none, true, by decide⟩
    (crowdedSession ++ [.finalizeCurrentSession 101000]) := by
  apply (sessionKept_iff ⟨1, .pcm8, none, true, by decide⟩ rfl crowdedSession 101000).mpr
  decide +kernel

/-- Within the same second the last cut begins when the first did, and overwrites its file. -/
theorem not_sessionKept : ¬ ∀ (settings : SessionSettings) (actions : List SessionAction) (now : ℕ),
    settings.unlimitedLocalStorageEnabled = true →
      (clocks (actions ++ [.finalizeCurrentSession now])).Pairwise (· ≤ ·) →
        SessionKept settings (actions ++ [.finalizeCurrentSession now]) := by
  intro h
  have hkept := (h ⟨1, .pcm8, none, true, by decide⟩ crowdedSession 100000 rfl (by decide)).kept
  have hnames : ∃ name, ((crowdedSession ++ [SessionAction.finalizeCurrentSession 100000]).foldl
      (SessionSync.step ⟨1, .pcm8, none, true, by decide⟩) {}).wals.map SessionWal.getFileName =
        [name, name] := ⟨_, rfl⟩
  obtain ⟨name, hnames⟩ := hnames
  have hdistinct := hkept.names
  rw [hnames] at hdistinct
  exact (List.nodup_cons.mp hdistinct).1 (List.mem_singleton_self name)

end Omi.Wals
