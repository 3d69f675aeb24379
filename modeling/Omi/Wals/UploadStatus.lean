import Mathlib
import Omi.Wals.Upload

/-! The status of each recording while the drain, the retirement and the reconciler run: what one
step can change, and what no run ever does. -/
namespace Omi.Wals
open Omi.Foundation

variable {order : NewestFirst} {phone : WalSync} {place : ℕ} {wal : PhoneWal}

/-! ### What a step changes -/

/-- What an action makes of a recording that it changes. -/
inductive Changes (order : NewestFirst) (phone : WalSync) (place : ℕ) (wal : PhoneWal) :
    UploadAction → PhoneWal → Prop
  | corrupted (nowSeconds : ℕ) (onDisk : String → Bool) (hidle : phone.uploading = none)
    (hmiss : wal.status = .miss) (hgone : WalSync.localFileExists onDisk wal = false) :
    Changes order phone place wal (.send nowSeconds onDisk) (WalSync.markCorrupted wal)
  | synced (now : ℕ) {sent : UploadBatch} (huploading : phone.uploading = some sent)
    (hplace : place ∈ sent.files.map Prod.snd) :
    Changes order phone place wal (.answer now .completed) (WalSync.markSynced wal)
  | uploaded (now : ℕ) (jobId : String) {sent : UploadBatch}
    (huploading : phone.uploading = some sent) (hplace : place ∈ sent.files.map Prod.snd) :
    Changes order phone place wal (.answer now (.queued jobId)) (WalSync.markUploaded jobId now wal)
  | retired (now : ℕ) {sent : UploadBatch} {provenTooOld : ℕ}
    (huploading : phone.uploading = some sent)
    (holdest : (sent.files.map (·.1.timerStart)).min? = some provenTooOld)
    (hmiss : wal.status = .miss) (hdisk : wal.storage = .disk)
    (hstart : wal.timerStart ≤ provenTooOld) :
    Changes order phone place wal (.answer now .recoveryWindowExceeded)
      (WalSync.markOutsideRecoveryWindow wal)
  | resolved (fetch : SyncJobFetch) (onDisk : String → Bool) {nowSecs : ℕ} {jobId : String}
    {members : List ℕ} {rest : List (String × List ℕ)}
    (hpass : phone.pass = some ⟨nowSecs, (jobId, members) :: rest⟩) (hplace : place ∈ members) :
    Changes order phone place wal (.resolve fetch onDisk)
      (WalSync.resolution nowSecs onDisk fetch wal)

theorem getElem?_update_of_mem {places : List ℕ} {change : PhoneWal → PhoneWal}
    (hwal : phone.wals[place]? = some wal) (hplace : place ∈ places) :
    (phone.update places change).wals[place]? = some (change wal) := by
  rw [WalSync.getElem?_update, hwal, Option.map_some, if_pos (by simpa using hplace)]

theorem getElem?_update_of_not_mem {places : List ℕ} {change : PhoneWal → PhoneWal}
    (hwal : phone.wals[place]? = some wal) (hplace : place ∉ places) :
    (phone.update places change).wals[place]? = some wal := by
  rw [WalSync.getElem?_update, hwal, Option.map_some, if_neg (by simpa using hplace)]

/-- A recording of a batch whose file is gone is pending, under its entry. -/
theorem missing_spec {drain : Drain} {nowSeconds : ℕ} {onDisk : String → Bool} {b : UploadBatch}
    (hb : b = phone.formBatch order drain nowSeconds onDisk)
    (hwal : phone.wals[place]? = some wal)
    (hplace : place ∈ (b.batch.filter fun entry =>
      !WalSync.localFileExists onDisk entry.1).map Prod.snd) :
    wal.status = .miss ∧ WalSync.localFileExists onDisk wal = false := by
  obtain ⟨entry, hentry, rfl⟩ := List.mem_map.mp hplace
  obtain ⟨hbatch, hgone⟩ := List.mem_filter.mp hentry
  rw [hb] at hbatch
  obtain ⟨hentryWal, hmiss, -⟩ := WalSync.mem_candidates.mp (WalSync.mem_nextBatch hbatch)
  obtain rfl := Option.some.inj (hentryWal.symm.trans hwal)
  exact ⟨hmiss, by simpa using hgone⟩

/-- A step leaves a recording, or changes it in one of these ways. -/
theorem step_changes (order : NewestFirst) (action : UploadAction)
    (hwal : phone.wals[place]? = some wal) :
    ∃ after, (phone.step order action).wals[place]? = some after ∧
      (after = wal ∨ Changes order phone place wal action after) := by
  cases action with
  | arrive arrived =>
    obtain ⟨hplace, -⟩ := List.getElem?_eq_some_iff.mp hwal
    exact ⟨wal, by rw [WalSync.step, List.getElem?_append_left hplace, hwal], .inl rfl⟩
  | syncAll liveCaptureOnly nowSeconds limited =>
    refine ⟨wal, ?_, .inl rfl⟩
    show (phone.syncAll liveCaptureOnly nowSeconds limited).wals[place]? = some wal
    unfold WalSync.syncAll
    split_ifs <;> exact hwal
  | cancelSync => exact ⟨wal, hwal, .inl rfl⟩
  | send nowSeconds onDisk =>
    show ∃ after, (phone.send order nowSeconds onDisk).wals[place]? = some after ∧ _
    cases hdrain : phone.drain with
    | none => exact ⟨wal, by simp only [WalSync.send, hdrain, hwal], .inl rfl⟩
    | some drain =>
      rcases WalSync.send_cases hdrain order nowSeconds onDisk with
        hsame | hends | ⟨b, missing, hidle, hb, hmissing, hforms⟩
      · exact ⟨wal, by rw [hsame, hwal], .inl rfl⟩
      · exact ⟨wal, by rw [hends]; exact hwal, .inl rfl⟩
      · rw [hforms]
        by_cases hplace : place ∈ missing
        · refine ⟨_, getElem?_update_of_mem hwal hplace, .inr ?_⟩
          rw [hmissing] at hplace
          obtain ⟨hmiss, hgone⟩ := missing_spec hb hwal hplace
          have huploading : phone.uploading = none := by
            rw [WalSync.uploading, hdrain]
            exact hidle
          exact .corrupted nowSeconds onDisk huploading hmiss hgone
        · exact ⟨wal, getElem?_update_of_not_mem hwal hplace, .inl rfl⟩
  | answer now outcome =>
    show ∃ after, (phone.answer now outcome).wals[place]? = some after ∧ _
    rcases phone.answer_cases now outcome with
      ⟨-, hsame⟩ | ⟨drain, sent, hdrain, hsent, hwals, -, -⟩
    · exact ⟨wal, by rw [hsame, hwal], .inl rfl⟩
    · have huploading : phone.uploading = some sent := by
        rw [WalSync.uploading, hdrain]
        exact hsent
      rw [hwals]
      cases outcome with
      | completed =>
        by_cases hplace : place ∈ sent.files.map Prod.snd
        · exact ⟨_, getElem?_update_of_mem hwal hplace, .inr (.synced now huploading hplace)⟩
        · exact ⟨wal, getElem?_update_of_not_mem hwal hplace, .inl rfl⟩
      | queued jobId =>
        by_cases hplace : place ∈ sent.files.map Prod.snd
        · exact ⟨_, getElem?_update_of_mem hwal hplace,
            .inr (.uploaded now jobId huploading hplace)⟩
        · exact ⟨wal, getElem?_update_of_not_mem hwal hplace, .inl rfl⟩
      | recoveryWindowExceeded =>
        show ∃ after, (phone.retireOutsideRecoveryWindow sent.files).wals[place]? = some after ∧ _
        unfold WalSync.retireOutsideRecoveryWindow
        split
        next => exact ⟨wal, hwal, .inl rfl⟩
        next provenTooOld holdest =>
          rw [List.getElem?_map, hwal, Option.map_some]
          refine ⟨_, rfl, ?_⟩
          split_ifs with hretired
          · simp only [Bool.and_eq_true, decide_eq_true_eq] at hretired
            obtain ⟨⟨hmiss, hdisk⟩, hstart⟩ := hretired
            exact .inr (.retired now huploading holdest hmiss hdisk hstart)
          · exact .inl rfl
      | rateLimited | quarantined | failed => exact ⟨wal, hwal, .inl rfl⟩
  | reconcile nowSecs =>
    refine ⟨wal, ?_, .inl rfl⟩
    show (phone.reconcile nowSecs).wals[place]? = some wal
    unfold WalSync.reconcile
    split_ifs <;> exact hwal
  | resolve fetch onDisk =>
    show ∃ after, (phone.resolve fetch onDisk).wals[place]? = some after ∧ _
    rcases phone.resolve_cases fetch onDisk with
      hover | ⟨nowSecs, jobId, members, rest, hpass, hresolved⟩
    · exact ⟨wal, by rw [hover]; exact hwal, .inl rfl⟩
    · rw [hresolved]
      by_cases hplace : place ∈ members
      · exact ⟨_, getElem?_update_of_mem hwal hplace,
          .inr (.resolved fetch onDisk hpass hplace)⟩
      · exact ⟨wal, getElem?_update_of_not_mem hwal hplace, .inl rfl⟩

/-! ### The invariant -/

/-- The recordings of the upload under way are pending, as they were when the batch was formed;
the jobs of a pass are distinct, and their members wait for them. -/
structure WalSync.Consistent (phone : WalSync) : Prop where
  sending : ∀ sent, phone.uploading = some sent → ∀ entry ∈ sent.files,
    phone.wals[entry.2]? = some entry.1 ∧ entry.1.status = .miss ∧ entry.1.storage = .disk
  jobs : ∀ pass, phone.pass = some pass → (pass.jobs.map Prod.fst).Nodup
  awaiting : ∀ pass, phone.pass = some pass → ∀ job ∈ pass.jobs, ∀ place ∈ job.2,
    ∃ wal, phone.wals[place]? = some wal ∧ wal.status = .uploaded ∧ wal.jobId = some job.1

/-- A recording that is being sent does not wait for a job. -/
theorem WalSync.Consistent.apart (h : phone.Consistent) {sent : UploadBatch}
    (huploading : phone.uploading = some sent) (hplace : place ∈ sent.files.map Prod.snd)
    (hwal : phone.wals[place]? = some wal) : wal.status = .miss := by
  obtain ⟨entry, hentry, rfl⟩ := List.mem_map.mp hplace
  obtain ⟨hentryWal, hmiss, -⟩ := h.sending sent huploading entry hentry
  obtain rfl := Option.some.inj (hentryWal.symm.trans hwal)
  exact hmiss

/-- Only the answer of its upload changes a recording that is being sent. -/
theorem WalSync.Consistent.undisturbed (h : phone.Consistent) {action : UploadAction}
    {sent : UploadBatch} (huploading : phone.uploading = some sent) {entry : Entry}
    (hentry : entry ∈ sent.files) (hanswer : ∀ now outcome, action ≠ .answer now outcome) :
    (phone.step order action).wals[entry.2]? = some entry.1 := by
  obtain ⟨hwal, hmiss, -⟩ := h.sending sent huploading entry hentry
  obtain ⟨after, hafter, rfl | hchanges⟩ := step_changes order action hwal
  · exact hafter
  · cases hchanges with
    | corrupted nowSeconds onDisk hidle =>
      rw [huploading] at hidle
      cases hidle
    | synced now | uploaded now jobId | retired now => exact absurd rfl (hanswer now _)
    | resolved fetch onDisk hpass hplace =>
      obtain ⟨waiting, hwaiting, huploaded, -⟩ :=
        h.awaiting _ hpass _ List.mem_cons_self _ hplace
      obtain rfl := Option.some.inj (hwal.symm.trans hwaiting)
      rw [hmiss] at huploaded
      cases huploaded

/-- No step but the resolution of its job changes a recording that waits for one. -/
theorem WalSync.Consistent.waits (h : phone.Consistent) {action : UploadAction}
    (hwal : phone.wals[place]? = some wal) (huploaded : wal.status = .uploaded)
    (hresolve : ∀ nowSecs jobId members rest,
      phone.pass = some ⟨nowSecs, (jobId, members) :: rest⟩ → place ∈ members →
      ∀ fetch onDisk, action ≠ .resolve fetch onDisk) :
    (phone.step order action).wals[place]? = some wal := by
  obtain ⟨after, hafter, rfl | hchanges⟩ := step_changes order action hwal
  · exact hafter
  · have hpending : wal.status ≠ .miss := by
      rw [huploaded]
      decide
    cases hchanges with
    | corrupted nowSeconds onDisk hidle hmiss => exact absurd hmiss hpending
    | synced now huploading hplace => exact absurd (h.apart huploading hplace hwal) hpending
    | uploaded now jobId huploading hplace =>
      exact absurd (h.apart huploading hplace hwal) hpending
    | retired now huploading holdest hmiss => exact absurd hmiss hpending
    | resolved fetch onDisk hpass hplace =>
      exact absurd rfl (hresolve _ _ _ _ hpass hplace fetch onDisk)

theorem nodup_eraseDups : ∀ texts : List String, texts.eraseDups.Nodup
  | [] => List.nodup_nil
  | text :: texts => by
    rw [List.eraseDups_cons, List.nodup_cons]
    refine ⟨by simp, nodup_eraseDups _⟩
  termination_by texts => texts.length
  decreasing_by exact Nat.lt_succ_of_le (List.length_filter_le _ _)

theorem jobs_byJob_nodup (phone : WalSync) : (phone.byJob.map Prod.fst).Nodup := by
  unfold WalSync.byJob
  rw [List.map_map]
  simpa [Function.comp_def] using nodup_eraseDups _

theorem mem_byJob {job : String × List ℕ} (hjob : job ∈ phone.byJob) (hplace : place ∈ job.2) :
    ∃ wal, phone.wals[place]? = some wal ∧ wal.status = .uploaded ∧ wal.jobId = some job.1 := by
  unfold WalSync.byJob at hjob
  obtain ⟨jobId, -, rfl⟩ := List.mem_map.mp hjob
  obtain ⟨entry, hentry, rfl⟩ := List.mem_map.mp hplace
  obtain ⟨huploaded, hown⟩ := List.mem_filter.mp hentry
  obtain ⟨hwal, hstatus⟩ := List.mem_filter.mp huploaded
  simp only [Bool.and_eq_true, decide_eq_true_eq] at hstatus hown
  exact ⟨entry.1, List.mem_zipIdx_iff_getElem?.mp hwal, hstatus.1, hown⟩

/-- An upload under way was before the step, or is of the batch that a turn has formed. -/
theorem uploading_step {action : UploadAction} {sent : UploadBatch}
    (h : (phone.step order action).uploading = some sent) :
    phone.uploading = some sent ∧ (∀ now outcome, action ≠ .answer now outcome) ∨
    ∃ nowSeconds onDisk drain, action = .send nowSeconds onDisk ∧
      sent = phone.formBatch order drain nowSeconds onDisk := by
  cases action with
  | arrive | cancelSync => exact .inl ⟨h, by simp⟩
  | syncAll liveCaptureOnly nowSeconds limited =>
    change (phone.syncAll liveCaptureOnly nowSeconds limited).uploading = some sent at h
    unfold WalSync.syncAll at h
    split_ifs at h
    · exact .inl ⟨h, by simp⟩
    · cases h
    · cases h
  | send nowSeconds onDisk =>
    change (phone.send order nowSeconds onDisk).uploading = some sent at h
    cases hdrain : phone.drain with
    | none =>
      simp only [WalSync.send, hdrain] at h
      exact .inl ⟨h, by simp⟩
    | some drain =>
      rcases WalSync.send_cases hdrain order nowSeconds onDisk with
        hsame | hends | ⟨b, missing, -, hb, -, hforms⟩
      · rw [hsame] at h
        exact .inl ⟨h, by simp⟩
      · rw [hends] at h
        cases h
      · rw [hforms] at h
        change (drain.formed b).uploading = some sent at h
        simp only [Drain.formed] at h
        split_ifs at h
        obtain rfl := Option.some.inj h
        exact .inr ⟨nowSeconds, onDisk, drain, rfl, hb⟩
  | answer now outcome =>
    change (phone.answer now outcome).uploading = some sent at h
    rcases phone.answer_cases now outcome with
      ⟨hidle, hsame⟩ | ⟨drain, answered, -, -, -, -, hends⟩
    · rw [hsame, hidle] at h
      cases h
    · rcases hends with hnone | hsome
      · rw [WalSync.uploading, hnone] at h
        cases h
      · rw [WalSync.uploading, hsome] at h
        cases h
  | reconcile nowSecs =>
    change (phone.reconcile nowSecs).uploading = some sent at h
    unfold WalSync.reconcile at h
    split_ifs at h <;> exact .inl ⟨h, by simp⟩
  | resolve fetch onDisk =>
    change (phone.resolve fetch onDisk).uploading = some sent at h
    rcases phone.resolve_cases fetch onDisk with hover | ⟨_, _, _, _, -, hresolved⟩
    · rw [hover] at h
      exact .inl ⟨h, by simp⟩
    · rw [hresolved] at h
      exact .inl ⟨h, by simp⟩

/-- A pass goes on, was begun by the step, or has resolved its first job. -/
theorem pass_step {action : UploadAction} {pass : ReconcilePass}
    (h : (phone.step order action).pass = some pass) :
    phone.pass = some pass ∧ (∀ fetch onDisk, action ≠ .resolve fetch onDisk) ∨
    (∃ nowSecs, action = .reconcile nowSecs ∧ pass.jobs = phone.byJob) ∨
    ∃ nowSecs job, phone.pass = some ⟨nowSecs, job :: pass.jobs⟩ := by
  cases action with
  | arrive | cancelSync => exact .inl ⟨h, by simp⟩
  | syncAll liveCaptureOnly nowSeconds limited =>
    change (phone.syncAll liveCaptureOnly nowSeconds limited).pass = some pass at h
    unfold WalSync.syncAll at h
    split_ifs at h <;> exact .inl ⟨h, by simp⟩
  | send nowSeconds onDisk =>
    change (phone.send order nowSeconds onDisk).pass = some pass at h
    refine .inl ⟨?_, by simp⟩
    cases hdrain : phone.drain with
    | none =>
      simp only [WalSync.send, hdrain] at h
      exact h
    | some drain =>
      rcases WalSync.send_cases hdrain order nowSeconds onDisk with
        hsame | hends | ⟨_, _, -, -, -, hforms⟩
      · rwa [hsame] at h
      · rwa [hends] at h
      · rwa [hforms] at h
  | answer now outcome =>
    change (phone.answer now outcome).pass = some pass at h
    refine .inl ⟨?_, by simp⟩
    rcases phone.answer_cases now outcome with ⟨-, hsame⟩ | ⟨_, sent, -, -, -, hpass, -⟩
    · rwa [hsame] at h
    · rw [hpass] at h
      cases outcome with
      | recoveryWindowExceeded =>
        change (phone.retireOutsideRecoveryWindow sent.files).pass = some pass at h
        unfold WalSync.retireOutsideRecoveryWindow at h
        split at h <;> exact h
      | completed | queued | rateLimited | quarantined | failed => exact h
  | reconcile nowSecs =>
    change (phone.reconcile nowSecs).pass = some pass at h
    unfold WalSync.reconcile at h
    split_ifs at h
    · exact .inl ⟨h, by simp⟩
    · obtain rfl := Option.some.inj h
      exact .inr (.inl ⟨nowSecs, rfl, rfl⟩)
  | resolve fetch onDisk =>
    change (phone.resolve fetch onDisk).pass = some pass at h
    rcases phone.resolve_cases fetch onDisk with
      hover | ⟨nowSecs, jobId, members, rest, hpass, hresolved⟩
    · rw [hover] at h
      cases h
    · rw [hresolved] at h
      obtain rfl := Option.some.inj h
      exact .inr (.inr ⟨nowSecs, (jobId, members), hpass⟩)

/-- Every step keeps a phone consistent. -/
theorem consistent_step (action : UploadAction) (h : phone.Consistent) :
    (phone.step order action).Consistent := by
  refine ⟨fun sent hsent entry hentry => ?_, fun pass hpass => ?_,
    fun pass hpass job hjob place hplace => ?_⟩
  · rcases uploading_step hsent with ⟨hbefore, hanswer⟩ | ⟨nowSeconds, onDisk, drain, rfl, hformed⟩
    · exact ⟨h.undisturbed hbefore hentry hanswer, (h.sending sent hbefore entry hentry).2⟩
    · rw [hformed] at hentry
      obtain ⟨hbatch, hthere⟩ := List.mem_filter.mp hentry
      obtain ⟨hwal, hmiss, hdisk, -⟩ := WalSync.mem_candidates.mp (WalSync.mem_nextBatch hbatch)
      obtain ⟨after, hafter, rfl | hchanges⟩ :=
        step_changes order (.send nowSeconds onDisk) hwal
      · exact ⟨hafter, hmiss, hdisk⟩
      · cases hchanges with
        | corrupted _ _ _ _ hgone =>
          rw [hthere] at hgone
          cases hgone
  · rcases pass_step hpass with ⟨hbefore, -⟩ | ⟨_, -, hjobs⟩ | ⟨nowSecs, job, hbefore⟩
    · exact h.jobs pass hbefore
    · rw [hjobs]
      exact jobs_byJob_nodup phone
    · exact (List.nodup_cons.mp (h.jobs _ hbefore)).2
  · rcases pass_step hpass with
      ⟨hbefore, hresolve⟩ | ⟨nowSecs, rfl, hjobs⟩ | ⟨nowSecs, head, hbefore⟩
    · obtain ⟨wal, hwal, hwaits⟩ := h.awaiting pass hbefore job hjob place hplace
      exact ⟨wal, h.waits hwal hwaits.1 fun _ _ _ _ _ _ fetch onDisk => hresolve fetch onDisk,
        hwaits⟩
    · rw [hjobs] at hjob
      obtain ⟨wal, hwal, hwaits⟩ := mem_byJob hjob hplace
      exact ⟨wal, h.waits hwal hwaits.1 fun _ _ _ _ _ _ _ _ => nofun, hwaits⟩
    · obtain ⟨wal, hwal, hwaits⟩ :=
        h.awaiting _ hbefore job (List.mem_cons_of_mem _ hjob) place hplace
      refine ⟨wal, h.waits hwal hwaits.1 fun _ jobId members rest hpass' hmember => ?_, hwaits⟩
      -- the members of the resolved job wait for another one
      obtain ⟨-, hsame⟩ := ReconcilePass.mk.inj (Option.some.inj (hbefore.symm.trans hpass'))
      obtain ⟨rfl, rfl⟩ := List.cons.inj hsame
      obtain ⟨other, hother, -, hjobId⟩ := h.awaiting _ hbefore _ List.mem_cons_self place hmember
      obtain rfl := Option.some.inj (hwal.symm.trans hother)
      have heq : job.1 = jobId := Option.some.inj (hwaits.2.symm.trans hjobId)
      have hnodup := (List.nodup_cons.mp (h.jobs _ hbefore)).1
      rw [← heq] at hnodup
      exact absurd (List.mem_map_of_mem hjob) hnodup

/-! ### Safety -/

/-- The reconciler is about to resolve the job, of which the recording is a member. -/
def WalSync.Resolves (phone : WalSync) (jobId : String) (place : ℕ) : Prop :=
  ∃ nowSecs members rest, phone.pass = some ⟨nowSecs, (jobId, members) :: rest⟩ ∧ place ∈ members

/-- The job is unknown, or ended without success. -/
def SyncJobFetch.Unsuccessful : SyncJobFetch → Prop
  | .ok s => s.isTerminal = true ∧ s.status ≠ "completed"
  | .notFound => True
  | .transient => False

/-- What no step does to a recording's status. -/
structure StatusSafe (before : WalSync) (action : UploadAction) (after : WalSync) : Prop where
  /-- A recording becomes synced only by the synchronous success or by its completed job. -/
  synced : ∀ (place : ℕ) (wal changed : PhoneWal), before.wals[place]? = some wal →
    after.wals[place]? = some changed → wal.status ≠ .synced → changed.status = .synced →
      (∃ now sent, action = .answer now .completed ∧ before.uploading = some sent ∧
        place ∈ sent.files.map Prod.snd) ∨
      ∃ s onDisk jobId, action = .resolve (.ok s) onDisk ∧ s.status = "completed" ∧
        before.Resolves jobId place ∧ wal.jobId = some jobId
  /-- A job without success puts its recordings back where their files are there. -/
  retried : ∀ fetch onDisk jobId (place : ℕ) (wal changed : PhoneWal),
    action = .resolve fetch onDisk → fetch.Unsuccessful → before.Resolves jobId place →
    before.wals[place]? = some wal → after.wals[place]? = some changed →
      (WalSync.localFileExists onDisk wal = true → changed.status = .miss) ∧
        changed.status ≠ .synced
  /-- Only the answer of its upload changes a recording that is being sent. -/
  undisturbed : ∀ sent, before.uploading = some sent →
    (∀ now outcome, action ≠ .answer now outcome) → ∀ entry ∈ sent.files,
      after.wals[entry.2]? = before.wals[entry.2]?
  /-- What is being sent is pending, -/
  sending : ∀ sent, after.uploading = some sent → ∀ entry ∈ sent.files,
    ∃ wal, after.wals[entry.2]? = some wal ∧ wal.status = .miss
  /-- and only the reconciler changes an uploaded recording. -/
  waiting : ∀ (place : ℕ) (wal changed : PhoneWal), before.wals[place]? = some wal →
    after.wals[place]? = some changed → wal.status = .uploaded → changed ≠ wal →
      ∃ fetch onDisk, action = .resolve fetch onDisk
  /-- A lookback rejection changes nothing that is newer than the oldest of the batch, -/
  retires : ∀ now sent, action = .answer now .recoveryWindowExceeded →
    before.uploading = some sent → ∀ (place : ℕ) (wal changed : PhoneWal),
      before.wals[place]? = some wal → after.wals[place]? = some changed → changed ≠ wal →
        changed.status = .outsideRecoveryWindow ∧
          ∀ entry ∈ sent.files, wal.timerStart ≤ entry.1.timerStart
  /-- and retires that oldest one. -/
  oldest : ∀ now sent, action = .answer now .recoveryWindowExceeded →
    before.uploading = some sent → ∀ oldest ∈ sent.files,
      (∀ entry ∈ sent.files, oldest.1.timerStart ≤ entry.1.timerStart) →
        ∃ changed, after.wals[oldest.2]? = some changed ∧
          changed.status = .outsideRecoveryWindow

theorem changes_of_ne {action : UploadAction} {changed : PhoneWal}
    (hwal : phone.wals[place]? = some wal)
    (hchanged : (phone.step order action).wals[place]? = some changed) (hne : changed ≠ wal) :
    Changes order phone place wal action changed := by
  obtain ⟨after, hafter, hcases⟩ := step_changes order action hwal
  obtain rfl := Option.some.inj (hafter.symm.trans hchanged)
  exact hcases.resolve_left hne

/-- Only a completed job acknowledges. -/
theorem resolution_synced {nowSecs : ℕ} {onDisk : String → Bool} {fetch : SyncJobFetch}
    (hwal : wal.status ≠ .synced)
    (h : (WalSync.resolution nowSecs onDisk fetch wal).status = .synced) :
    ∃ s, fetch = .ok s ∧ s.status = "completed" := by
  cases fetch with
  | transient => exact absurd h hwal
  | notFound =>
    change (WalSync.revertNotFound nowSecs onDisk wal).status = .synced at h
    unfold WalSync.revertNotFound at h
    split_ifs at h
    cases h
  | ok s =>
    refine ⟨s, rfl, ?_⟩
    simp only [WalSync.resolution, syncJobTerminalPolicy] at h
    split_ifs at h with hactive hcompleted
    · exact absurd h hwal
    · exact hcompleted
    · change (WalSync.revertFailed nowSecs s wal).status = .synced at h
      unfold WalSync.revertFailed at h
      split_ifs at h
      cases h

theorem resolution_unsuccessful {nowSecs : ℕ} {onDisk : String → Bool} {fetch : SyncJobFetch}
    (h : fetch.Unsuccessful) :
    (WalSync.localFileExists onDisk wal = true →
      (WalSync.resolution nowSecs onDisk fetch wal).status = .miss) ∧
    (WalSync.resolution nowSecs onDisk fetch wal).status ≠ .synced := by
  cases fetch with
  | transient => cases h
  | notFound =>
    show (_ → (WalSync.revertNotFound nowSecs onDisk wal).status = _) ∧
      (WalSync.revertNotFound nowSecs onDisk wal).status ≠ _
    unfold WalSync.revertNotFound
    split_ifs with hthere
    · exact ⟨fun _ => rfl, fun hsynced => by cases hsynced⟩
    · exact ⟨fun h => absurd h hthere, fun hsynced => by cases hsynced⟩
  | ok s =>
    obtain ⟨hterminal, hstatus⟩ := h
    have hreverts : WalSync.resolution nowSecs onDisk (.ok s) wal =
        WalSync.revertFailed nowSecs s wal := by
      simp [WalSync.resolution, syncJobTerminalPolicy, hterminal, hstatus]
    rw [hreverts]
    unfold WalSync.revertFailed
    split_ifs
    · exact ⟨fun _ => rfl, fun hsynced => by cases hsynced⟩
    · exact ⟨fun _ => rfl, fun hsynced => by cases hsynced⟩

/-- Every step of a consistent phone is safe. -/
theorem WalSync.Consistent.safe (h : phone.Consistent) (action : UploadAction) :
    StatusSafe phone action (phone.step order action) where
  synced place wal changed hwal hchanged hold hsynced := by
    have hne : changed ≠ wal := by
      rintro rfl
      exact hold hsynced
    cases changes_of_ne hwal hchanged hne with
    | corrupted | uploaded | retired => cases hsynced
    | synced now huploading hplace => exact .inl ⟨now, _, rfl, huploading, hplace⟩
    | resolved fetch onDisk hpass hplace =>
      obtain ⟨s, rfl, hstatus⟩ := resolution_synced hold hsynced
      obtain ⟨waiting, hwaiting, -, hjob⟩ := h.awaiting _ hpass _ List.mem_cons_self _ hplace
      obtain rfl := Option.some.inj (hwal.symm.trans hwaiting)
      exact .inr ⟨s, onDisk, _, rfl, hstatus, ⟨_, _, _, hpass, hplace⟩, hjob⟩
  retried := by
    rintro fetch onDisk jobId place wal changed rfl hfetch ⟨nowSecs, members, rest, hpass, hplace⟩
      hwal hchanged
    have hresolved : (phone.resolve fetch onDisk).wals[place]? =
        some (WalSync.resolution nowSecs onDisk fetch wal) := by
      simp only [WalSync.resolve, hpass]
      exact getElem?_update_of_mem hwal hplace
    obtain rfl := Option.some.inj (hresolved.symm.trans hchanged)
    exact resolution_unsuccessful hfetch
  undisturbed sent huploading hanswer entry hentry := by
    rw [h.undisturbed huploading hentry hanswer, (h.sending sent huploading entry hentry).1]
  sending sent huploading entry hentry := by
    obtain ⟨hwal, hmiss, -⟩ := (consistent_step action h).sending sent huploading entry hentry
    exact ⟨entry.1, hwal, hmiss⟩
  waiting place wal changed hwal hchanged huploaded hne := by
    cases changes_of_ne hwal hchanged hne with
    | resolved fetch onDisk => exact ⟨fetch, onDisk, rfl⟩
    | corrupted _ _ _ hmiss | retired _ _ _ hmiss =>
      rw [huploaded] at hmiss
      cases hmiss
    | synced _ huploading hplace | uploaded _ _ huploading hplace =>
      have hmiss := h.apart huploading hplace hwal
      rw [huploaded] at hmiss
      cases hmiss
  retires := by
    rintro now sent rfl huploading place wal changed hwal hchanged hne
    cases changes_of_ne hwal hchanged hne with
    | retired _ huploading' holdest =>
      obtain rfl := Option.some.inj (huploading'.symm.trans huploading)
      refine ⟨rfl, fun entry hentry => ?_⟩
      have hleast := (List.min?_eq_some_iff.mp holdest).2 entry.1.timerStart
        (List.mem_map_of_mem (f := fun e : Entry => e.1.timerStart) hentry)
      omega
  oldest := by
    rintro now sent rfl huploading oldest hentry holdest
    obtain ⟨hwal, hmiss, hdisk⟩ := h.sending sent huploading oldest hentry
    have hmin : (sent.files.map (·.1.timerStart)).min? = some oldest.1.timerStart := by
      refine List.min?_eq_some_iff.mpr ⟨List.mem_map_of_mem (f := (·.1.timerStart)) hentry, ?_⟩
      intro start hstart
      obtain ⟨entry, hmem, rfl⟩ := List.mem_map.mp hstart
      exact holdest entry hmem
    rcases phone.answer_cases now .recoveryWindowExceeded with
      ⟨hidle, -⟩ | ⟨drain, answered, hdrain, hanswered, hwals, -, -⟩
    · rw [huploading] at hidle
      cases hidle
    · obtain rfl : answered = sent := by
        rw [WalSync.uploading, hdrain] at huploading
        exact Option.some.inj (hanswered.symm.trans huploading)
      refine ⟨WalSync.markOutsideRecoveryWindow oldest.1, ?_, rfl⟩
      show (phone.answer now .recoveryWindowExceeded).wals[oldest.2]? = _
      rw [hwals]
      show (phone.retireOutsideRecoveryWindow answered.files).wals[oldest.2]? = _
      simp only [WalSync.retireOutsideRecoveryWindow, hmin, List.getElem?_map, hwal,
        Option.map_some]
      rw [if_pos (by simp [hmiss, hdisk])]

theorem consistent_run (order : NewestFirst) (wals : List PhoneWal)
    (actions : List UploadAction) :
    (actions.foldl (WalSync.step order) { wals := wals }).Consistent := by
  have hstart : WalSync.Consistent { wals := wals } := ⟨nofun, nofun, nofun⟩
  generalize { wals := wals : WalSync } = phone at hstart ⊢
  induction actions generalizing phone with
  | nil => exact hstart
  | cons action actions ih => exact ih _ (consistent_step action hstart)

/-- Over every run, whatever the server answers and whenever recordings arrive, no step does to
a status what it must not. -/
theorem uploadStatus_safe (order : NewestFirst) (wals : List PhoneWal)
    (actions : List UploadAction) (action : UploadAction) :
    StatusSafe (actions.foldl (WalSync.step order) { wals := wals }) action
      ((actions.foldl (WalSync.step order) { wals := wals }).step order action) :=
  (consistent_run order wals actions).safe action

end Omi.Wals
