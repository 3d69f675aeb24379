import Mathlib
import Omi.Foundation.Runs
import Omi.Wals.Upload

/-! The batches of a drain: their shape, that nothing is attempted twice, and when a live-capture
claim covers all that the drain uploads of its conversation. -/
namespace Omi.Wals
open Omi.Foundation

/-! ### What a drain has to keep to -/

/-- The batch was sent, for the conversation. -/
def UploadBatch.Uploads (b : UploadBatch) (conversationId : String) : Prop :=
  b.files ≠ [] ∧ conversationOf b.batch = some conversationId

/-- The batch was sent with a live-capture claim on the conversation. -/
def UploadBatch.Claims (b : UploadBatch) (conversationId : String) : Prop :=
  b.Uploads conversationId ∧ b.claimLiveCapture = true

/-- At most five recordings of one conversation and one place. -/
structure UploadBatch.Shaped (b : UploadBatch) : Prop where
  length : b.batch.length ≤ 5
  conversation : ∀ first ∈ b.batch, ∀ second ∈ b.batch,
    first.1.conversationId = second.1.conversationId
  location : ∀ first ∈ b.batch, ∀ second ∈ b.batch,
    walLocationBatchKey first.1 = walLocationBatchKey second.1

/-- Every batch is shaped, each recording is in one batch at most, and the batch that claims a
conversation is the only one that uploads any of it. -/
structure Drain.Lawful (drain : Drain) : Prop where
  shaped : ∀ b ∈ drain.batches, b.Shaped
  once : ((drain.batches.flatMap UploadBatch.batch).map Prod.snd).Nodup
  claimed : ∀ conversationId, ∀ b ∈ drain.batches, b.Claims conversationId →
    ∀ other ∈ drain.batches, other.Uploads conversationId → other = b

/-! ### The next batch -/

section batch
variable {order : NewestFirst} {pending : List Entry}

/-- The places of a batch are distinct where those of the pending recordings are. -/
theorem batch_nodup (h : (pending.map Prod.snd).Nodup) :
    ((nextSyncUploadBatch order pending).map Prod.snd).Nodup := by
  have hsorted := ((order.perm pending).map Prod.snd).nodup_iff.mpr h
  exact hsorted.sublist (nextSyncUploadBatch_sublist.map Prod.snd)

theorem nextSyncUploadBatch_shaped (files : List Entry) (claim : Bool) :
    UploadBatch.Shaped ⟨nextSyncUploadBatch order pending, files, claim⟩ := by
  unfold nextSyncUploadBatch
  split
  next => exact ⟨by simp, by simp, by simp⟩
  next first rest hsort =>
    have hlike : ∀ entry ∈ ((first :: rest).filter fun entry =>
        entry.1.conversationId = first.1.conversationId &&
          walLocationBatchKey entry.1 = walLocationBatchKey first.1).take syncUploadBatchLimit,
        entry.1.conversationId = first.1.conversationId ∧
          walLocationBatchKey entry.1 = walLocationBatchKey first.1 := by
      intro entry hentry
      simpa using (List.mem_filter.mp (List.mem_of_mem_take hentry)).2
    refine ⟨?_, fun a ha b hb => ?_, fun a ha b hb => ?_⟩
    · exact List.length_take_le _ _
    · rw [(hlike a ha).1, (hlike b hb).1]
    · rw [(hlike a ha).2, (hlike b hb).2]

end batch

/-- The conversation of a batch is that of each of its recordings. -/
theorem UploadBatch.Shaped.conversationOf_eq {b : UploadBatch} (h : b.Shaped) {entry : Entry}
    (hentry : entry ∈ b.batch) : conversationOf b.batch = entry.1.conversationId := by
  cases hbatch : b.batch with
  | nil =>
    rw [hbatch] at hentry
    cases hentry
  | cons first rest =>
    have hfirst : first ∈ b.batch := by
      rw [hbatch]
      exact List.mem_cons_self
    exact h.conversation first hfirst entry hentry

/-! ### The invariant -/

/-- The drain may still form a batch of the recording. -/
def Drain.Pending (drain : Drain) (wal : PhoneWal) : Prop :=
  wal.status = .miss ∧ wal.storage = .disk ∧ wal.id ∉ drain.attemptedWalIds

def Drain.Claimed (drain : Drain) (conversationId : String) : Prop :=
  ∃ b ∈ drain.batches, b.Claims conversationId

/-- A lawful drain, with what it remembers of its batches: their recordings count as attempted, a
conversation uploaded without a claim is unclaimable, and of a claimed one nothing is pending. -/
structure Drain.Sound (drain : Drain) (wals : List PhoneWal) : Prop extends drain.Lawful where
  attempted : ∀ b ∈ drain.batches, ∀ entry ∈ b.batch, entry.1.id ∈ drain.attemptedWalIds ∧
    ∃ wal, wals[entry.2]? = some wal ∧ wal.id = entry.1.id
  unclaimed : ∀ b ∈ drain.batches, ∀ conversationId, b.Uploads conversationId →
    b.claimLiveCapture = false → conversationId ∈ drain.unclaimableConversationIds
  covered : ∀ conversationId, drain.Claimed conversationId → ∀ (place : ℕ) (wal : PhoneWal),
    wals[place]? = some wal → drain.Pending wal → wal.conversationId ≠ some conversationId

/-- The recording is pending, of a conversation that a batch of the drain has claimed. -/
def WalSync.Late (phone : WalSync) (wal : PhoneWal) : Prop :=
  ∃ drain conversationId, phone.drain = some drain ∧ drain.Pending wal ∧
    drain.Claimed conversationId ∧ wal.conversationId = some conversationId

/-- No recording that arrives, or that the reconciler puts back, is late. -/
def WalSync.NoneLate (phone : WalSync) : UploadAction → Prop
  | .arrive wal => ¬ phone.Late wal
  | .resolve fetch onDisk =>
    ∀ nowSecs jobId members rest, phone.pass = some ⟨nowSecs, (jobId, members) :: rest⟩ →
      ∀ place ∈ members, ∀ wal, phone.wals[place]? = some wal →
        ¬ phone.Late (WalSync.resolution nowSecs onDisk fetch wal)
  | _ => True

def WalSync.Sound (phone : WalSync) : Prop :=
  ∀ drain, phone.drain = some drain → drain.Sound phone.wals

/-- The recordings may change, where each keeps its id and none becomes pending that is late. -/
theorem Drain.Sound.of_wals {drain : Drain} {wals next : List PhoneWal} (h : drain.Sound wals)
    (hkept : ∀ (place : ℕ) (wal : PhoneWal), wals[place]? = some wal →
      ∃ after, next[place]? = some after ∧ after.id = wal.id)
    (hlate : ∀ conversationId, drain.Claimed conversationId → ∀ (place : ℕ) (wal : PhoneWal),
      next[place]? = some wal → drain.Pending wal → wal.conversationId ≠ some conversationId) :
    drain.Sound next := by
  refine { h with attempted := fun b hb entry hentry => ?_, covered := hlate }
  obtain ⟨hid, wal, hwal, hsame⟩ := h.attempted b hb entry hentry
  obtain ⟨after, hafter, hkeptId⟩ := hkept entry.2 wal hwal
  exact ⟨hid, after, hafter, hkeptId.trans hsame⟩

/-- The bookkeeping of the upload under way is not part of it. -/
theorem Drain.Sound.of_uploading {drain : Drain} {wals : List PhoneWal} (h : drain.Sound wals)
    (uploading : Option UploadBatch) : { drain with uploading := uploading }.Sound wals :=
  ⟨⟨h.shaped, h.once, h.claimed⟩, h.attempted, h.unclaimed, h.covered⟩

/-- Changes at some places that keep ids, conversations and storage, where what they make pending
is not late. -/
theorem Drain.Sound.update {phone : WalSync} {drain : Drain} (h : drain.Sound phone.wals)
    (places : List ℕ) {change : PhoneWal → PhoneWal}
    (hid : ∀ wal : PhoneWal, (change wal).id = wal.id)
    (hlate : ∀ place ∈ places, ∀ wal : PhoneWal, phone.wals[place]? = some wal →
      ∀ conversationId, drain.Claimed conversationId → drain.Pending (change wal) →
        (change wal).conversationId ≠ some conversationId) :
    drain.Sound (phone.update places change).wals := by
  refine h.of_wals (fun place wal hwal => ?_) fun conversationId hclaimed place wal hwal
    hpending => ?_
  · rw [WalSync.getElem?_update, hwal]
    refine ⟨_, rfl, ?_⟩
    split_ifs
    · exact hid wal
    · rfl
  · rw [WalSync.getElem?_update] at hwal
    obtain ⟨before, hbefore, rfl⟩ := Option.map_eq_some_iff.mp hwal
    split_ifs at hpending ⊢ with hplace
    · exact hlate place (by simpa using hplace) before hbefore conversationId hclaimed hpending
    · exact h.covered conversationId hclaimed place before hbefore hpending

/-! ### A turn of the drain -/

section send
variable {phone : WalSync} {order : NewestFirst} {drain : Drain} {nowSeconds : ℕ}

theorem nextBatch_nodup : ((phone.nextBatch order drain nowSeconds).map Prod.snd).Nodup :=
  batch_nodup ((places_candidates_nodup phone drain).sublist (List.filter_sublist.map Prod.snd))

/-- A batch that claims holds all that is pending of its conversation. -/
theorem mem_batch_of_claims {batch : List Entry} {conversationId : String}
    (hbatch : batch = phone.nextBatch order drain nowSeconds)
    (hclaims : WalSync.claims drain (phone.candidates drain) batch nowSeconds = true)
    (hconversation : conversationOf batch = some conversationId) :
    conversationId ∉ drain.unclaimableConversationIds ∧
    ∀ entry ∈ phone.candidates drain, entry.1.conversationId = some conversationId →
      entry ∈ batch := by
  unfold WalSync.claims canClaimLiveCapture at hclaims
  simp only [hconversation, Option.any_some, Bool.and_eq_true, Bool.not_eq_true',
    List.length_map, decide_eq_true_eq] at hclaims
  obtain ⟨hclaimable, -, hlength⟩ := hclaims
  refine ⟨by simpa using hclaimable, fun entry hentry hown => ?_⟩
  -- the batch is a part of the conversation's pending recordings, and no shorter
  have hnodup : batch.Nodup := by
    rw [hbatch]
    exact nextBatch_nodup.of_map Prod.snd
  have hsubset : batch ⊆ (phone.candidates drain).filter fun entry =>
      entry.1.conversationId = some conversationId := by
    intro member hmember
    have hshaped : UploadBatch.Shaped ⟨batch, [], false⟩ := by
      rw [hbatch]
      exact nextSyncUploadBatch_shaped [] false
    have hown := (hshaped.conversationOf_eq hmember).symm.trans hconversation
    rw [hbatch] at hmember
    exact List.mem_filter.mpr ⟨WalSync.mem_nextBatch hmember, by simpa using hown⟩
  have hperm := (List.subperm_of_subset hnodup hsubset).perm_of_length_le hlength
  exact hperm.mem_iff.mpr (List.mem_filter.mpr ⟨hentry, by simpa using hown⟩)

/-- Of a conversation that was claimed before, no batch is formed. -/
theorem Drain.Sound.conversationOf_ne (h : drain.Sound phone.wals) {conversationId : String}
    (hclaimed : drain.Claimed conversationId) {onDisk : String → Bool} :
    conversationOf (phone.formBatch order drain nowSeconds onDisk).batch ≠
      some conversationId := by
  intro hconversation
  obtain ⟨entry, hentry, hown⟩ := Option.bind_eq_some_iff.mp hconversation
  obtain ⟨hwal, hmiss, hdisk, hfresh⟩ :=
    WalSync.mem_candidates.mp (WalSync.mem_nextBatch (List.mem_of_mem_head? hentry))
  exact h.covered conversationId hclaimed entry.2 entry.1 hwal ⟨hmiss, hdisk, hfresh⟩ hown

/-- Forming a batch keeps the drain sound. -/
theorem Drain.Sound.formed (h : drain.Sound phone.wals) {onDisk : String → Bool} {b : UploadBatch}
    (hb : b = phone.formBatch order drain nowSeconds onDisk) :
    (drain.formed b).Sound phone.wals := by
  have hshaped : b.Shaped := by
    rw [hb]
    exact nextSyncUploadBatch_shaped _ _
  have hmember : ∀ entry ∈ b.batch, phone.wals[entry.2]? = some entry.1 ∧
      entry.1.id ∉ drain.attemptedWalIds := by
    intro entry hentry
    rw [hb] at hentry
    obtain ⟨hwal, -, -, hfresh⟩ := WalSync.mem_candidates.mp (WalSync.mem_nextBatch hentry)
    exact ⟨hwal, hfresh⟩
  have hclaims : ∀ conversationId, b.Claims conversationId →
      conversationId ∉ drain.unclaimableConversationIds ∧
      ∀ entry ∈ phone.candidates drain, entry.1.conversationId = some conversationId →
        entry ∈ b.batch := by
    rintro conversationId ⟨⟨-, hconversation⟩, hclaim⟩
    rw [hb] at hclaim hconversation ⊢
    exact mem_batch_of_claims rfl hclaim hconversation
  have hold : ∀ conversationId, drain.Claimed conversationId → ¬ b.Uploads conversationId := by
    rintro conversationId hclaimed ⟨-, hconversation⟩
    rw [hb] at hconversation
    exact h.conversationOf_ne hclaimed hconversation
  have hbatches : ∀ other ∈ (drain.formed b).batches, other ∈ drain.batches ∨ other = b := by
    intro other hother
    simpa [Drain.formed] using hother
  refine ⟨⟨fun other hother => ?_, ?_, fun conversationId first hfirst hclaim other hother
    hupload => ?_⟩, fun other hother entry hentry => ?_, fun other hother conversationId hupload
    hunclaimed => ?_, fun conversationId hclaimed place wal hwal hpending hown => ?_⟩
  · rcases hbatches other hother with hbefore | rfl
    · exact h.shaped other hbefore
    · exact hshaped
  · have hplaces : (b.batch.map Prod.snd).Nodup := by
      rw [hb]
      exact nextBatch_nodup
    simp only [Drain.formed, List.flatMap_append, List.flatMap_singleton, List.map_append]
    refine h.once.append hplaces fun place hplace hnew => ?_
    obtain ⟨old, holdEntry, rfl⟩ := List.mem_map.mp hplace
    obtain ⟨entry, hentry, hsame⟩ := List.mem_map.mp hnew
    obtain ⟨other, hother, hbatch⟩ := List.mem_flatMap.mp holdEntry
    obtain ⟨hattempted, wal, hwal, hid⟩ := h.attempted other hother old hbatch
    obtain ⟨hentryWal, hfresh⟩ := hmember entry hentry
    rw [← hsame, hentryWal] at hwal
    obtain rfl := Option.some.inj hwal
    exact hfresh (hid ▸ hattempted)
  · rcases hbatches first hfirst with hbefore | rfl
    · rcases hbatches other hother with hotherBefore | rfl
      · exact h.claimed conversationId first hbefore hclaim other hotherBefore hupload
      · exact absurd hupload (hold conversationId ⟨first, hbefore, hclaim⟩)
    · rcases hbatches other hother with hbefore | rfl
      · cases hunclaimed : other.claimLiveCapture with
        | true =>
          exact absurd hclaim.1 (hold conversationId ⟨other, hbefore, hupload, hunclaimed⟩)
        | false =>
          exact absurd (h.unclaimed other hbefore conversationId hupload hunclaimed)
            (hclaims conversationId hclaim).1
      · rfl
  · rcases hbatches other hother with hbefore | rfl
    · obtain ⟨hattempted, hwal⟩ := h.attempted other hbefore entry hentry
      exact ⟨List.mem_append_left _ hattempted, hwal⟩
    · exact ⟨List.mem_append_right _ (List.mem_map_of_mem hentry), entry.1,
        (hmember entry hentry).1, rfl⟩
  · rcases hbatches other hother with hbefore | rfl
    · have hstays := h.unclaimed other hbefore conversationId hupload hunclaimed
      simp only [Drain.formed]
      split_ifs
      · exact hstays
      · exact List.mem_append_left _ hstays
    · simp only [Drain.formed, hunclaimed, hupload.2]
      simp
  · obtain ⟨hmiss, hdisk, hfresh⟩ := hpending
    rw [Drain.formed, List.mem_append, not_or] at hfresh
    obtain ⟨other, hother, hclaim⟩ := hclaimed
    rcases hbatches other hother with hbefore | rfl
    · exact h.covered conversationId ⟨other, hbefore, hclaim⟩ place wal hwal
        ⟨hmiss, hdisk, hfresh.1⟩ hown
    · have hcandidate : (wal, place) ∈ phone.candidates drain :=
        WalSync.mem_candidates.mpr ⟨hwal, hmiss, hdisk, hfresh.1⟩
      have hbatch := (hclaims conversationId hclaim).2 (wal, place) hcandidate hown
      exact hfresh.2 (List.mem_map_of_mem (f := fun entry : Entry => entry.1.id) hbatch)

end send

/-! ### Every run -/

theorem sound_send {phone : WalSync} (order : NewestFirst) (nowSeconds : ℕ) (onDisk : String → Bool)
    (h : phone.Sound) : (phone.send order nowSeconds onDisk).Sound := by
  intro next hnext
  cases hdrain : phone.drain with
  | none =>
    simp only [WalSync.send, hdrain] at hnext
    cases hnext
  | some drain =>
    rcases WalSync.send_cases hdrain order nowSeconds onDisk with
      hsame | hends | ⟨b, missing, -, hb, -, hforms⟩
    · rw [hsame] at hnext ⊢
      exact h next hnext
    · rw [hends] at hnext
      cases hnext
    · rw [hforms] at hnext ⊢
      obtain rfl := Option.some.inj hnext
      refine ((h drain hdrain).formed hb).update missing (fun _ => rfl) ?_
      rintro place - wal - conversationId - ⟨hmiss, -⟩
      cases hmiss

/-- Retiring leaves less pending. -/
theorem Drain.Sound.retire {phone : WalSync} {drain : Drain} (h : drain.Sound phone.wals)
    (rejectedBatch : List Entry) :
    drain.Sound (phone.retireOutsideRecoveryWindow rejectedBatch).wals := by
  unfold WalSync.retireOutsideRecoveryWindow
  split
  next => exact h
  next provenTooOld holdest =>
    refine h.of_wals (fun place wal hwal => ?_) fun conversationId hclaimed place wal hwal
      hpending => ?_
    · rw [List.getElem?_map, hwal]
      refine ⟨_, rfl, ?_⟩
      beta_reduce
      split_ifs <;> rfl
    · rw [List.getElem?_map] at hwal
      obtain ⟨before, hbefore, rfl⟩ := Option.map_eq_some_iff.mp hwal
      split_ifs at hpending ⊢ with hretired
      · cases hpending.1
      · exact h.covered conversationId hclaimed place before hbefore hpending

/-- An answer makes nothing pending. -/
theorem Drain.Sound.answered {phone : WalSync} {drain : Drain} (h : drain.Sound phone.wals)
    (now : ℕ) (sent : UploadBatch) (outcome : UploadOutcome) :
    drain.Sound (phone.answered now sent outcome).wals := by
  cases outcome with
  | completed =>
    refine h.update _ (fun _ => rfl) ?_
    rintro place - wal - conversationId - ⟨hmiss, -⟩
    cases hmiss
  | queued jobId =>
    refine h.update _ (fun _ => rfl) ?_
    rintro place - wal - conversationId - ⟨hmiss, -⟩
    cases hmiss
  | recoveryWindowExceeded => exact h.retire sent.files
  | rateLimited | quarantined | failed => exact h

theorem sound_answer {phone : WalSync} (now : ℕ) (outcome : UploadOutcome) (h : phone.Sound) :
    (phone.answer now outcome).Sound := by
  rcases phone.answer_cases now outcome with
    ⟨-, hsame⟩ | ⟨drain, sent, hdrain, -, hwals, -, hends⟩
  · rwa [hsame]
  · intro next hnext
    rcases hends with hnone | hsome
    · rw [hnone] at hnext
      cases hnext
    · rw [hsome] at hnext
      obtain rfl := Option.some.inj hnext
      rw [hwals]
      exact ((h drain hdrain).answered now sent outcome).of_uploading none

theorem sound_arrive {phone : WalSync} {wal : PhoneWal} (h : phone.Sound) (hlate : ¬ phone.Late wal) :
    WalSync.Sound { phone with wals := phone.wals ++ [wal] } := by
  intro drain hdrain
  have hsound := h drain hdrain
  refine hsound.of_wals (fun place before hbefore => ?_) fun conversationId hclaimed place after
    hafter hpending hown => ?_
  · obtain ⟨hplace, -⟩ := List.getElem?_eq_some_iff.mp hbefore
    exact ⟨before, by rw [List.getElem?_append_left hplace, hbefore], rfl⟩
  · rw [List.getElem?_append] at hafter
    split_ifs at hafter with hplace
    · exact hsound.covered conversationId hclaimed place after hafter hpending hown
    · obtain rfl := List.mem_singleton.mp (List.mem_of_getElem? hafter)
      exact hlate ⟨drain, conversationId, hdrain, hpending, hclaimed, hown⟩

theorem sound_resolve {phone : WalSync} {fetch : SyncJobFetch} {onDisk : String → Bool}
    (h : phone.Sound) (hlate : phone.NoneLate (.resolve fetch onDisk)) :
    (phone.resolve fetch onDisk).Sound := by
  rcases phone.resolve_cases fetch onDisk with hover |
    ⟨nowSecs, jobId, members, rest, hpass, hresolved⟩
  · rw [hover]
    exact h
  · rw [hresolved]
    intro drain hdrain
    refine (h drain hdrain).update members (WalSync.resolution_id nowSecs onDisk fetch) ?_
    intro place hplace wal hwal conversationId hclaimed hpending hown
    exact hlate nowSecs jobId members rest hpass place hplace wal hwal
      ⟨drain, conversationId, hdrain, hpending, hclaimed, hown⟩

/-- A new drain has formed no batch. -/
theorem sound_syncAll {phone : WalSync} (liveCaptureOnly : Bool) (nowSeconds : ℕ) (limited : Bool)
    (h : phone.Sound) : (phone.syncAll liveCaptureOnly nowSeconds limited).Sound := by
  unfold WalSync.syncAll
  split_ifs with hrunning hpending
  · exact h
  · intro drain hdrain
    obtain rfl := Option.some.inj hdrain
    exact ⟨⟨by simp, by simp, by simp⟩, by simp, by simp, by simp [Drain.Claimed]⟩
  · intro drain hdrain
    cases hdrain

theorem sound_step (order : NewestFirst) {phone : WalSync} (action : UploadAction)
    (h : phone.Sound) (hlate : phone.NoneLate action) : (phone.step order action).Sound := by
  cases action with
  | arrive wal => exact sound_arrive h hlate
  | syncAll liveCaptureOnly nowSeconds limited =>
    exact sound_syncAll liveCaptureOnly nowSeconds limited h
  | cancelSync => exact h
  | send nowSeconds onDisk => exact sound_send order nowSeconds onDisk h
  | answer now outcome => exact sound_answer now outcome h
  | reconcile nowSecs =>
    show (phone.reconcile nowSecs).Sound
    unfold WalSync.reconcile
    split_ifs <;> exact h
  | resolve fetch onDisk => exact sound_resolve h hlate

/-- In every run in which no recording of a conversation arrives after a claim on it, every drain
is lawful at every time. -/
theorem drains_lawful (order : NewestFirst) {start : WalSync} (hidle : start.drain = none)
    {actions : List UploadAction}
    (hlate : EveryStep (WalSync.step order) WalSync.NoneLate start actions) :
    ∀ drain, (actions.foldl (WalSync.step order) start).drain = some drain → drain.Lawful := by
  have hstart : start.Sound := by
    intro drain hdrain
    rw [hidle] at hdrain
    cases hdrain
  have hsound := hlate.invariant hstart fun phone action h hnone => sound_step order action h hnone
  exact fun drain hdrain => (hsound drain hdrain).toLawful

/-! ### Two drains -/

/-- The stable sort. -/
def newestFirst : NewestFirst where
  sort := sortBy fun entry => -(entry.1.timerStart : ℤ)
  perm := sortBy_perm _
  descending entries := by
    refine (sortBy_pairwise (fun entry : Entry => -(entry.1.timerStart : ℤ)) entries).imp ?_
    intro a b hle
    omega

def recordingPart (timerStart : ℕ) (conversationId : Option String) : PhoneWal where
  timerStart := timerStart
  codec := .opus
  seconds := 60
  status := .miss
  storage := .disk
  filePath := some "audio.bin"
  conversationId := conversationId

def twoParts : WalSync where
  wals := [recordingPart 0 (some "c"), recordingPart 60 (some "c")]

/-- The two parts are claimed and uploaded, and a recording that arrives meanwhile follows. -/
def uploadWith (arrived : PhoneWal) : List UploadAction :=
  [.syncAll false 120 false, .send 120 fun _ => true, .answer 130 (.queued "job"), .arrive arrived,
    .send 190 fun _ => true]

theorem drains_lawful_otherRecording :
    ∃ drain, ((uploadWith (recordingPart 120 none)).foldl (WalSync.step newestFirst) twoParts).drain =
      some drain ∧ drain.batches.length = 2 ∧ drain.Lawful := by
  have hlate : EveryStep (WalSync.step newestFirst) WalSync.NoneLate twoParts
      (uploadWith (recordingPart 120 none)) := by
    refine ⟨trivial, trivial, trivial, ?_, trivial, trivial⟩
    rintro ⟨_, _, _, _, _, hown⟩
    cases hown
  exact ⟨_, rfl, rfl, drains_lawful newestFirst rfl hlate _ rfl⟩

/-- A third part of the conversation arrives: it is claimed again, apart from the first two. -/
theorem not_drains_lawful :
    ∃ drain, ((uploadWith (recordingPart 120 (some "c"))).foldl (WalSync.step newestFirst)
      twoParts).drain = some drain ∧ ¬ drain.Lawful := by
  refine ⟨_, rfl, fun hlawful => ?_⟩
  have hsame := hlawful.claimed "c" _ List.mem_cons_self ⟨⟨by decide, rfl⟩, rfl⟩ _
    (List.mem_cons_of_mem _ List.mem_cons_self) ⟨by decide, rfl⟩
  exact absurd hsame (by decide)

end Omi.Wals
