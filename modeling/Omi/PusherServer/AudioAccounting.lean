import Omi.PusherServer.PrivateCloudCustody

/-! Every byte that is missing is missing for one of the known reasons, and the laws of a whole
connection. -/
namespace Omi.PusherServer
open Omi.Foundation

section tried
variable {β : Type*} {log more : List (CloudEvent β)} {batch : PendingBatch β}

/-- Each retry of a batch stands for a failed upload of what was then in it. -/
structure Tried (log : List (CloudEvent β)) (batch : PendingBatch β) : Prop where
  bound : batch.retries ≤ privateCloudSyncMaxRetries
  failed : ∀ earlier, batch.retries = earlier + 1 →
    ∃ front, .failed batch.conversationId front earlier ∈ log ∧ front <+: batch.data

theorem Tried.mono (h : Tried log batch) (hmore : log ⊆ more) : Tried more batch where
  bound := h.bound
  failed := by
    intro earlier hretries
    obtain ⟨front, hmem, hprefix⟩ := h.failed earlier hretries
    exact ⟨front, hmore hmem, hprefix⟩

end tried

namespace AudioWorld
variable {β : Type*} {session : PusherSession} {world : AudioWorld β}

/-- The batches that wait, and the one whose upload is not done. -/
def InHand (world : AudioWorld β) (batch : PendingBatch β) : Prop :=
  batch ∈ world.pending ∨ world.flushing = some ⟨batch, false⟩

structure Explained (session : PusherSession) (world : AudioWorld β) : Prop where
  lawful : Lawful (CloudEvent.Because session) world.log
  tried : ∀ batch, world.InHand batch → Tried world.log batch
  gone : ∀ conversationId ∈ world.deletedConversations, .gone conversationId ∈ world.log

namespace Explained

/-- The log grows lawfully, and the batches stay. -/
theorem of_batches (h : world.Explained session) {next : AudioWorld β}
    (hsame : SameBatches world next) (hmore : world.log ⊆ next.log)
    (hlawful : Lawful (CloudEvent.Because session) next.log) : next.Explained session where
  lawful := hlawful
  tried := by
    intro batch hbatch
    rw [InHand, hsame.pending, hsame.flushing] at hbatch
    exact (h.tried batch hbatch).mono hmore
  gone := by
    intro conversationId hmem
    rw [hsame.deleted] at hmem
    exact hmore (h.gone conversationId hmem)

theorem of_eq (h : world.Explained session) {next : AudioWorld β} (hsame : SameBatches world next)
    (hlog : next.log = world.log) : next.Explained session :=
  h.of_batches hsame (hlog ▸ List.Subset.refl _) (hlog ▸ h.lawful)

theorem record (h : world.Explained session) {event : CloudEvent β}
    (hbecause : event.Because session world.log) : (world.record event).Explained session :=
  h.of_batches ⟨rfl, rfl, rfl⟩ (List.subset_append_left _ _) (h.lawful.concat hbecause)

theorem queueChunk (h : world.Explained session) (conversationId : String) (timestamp : ℚ) :
    (world.queueChunk conversationId timestamp).Explained session := by
  refine h.of_batches ⟨rfl, rfl, rfl⟩ (List.subset_append_left _ _) ?_
  unfold AudioWorld.queueChunk appendBounded
  by_cases hfull : world.privateCloudQueue.length = privateCloudQueueMaxSize
  · rw [if_pos hfull]
    cases hchunks : world.privateCloudQueue with
    | nil => simpa using h.lawful
    | cons oldest rest =>
      rw [hchunks] at hfull
      exact h.lawful.concat hfull
  · rw [if_neg hfull]
    simpa using h.lawful

theorem extendPrivate (h : world.Explained session) (haccounted : world.Accounted)
    (conversationId : String) (timestamp : ℚ) (data : List β) :
    (world.extendPrivate conversationId timestamp data).Explained session := by
  unfold AudioWorld.extendPrivate
  cases hextend : extendBounded world.privateCloudSyncBuffer data world.budget with
  | some extended => exact h.of_eq ⟨rfl, rfl, rfl⟩ rfl
  | none =>
    have hstarted : ({ world with privateCloudChunkStartTime :=
        world.privateCloudChunkStartTime <|> some timestamp } : AudioWorld β).Explained session :=
      h.of_eq ⟨rfl, rfl, rfl⟩ rfl
    refine hstarted.record ?_
    -- the budget is full: it has the limit of the connection
    unfold extendBounded ByteBudget.reserve at hextend
    split_ifs at hextend with hfull
    · rw [haccounted.limit] at hfull
      exact hfull
    · simp at hextend

theorem receivePrivate (h : world.Explained session) (haccounted : world.Accounted)
    (timestamp : ℚ) (data : List β) :
    (world.receivePrivate session timestamp data).Explained session := by
  unfold AudioWorld.receivePrivate
  cases world.conversation with
  | none => exact h
  | some current =>
    have hheard : (world.record (.received current data)).Explained session := h.record trivial
    dsimp only
    by_cases hsync : session.privateCloudSyncEnabled = true
    · rw [if_pos hsync]
      have hextended := hheard.extendPrivate (haccounted.record _) current timestamp data
      unfold AudioWorld.queueFullChunk
      split_ifs
      · exact (hextended.queueChunk current _).of_eq ⟨rfl, rfl, rfl⟩ rfl
      · exact hextended
    · rw [if_neg hsync]
      have hoff : session.privateCloudSyncEnabled = false := by simpa using hsync
      exact hheard.record hoff

theorem receive (h : world.Explained session) (haccounted : world.Accounted) (frame : Frame β)
    (now : ℚ) : (world.receive session frame now).Explained session := by
  cases frame with
  | heartbeat => exact h
  | other => exact h
  | conversation newConversationId =>
    unfold AudioWorld.receive AudioWorld.receiveConversation
    cases world.bufferedConversation session with
    | none => exact h.of_eq ⟨rfl, rfl, rfl⟩ rfl
    | some current =>
      by_cases hsame : current = newConversationId
      · simp only [if_pos hsame]
        exact h.of_eq ⟨rfl, rfl, rfl⟩ rfl
      · simp only [if_neg hsame]
        exact (h.queueChunk current _).of_eq ⟨rfl, rfl, rfl⟩ rfl
  | audio timestamp data =>
    have htrigger : (world.extendTrigger session data).Explained session := by
      refine h.of_eq (.extendTrigger data) ?_
      unfold AudioWorld.extendTrigger
      split_ifs
      · cases extendBounded world.triggerAudiobuffer data world.budget <;> rfl
      · rfl
    have hwebhook : ((world.extendTrigger session data).extendWebhook session data).Explained
        session := by
      refine htrigger.of_eq (.extendWebhook data) ?_
      unfold AudioWorld.extendWebhook
      split_ifs
      · cases extendBounded (world.extendTrigger session data).audiobuffer data
            (world.extendTrigger session data).budget <;> rfl
      · rfl
    have hextended : ((world.extendTrigger session data).extendWebhook session data).Accounted :=
      (haccounted.extendTrigger data).extendWebhook data
    have hprivate := hwebhook.receivePrivate hextended timestamp data
    refine hprivate.of_eq (SameBatches.queueTrigger.trans .queueWebhook) ?_
    show ((AudioWorld.queueTrigger session _).queueWebhook session).log = _
    unfold AudioWorld.queueWebhook AudioWorld.queueTrigger
    split_ifs <;> rfl

theorem close (h : world.Explained session) (now : ℚ) :
    (world.close session now).Explained session := by
  unfold AudioWorld.close
  cases world.bufferedConversation session with
  | none => exact h.of_eq ⟨rfl, rfl, rfl⟩ rfl
  | some current => exact (h.queueChunk current _).of_eq ⟨rfl, rfl, rfl⟩ rfl

/-! ### The private-cloud worker -/

theorem openBatch (h : world.Explained session) (chunk : PrivateCloudChunk β) (monotonic : ℚ) :
    (world.openBatch chunk monotonic).Explained session := by
  have hbounded : world.boundPrivatePending.Explained session := by
    rcases world.boundPrivatePending_cases with hsame | ⟨oldest, rest, hpending, hfull, hbound⟩
    · rw [hsame]
      exact h
    · rw [hbound]
      have hmore : world.log ⊆ world.log ++
          [.pendingEvicted oldest.conversationId oldest.data world.pending.length] :=
        List.subset_append_left _ _
      refine ⟨h.lawful.concat hfull, ?_, fun conversationId hmem => hmore (h.gone _ hmem)⟩
      rintro batch (hwaits | hflushing)
      · refine (h.tried batch (.inl ?_)).mono hmore
        rw [hpending]
        exact List.mem_cons_of_mem _ hwaits
      · exact (h.tried batch (.inr hflushing)).mono hmore
  rcases world.openBatch_cases chunk monotonic with ⟨-, hopen⟩ | ⟨-, hopen⟩
  · rw [hopen]
    exact h
  · rw [hopen]
    refine ⟨hbounded.lawful, ?_, hbounded.gone⟩
    rintro batch (hwaits | hflushing)
    · rcases List.mem_append.mp hwaits with hold | hnew
      · exact hbounded.tried batch (.inl hold)
      · rw [List.mem_singleton.mp hnew]
        exact ⟨Nat.zero_le _, fun earlier hretries => by cases hretries⟩
    · exact hbounded.tried batch (.inr hflushing)

theorem extendBatch (h : world.Explained session) (conversationId : String) (data : List β) :
    (world.extendBatch conversationId data).Explained session := by
  refine ⟨h.lawful, ?_, h.gone⟩
  rintro batch (hwaits | hflushing)
  · obtain ⟨old, hold, rfl⟩ := List.mem_map.mp hwaits
    obtain ⟨hbound, hfailed⟩ := h.tried old (.inl hold)
    by_cases howner : old.conversationId = conversationId
    · rw [if_pos howner]
      refine ⟨hbound, fun earlier hretries => ?_⟩
      obtain ⟨front, hmem, hprefix⟩ := hfailed earlier hretries
      exact ⟨front, hmem, hprefix.trans (List.prefix_append _ _)⟩
    · rw [if_neg howner]
      exact ⟨hbound, hfailed⟩
  · exact h.tried batch (.inr hflushing)

theorem addToBatch (h : world.Explained session) (chunk : PrivateCloudChunk β) (monotonic : ℚ) :
    (world.addToBatch chunk monotonic).Explained session := by
  unfold AudioWorld.addToBatch
  split_ifs with hgone
  · refine h.of_batches ⟨rfl, rfl, rfl⟩ (List.subset_append_left _ _) ?_
    exact h.lawful.concat (h.gone _ hgone)
  · exact (h.openBatch chunk monotonic).extendBatch _ _

theorem startFlush (h : world.Explained session) (hkeyed : world.Keyed) :
    world.startFlush.Explained session := by
  rcases world.startFlush_cases hkeyed with hsame | ⟨rest, hpassed⟩ | ⟨rest, before, batch, after,
    hidle, hsplit, hstarted⟩
  · rw [hsame]
    exact h
  · rw [hpassed]
    exact h.of_eq ⟨rfl, rfl, rfl⟩ rfl
  · rw [hstarted]
    refine ⟨h.lawful, ?_, h.gone⟩
    rintro other (hwaits | hflushing)
    · refine h.tried other (.inl ?_)
      rw [hsplit.eq]
      rcases List.mem_append.mp hwaits with hbefore | hafter
      · exact List.mem_append_left _ hbefore
      · exact List.mem_append_right _ (List.mem_cons_of_mem _ hafter)
    · simp only at hflushing
      split_ifs at hflushing
      cases hflushing
      refine h.tried batch (.inl ?_)
      rw [hsplit.eq]
      simp

theorem uploadStored (h : world.Explained session) : world.uploadStored.Explained session := by
  unfold AudioWorld.uploadStored
  rcases world.flushing with - | ⟨batch, - | -⟩
  · exact h
  · have hmore : world.log ⊆ world.log ++ [.uploaded batch.conversationId batch.data] :=
      List.subset_append_left _ _
    refine ⟨h.lawful.concat trivial, ?_, fun conversationId hmem => hmore (h.gone _ hmem)⟩
    rintro other (hwaits | hflushing)
    · exact (h.tried other (.inl hwaits)).mono hmore
    · cases hflushing
  · exact h

theorem uploadFailed (h : world.Explained session) (monotonic : ℚ) :
    (world.uploadFailed monotonic).Explained session := by
  unfold AudioWorld.uploadFailed
  rcases hflushing : world.flushing with - | ⟨batch, - | -⟩
  · exact h
  · have htried := h.tried batch (.inr hflushing)
    have hmore : world.log ⊆
        world.log ++ [.failed batch.conversationId batch.data batch.retries] :=
      List.subset_append_left _ _
    have hlawful : Lawful (CloudEvent.Because session)
        (world.log ++ [.failed batch.conversationId batch.data batch.retries]) :=
      h.lawful.concat ⟨htried.bound, htried.failed⟩
    dsimp only
    by_cases hretry : batch.retries < privateCloudSyncMaxRetries
    · rw [if_pos hretry]
      refine ⟨hlawful, ?_, fun conversationId hmem => hmore (h.gone _ hmem)⟩
      rintro other (hwaits | hother)
      · rcases List.mem_append.mp hwaits with hold | hnew
        · exact (h.tried other (.inl hold)).mono hmore
        · rw [List.mem_singleton.mp hnew]
          refine ⟨hretry, fun earlier hretries => ?_⟩
          have hearlier : earlier = batch.retries := (Nat.succ.inj hretries).symm
          refine ⟨batch.data, ?_, List.prefix_refl _⟩
          rw [hearlier]
          exact List.mem_append_right _ (List.mem_singleton.mpr rfl)
      · cases hother
    · rw [if_neg hretry]
      refine ⟨hlawful, ?_, fun conversationId hmem => hmore (h.gone _ hmem)⟩
      rintro other (hwaits | hother)
      · exact (h.tried other (.inl hwaits)).mono hmore
      · cases hother
  · exact h

theorem finishFlush (h : world.Explained session) (ended : FlushEnd) :
    (world.finishFlush ended).Explained session := by
  unfold AudioWorld.finishFlush
  rcases world.flushing with - | ⟨batch, - | -⟩
  · exact h
  · exact h
  · have hreleased : ({ world with
        flushing := none
        budget := world.budget.release batch.data.length } : AudioWorld β).Explained session := by
      refine ⟨h.lawful, ?_, h.gone⟩
      rintro other (hwaits | hother)
      · exact h.tried other (.inl hwaits)
      · cases hother
    cases ended with
    | applied => exact hreleased
    | other => exact hreleased
    | gone =>
      have hmore : world.log ⊆ world.log ++ [.gone batch.conversationId] :=
        List.subset_append_left _ _
      refine ⟨h.lawful.concat trivial, ?_, ?_⟩
      · intro other hother
        exact (hreleased.tried other hother).mono hmore
      · intro conversationId hmem
        rcases List.mem_cons.mp hmem with rfl | hold
        · exact List.mem_append_right _ (List.mem_singleton.mpr rfl)
        · exact hmore (h.gone conversationId hold)

theorem step (h : world.Explained session) (haccounted : world.Accounted) (hkeyed : world.Keyed)
    (action : AudioAction β) : (world.step session action).Explained session := by
  cases action with
  | receive frame now =>
    simp only [AudioWorld.step]
    split_ifs
    · exact h.receive haccounted frame now
    · exact h
  | close now =>
    simp only [AudioWorld.step]
    split_ifs
    · exact h.close now
    · exact h
  | privateRound monotonic =>
    simp only [AudioWorld.step, AudioWorld.privateRound]
    split_ifs with hbusy
    · exact h
    · have hidle : world.flushing = none := by
        rw [not_or] at hbusy
        simpa using hbusy.1
      have hdrained := @drain_induction β world (fun world => world.Explained session) monotonic
        (fun world chunk rest _ hexplained =>
          ((hexplained.of_eq ⟨rfl, rfl, rfl⟩ rfl : world.Explained session).addToBatch chunk
            monotonic).of_eq ⟨rfl, rfl, rfl⟩ rfl)
        world.privateCloudQueue hidle (h.of_eq ⟨rfl, rfl, rfl⟩ rfl)
      exact hdrained.of_eq ⟨rfl, rfl, rfl⟩ rfl
  | startFlush => exact h.startFlush hkeyed
  | uploadStored => exact h.uploadStored
  | uploadFailed monotonic => exact h.uploadFailed monotonic
  | finishFlush ended => exact h.finishFlush ended
  | audioRound =>
    simp only [AudioWorld.step, AudioWorld.audioRound]
    split_ifs
    · exact h
    · exact h.of_eq ⟨rfl, rfl, rfl⟩ rfl
  | itemProcessed =>
    simp only [AudioWorld.step, AudioWorld.itemProcessed]
    cases world.processing with
    | nil => exact h
    | cons item rest => exact h.of_eq ⟨rfl, rfl, rfl⟩ rfl

end Explained

/-! ### A whole connection -/

structure Sound (session : PusherSession) (world : AudioWorld β) : Prop where
  keyed : world.Keyed
  owned : world.Owned session
  accounted : world.Accounted
  kept : world.Kept
  explained : world.Explained session

theorem Sound.step (h : world.Sound session) (action : AudioAction β) :
    (world.step session action).Sound session where
  keyed := h.keyed.step action
  owned := h.owned.step h.keyed action
  accounted := h.accounted.step h.keyed h.owned action
  kept := h.kept.step h.keyed h.owned action
  explained := h.explained.step h.accounted h.keyed action

theorem sound_start (session : PusherSession) : ({} : AudioWorld β).Sound session where
  keyed := ⟨List.nodup_nil, fun flush hflush => by cases hflush⟩
  owned := .of_empty rfl
  accounted := ⟨rfl, Nat.zero_le _, rfl⟩
  kept := fun conversationId => Custody.nil
  explained := by
    refine ⟨lawful_nil, ?_, fun conversationId hmem => by cases hmem⟩
    rintro batch (hwaits | hflushing)
    · cases hwaits
    · cases hflushing

theorem sound_run (session : PusherSession) (actions : List (AudioAction β)) :
    (actions.foldl (step session) {}).Sound session := by
  induction actions using List.reverseRecOn with
  | nil => exact sound_start session
  | append_singleton actions action ih =>
    rw [List.foldl_append]
    exact ih.step action

/-- All the audio bytes that a running session holds. -/
def heldBytes (world : AudioWorld β) : ℕ :=
  world.audiobuffer.length + world.triggerAudiobuffer.length +
    world.privateCloudSyncBuffer.length + totalSize chunkSize world.privateCloudQueue +
    totalSize itemSize world.audioBytesQueue + totalSize batchSize world.pending +
    (world.flushing.map fun flush => flush.batch.data.length).getD 0 +
    totalSize itemSize world.processing

end AudioWorld

open AudioWorld

/-- In every reachable state: while the session runs the budget counts the bytes that it holds,
and never more than its limit; what was uploaded for a conversation is, in order and without
duplicates, what was received while it was current; and the rest is held or missing for a
reason. -/
theorem audioAccounting {β : Type*} (session : PusherSession) (actions : List (AudioAction β)) :
    let world := actions.foldl (AudioWorld.step session) {}
    (world.websocketActive = true → world.budget.used = world.heldBytes) ∧
    world.budget.used ≤ bufferedAudioMaxBytes ∧
    (∀ conversationId,
      (uploadedBy world.log conversationId).Sublist (receivedBy world.log conversationId) ∧
      (uploadedBy world.log conversationId ++ world.heldFor conversationId ++
        missingBy world.log conversationId).Perm (receivedBy world.log conversationId)) ∧
    Lawful (CloudEvent.Because session) world.log := by
  intro world
  have hsound : world.Sound session := sound_run session actions
  refine ⟨fun hactive => ?_, ?_, fun conversationId => ⟨?_, ?_⟩, hsound.explained.lawful⟩
  · have hused := hsound.accounted.used
    simp only [cloudHeld, audioHeld, hactive, cond_true] at hused
    rw [hused, heldBytes]
    omega
  · have hbound := hsound.accounted.bound
    rwa [hsound.accounted.limit] at hbound
  · exact (List.sublist_append_left _ _).trans (hsound.kept conversationId).ordered
  · exact (hsound.kept conversationId).complete

end Omi.PusherServer
