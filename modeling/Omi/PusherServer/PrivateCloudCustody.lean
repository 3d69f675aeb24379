import Omi.Foundation.Custody
import Omi.PusherServer.PendingBatches

/-! The private-cloud audio of each conversation: what was received, what was uploaded of it or
is still held, and why the rest is missing. -/
namespace Omi.PusherServer
open Omi.Foundation

section owned
variable {β : Type*}

/-- The data of an owner, for one conversation. -/
def onlyFor (owner conversationId : String) (data : List β) : List β :=
  if owner = conversationId then data else []

@[simp] theorem onlyFor_nil (owner conversationId : String) :
    onlyFor owner conversationId ([] : List β) = [] := by
  simp [onlyFor]

theorem elim_onlyFor_nil (owner : Option String) (conversationId : String) :
    (owner.elim [] fun owner => onlyFor owner conversationId ([] : List β)) = [] := by
  cases owner with
  | none => rfl
  | some owner => exact onlyFor_nil owner conversationId

theorem onlyFor_append (owner conversationId : String) (front back : List β) :
    onlyFor owner conversationId (front ++ back) =
      onlyFor owner conversationId front ++ onlyFor owner conversationId back := by
  unfold onlyFor
  split_ifs
  · rfl
  · rfl

namespace CloudEvent

def receivedFor (conversationId : String) : CloudEvent β → List β
  | .received owner data => onlyFor owner conversationId data
  | _ => []

def uploadedFor (conversationId : String) : CloudEvent β → List β
  | .uploaded owner data => onlyFor owner conversationId data
  | _ => []

/-- A failed upload loses its bytes once the retries are used up. -/
def missingFor (conversationId : String) : CloudEvent β → List β
  | .unsynced owner data => onlyFor owner conversationId data
  | .refused owner data _ => onlyFor owner conversationId data
  | .evicted owner data _ => onlyFor owner conversationId data
  | .pendingEvicted owner data _ => onlyFor owner conversationId data
  | .skipped owner data => onlyFor owner conversationId data
  | .failed owner data retries =>
    if retries < privateCloudSyncMaxRetries then [] else onlyFor owner conversationId data
  | _ => []

/-- Why an event may happen after the events before it. -/
def Because (session : PusherSession) (before : List (CloudEvent β)) : CloudEvent β → Prop
  | .unsynced _ _ => session.privateCloudSyncEnabled = false
  | .refused _ data used => bufferedAudioMaxBytes < used + data.length
  | .evicted _ _ entries => entries = privateCloudQueueMaxSize
  | .pendingEvicted _ _ entries => privateCloudPendingMaxConversations ≤ entries
  | .failed conversationId data retries => retries ≤ privateCloudSyncMaxRetries ∧
    ∀ earlier, retries = earlier + 1 →
      ∃ front, .failed conversationId front earlier ∈ before ∧ front <+: data
  | .skipped conversationId _ => .gone conversationId ∈ before
  | _ => True

end CloudEvent

def receivedBy (log : List (CloudEvent β)) (conversationId : String) : List β :=
  log.flatMap (·.receivedFor conversationId)

def uploadedBy (log : List (CloudEvent β)) (conversationId : String) : List β :=
  log.flatMap (·.uploadedFor conversationId)

def missingBy (log : List (CloudEvent β)) (conversationId : String) : List β :=
  log.flatMap (·.missingFor conversationId)

def queuedFor (chunks : List (PrivateCloudChunk β)) (conversationId : String) : List β :=
  chunks.flatMap fun chunk => onlyFor chunk.conversationId conversationId chunk.data

def pendingFor (batches : List (PendingBatch β)) (conversationId : String) : List β :=
  batches.flatMap fun batch => onlyFor batch.conversationId conversationId batch.data

def flushingFor (flushing : Option (Flush β)) (conversationId : String) : List β :=
  flushing.elim [] fun flush =>
    bif flush.stored then []
    else onlyFor flush.batch.conversationId conversationId flush.batch.data

section append
variable {conversationId : String}

@[simp] theorem receivedBy_append (log more : List (CloudEvent β)) :
    receivedBy (log ++ more) conversationId =
      receivedBy log conversationId ++ receivedBy more conversationId :=
  List.flatMap_append

@[simp] theorem uploadedBy_append (log more : List (CloudEvent β)) :
    uploadedBy (log ++ more) conversationId =
      uploadedBy log conversationId ++ uploadedBy more conversationId :=
  List.flatMap_append

@[simp] theorem missingBy_append (log more : List (CloudEvent β)) :
    missingBy (log ++ more) conversationId =
      missingBy log conversationId ++ missingBy more conversationId :=
  List.flatMap_append

@[simp] theorem queuedFor_append (chunks more : List (PrivateCloudChunk β)) :
    queuedFor (chunks ++ more) conversationId =
      queuedFor chunks conversationId ++ queuedFor more conversationId :=
  List.flatMap_append

@[simp] theorem pendingFor_append (batches more : List (PendingBatch β)) :
    pendingFor (batches ++ more) conversationId =
      pendingFor batches conversationId ++ pendingFor more conversationId :=
  List.flatMap_append

@[simp] theorem queuedFor_cons (chunk : PrivateCloudChunk β)
    (chunks : List (PrivateCloudChunk β)) : queuedFor (chunk :: chunks) conversationId =
      onlyFor chunk.conversationId conversationId chunk.data ++ queuedFor chunks conversationId :=
  List.flatMap_cons

@[simp] theorem pendingFor_cons (batch : PendingBatch β) (batches : List (PendingBatch β)) :
    pendingFor (batch :: batches) conversationId =
      onlyFor batch.conversationId conversationId batch.data ++ pendingFor batches conversationId :=
  List.flatMap_cons

@[simp] theorem receivedBy_cons (event : CloudEvent β) (log : List (CloudEvent β)) :
    receivedBy (event :: log) conversationId =
      event.receivedFor conversationId ++ receivedBy log conversationId :=
  List.flatMap_cons

@[simp] theorem uploadedBy_cons (event : CloudEvent β) (log : List (CloudEvent β)) :
    uploadedBy (event :: log) conversationId =
      event.uploadedFor conversationId ++ uploadedBy log conversationId :=
  List.flatMap_cons

@[simp] theorem missingBy_cons (event : CloudEvent β) (log : List (CloudEvent β)) :
    missingBy (event :: log) conversationId =
      event.missingFor conversationId ++ missingBy log conversationId :=
  List.flatMap_cons

@[simp] theorem receivedBy_nil : receivedBy ([] : List (CloudEvent β)) conversationId = [] :=
  rfl

@[simp] theorem uploadedBy_nil : uploadedBy ([] : List (CloudEvent β)) conversationId = [] :=
  rfl

@[simp] theorem missingBy_nil : missingBy ([] : List (CloudEvent β)) conversationId = [] :=
  rfl

@[simp] theorem queuedFor_nil : queuedFor ([] : List (PrivateCloudChunk β)) conversationId = [] :=
  rfl

@[simp] theorem pendingFor_nil : pendingFor ([] : List (PendingBatch β)) conversationId = [] :=
  rfl

/-- Batches of others hold nothing for a conversation. -/
theorem pendingFor_eq_nil {batches : List (PendingBatch β)}
    (h : ∀ batch ∈ batches, batch.conversationId ≠ conversationId) :
    pendingFor batches conversationId = [] :=
  List.flatMap_eq_nil_iff.mpr fun batch hmem => if_neg (h batch hmem)

/-- Only the one batch of a conversation holds something for it. -/
theorem Split.pendingFor {batches before after : List (PendingBatch β)} {batch : PendingBatch β}
    (h : Split batches before batch after) :
    pendingFor before batch.conversationId = [] ∧ pendingFor after batch.conversationId = [] :=
  ⟨pendingFor_eq_nil h.before, pendingFor_eq_nil h.after⟩

end append
end owned

namespace AudioWorld
variable {β : Type*} {session : PusherSession} {world : AudioWorld β} {conversationId : String}

/-- What the buffer holds for a conversation while the connection is open. -/
def bufferedFor (world : AudioWorld β) (conversationId : String) : List β :=
  bif world.websocketActive then
    world.conversation.elim [] fun current =>
      onlyFor current conversationId world.privateCloudSyncBuffer
  else []

/-- What is held for a conversation and not uploaded yet, the oldest first. -/
def heldFor (world : AudioWorld β) (conversationId : String) : List β :=
  flushingFor world.flushing conversationId ++ (pendingFor world.pending conversationId ++
    (queuedFor world.privateCloudQueue conversationId ++ world.bufferedFor conversationId))

/-- For each conversation, what was uploaded and then what is held are kept, in order. -/
def Kept (world : AudioWorld β) : Prop :=
  ∀ conversationId, Custody (receivedBy world.log conversationId)
    (uploadedBy world.log conversationId ++ world.heldFor conversationId)
    (missingBy world.log conversationId)

theorem Kept.of_eq (h : world.Kept) {next : AudioWorld β} (hlog : next.log = world.log)
    (hheld : ∀ conversationId, next.heldFor conversationId = world.heldFor conversationId) :
    next.Kept := by
  intro conversationId
  rw [hlog, hheld]
  exact h conversationId

/-! ### The receive loop -/

theorem bufferedFor_of_conversation {current : String} (hactive : world.websocketActive = true)
    (hconversation : world.conversation = some current) :
    world.bufferedFor conversationId =
      onlyFor current conversationId world.privateCloudSyncBuffer := by
  rw [bufferedFor, hactive, cond_true, hconversation]
  rfl

/-- Data that the current conversation's buffer takes, or that are lost at once. -/
theorem Kept.extendPrivate (h : world.Kept) (hactive : world.websocketActive = true)
    {current : String} (hconversation : world.conversation = some current) (timestamp : ℚ)
    (data : List β) :
    ((world.record (.received current data)).extendPrivate current timestamp data).Kept := by
  intro conversationId
  have hold := h conversationId
  unfold AudioWorld.extendPrivate
  cases hextend : extendBounded (world.record (.received current data)).privateCloudSyncBuffer data
      (world.record (.received current data)).budget with
  | none =>
    have hrefused := hold.refuse (onlyFor current conversationId data)
    simpa [AudioWorld.record, heldFor, bufferedFor, AudioWorld.conversation,
      CloudEvent.receivedFor, CloudEvent.uploadedFor, CloudEvent.missingFor] using hrefused
  | some extended =>
    have hbuffer : extended.1 = world.privateCloudSyncBuffer ++ data :=
      (Accounted.extendBounded_some hextend).1
    have hreceived := hold.receive (onlyFor current conversationId data)
    rw [heldFor, bufferedFor_of_conversation hactive hconversation] at hreceived
    have hcurrent : world.currentConversationId.filter (· ≠ "") = some current := hconversation
    simp only [AudioWorld.record, heldFor, bufferedFor, AudioWorld.conversation, hactive,
      cond_true, hcurrent, hbuffer, Option.elim_some, onlyFor_append]
    simpa [CloudEvent.receivedFor, CloudEvent.uploadedFor, CloudEvent.missingFor]
      using hreceived

/-- The buffer has gone to the queue, whatever the world is otherwise. -/
theorem Kept.queueChunk (h : world.Kept) (hactive : world.websocketActive = true)
    {current : String} (hconversation : world.conversation = some current) (timestamp : ℚ)
    {next : AudioWorld β} (hsame : SameBatches world next)
    (hlog : next.log = (world.queueChunk current timestamp).log)
    (hqueue : next.privateCloudQueue = (world.queueChunk current timestamp).privateCloudQueue)
    (hempty : ∀ conversationId, next.bufferedFor conversationId = []) : next.Kept := by
  intro conversationId
  have hold := h conversationId
  rw [heldFor, bufferedFor_of_conversation hactive hconversation] at hold
  rw [heldFor, hsame.pending, hsame.flushing, hempty, hlog, hqueue]
  unfold AudioWorld.queueChunk appendBounded
  by_cases hfull : world.privateCloudQueue.length = privateCloudQueueMaxSize
  · rw [if_pos hfull]
    cases hchunks : world.privateCloudQueue with
    | nil =>
      rw [hchunks] at hfull
      simp [privateCloudQueueMaxSize] at hfull
    | cons oldest rest =>
      rw [hchunks, queuedFor_cons] at hold
      simp only [← List.append_assoc] at hold
      have hlost := @Custody.lose _ _ _ (uploadedBy world.log conversationId ++
        flushingFor world.flushing conversationId ++ pendingFor world.pending conversationId)
        (onlyFor oldest.conversationId conversationId oldest.data)
        (queuedFor rest conversationId ++
          onlyFor current conversationId world.privateCloudSyncBuffer) (by simpa using hold)
      simpa [CloudEvent.receivedFor, CloudEvent.uploadedFor, CloudEvent.missingFor] using hlost
  · rw [if_neg hfull]
    simpa using hold

theorem Kept.receiveConversation (h : world.Kept) (howned : world.Owned session)
    (hactive : world.websocketActive = true) (newConversationId : String) (now : ℚ) :
    (world.receiveConversation session newConversationId now).Kept := by
  unfold AudioWorld.receiveConversation
  cases hbuffered : world.bufferedConversation session with
  | none =>
    have hempty := howned hactive hbuffered
    refine h.of_eq rfl fun conversationId => ?_
    simp only [heldFor, bufferedFor, hempty, elim_onlyFor_nil]
  | some current =>
    unfold bufferedConversation at hbuffered
    split_ifs at hbuffered with hsync
    by_cases hsame : current = newConversationId
    · simp only [if_pos hsame]
      subst hsame
      refine h.of_eq rfl fun conversationId => ?_
      have hcurrent : world.currentConversationId.filter (· ≠ "") = some current := hbuffered
      have hnonempty : current ≠ "" := by
        simpa using (Option.filter_eq_some_iff.mp hcurrent).2
      have hnew : (some current).filter (· ≠ "") = some current := by simp [hnonempty]
      simp only [heldFor, bufferedFor, AudioWorld.conversation, hcurrent, hnew]
    · simp only [if_neg hsame]
      refine h.queueChunk hactive hbuffered (world.chunkTimestamp now) ⟨rfl, rfl, rfl⟩ rfl rfl ?_
      intro conversationId
      simp only [bufferedFor, resetPrivateBuffer, elim_onlyFor_nil, Bool.cond_self]

theorem Kept.receivePrivate (h : world.Kept) (hactive : world.websocketActive = true)
    (timestamp : ℚ) (data : List β) : (world.receivePrivate session timestamp data).Kept := by
  unfold AudioWorld.receivePrivate
  cases hconversation : world.conversation with
  | none => exact h
  | some current =>
    dsimp only
    by_cases hsync : session.privateCloudSyncEnabled = true
    · rw [if_pos hsync]
      have hextended := h.extendPrivate hactive hconversation timestamp data
      unfold AudioWorld.queueFullChunk
      split_ifs
      · have hactive' : ((world.record (.received current data)).extendPrivate current timestamp
            data).websocketActive = true := (Accounted.extendPrivate_active _ _ _).trans hactive
        have hconversation' : ((world.record (.received current data)).extendPrivate current
            timestamp data).conversation = some current := by
          rw [extendPrivate_conversation]
          exact hconversation
        refine hextended.queueChunk hactive' hconversation' _ ⟨rfl, rfl, rfl⟩ rfl rfl ?_
        intro conversationId
        simp only [bufferedFor, resetPrivateBuffer, elim_onlyFor_nil, Bool.cond_self]
      · exact hextended
    · rw [if_neg hsync]
      intro conversationId
      have hrefused := (h conversationId).refuse (onlyFor current conversationId data)
      simpa [AudioWorld.record, heldFor, bufferedFor, AudioWorld.conversation,
        CloudEvent.receivedFor, CloudEvent.uploadedFor, CloudEvent.missingFor] using hrefused

theorem Kept.receive (h : world.Kept) (howned : world.Owned session)
    (hactive : world.websocketActive = true) (frame : Frame β) (now : ℚ) :
    (world.receive session frame now).Kept := by
  cases frame with
  | heartbeat => exact h
  | other => exact h
  | conversation newConversationId =>
    exact h.receiveConversation howned hactive newConversationId now
  | audio timestamp data =>
    have htrigger : (world.extendTrigger session data).Kept := by
      unfold AudioWorld.extendTrigger
      split_ifs
      · cases extendBounded world.triggerAudiobuffer data world.budget <;>
          exact h.of_eq rfl fun _ => rfl
      · exact h
    have hwebhook : ((world.extendTrigger session data).extendWebhook session data).Kept := by
      unfold AudioWorld.extendWebhook
      split_ifs
      · cases extendBounded (world.extendTrigger session data).audiobuffer data
            (world.extendTrigger session data).budget <;>
          exact htrigger.of_eq rfl fun _ => rfl
      · exact htrigger
    have hactive' : ((world.extendTrigger session data).extendWebhook session
        data).websocketActive = true := by simpa using hactive
    have hprivate : (AudioWorld.receivePrivate session _ timestamp data).Kept :=
      hwebhook.receivePrivate hactive' timestamp data
    show ((AudioWorld.queueTrigger session _).queueWebhook session).Kept
    unfold AudioWorld.queueWebhook AudioWorld.queueTrigger
    split_ifs <;> exact hprivate.of_eq rfl fun _ => rfl

theorem Kept.close (h : world.Kept) (howned : world.Owned session)
    (hactive : world.websocketActive = true) (now : ℚ) : (world.close session now).Kept := by
  unfold AudioWorld.close
  cases hbuffered : world.bufferedConversation session with
  | none =>
    have hempty := howned hactive hbuffered
    refine h.of_eq rfl fun conversationId => ?_
    simp only [heldFor, bufferedFor, hempty, elim_onlyFor_nil, Bool.cond_self]
  | some current =>
    unfold bufferedConversation at hbuffered
    split_ifs at hbuffered
    exact h.queueChunk hactive hbuffered _ ⟨rfl, rfl, rfl⟩ rfl rfl fun _ => rfl

/-! ### The private-cloud worker -/

theorem Kept.openBatch (h : world.Kept) (chunk : PrivateCloudChunk β) (monotonic : ℚ) :
    (world.openBatch chunk monotonic).Kept := by
  have hbounded : world.boundPrivatePending.Kept := by
    rcases world.boundPrivatePending_cases with hsame | ⟨oldest, rest, hpending, -, hbound⟩
    · rw [hsame]
      exact h
    · rw [hbound]
      intro conversationId
      have hold := h conversationId
      rw [heldFor, hpending, pendingFor_cons] at hold
      have hlost := @Custody.lose _ _ _
        (uploadedBy world.log conversationId ++ flushingFor world.flushing conversationId)
        (onlyFor oldest.conversationId conversationId oldest.data)
        (pendingFor rest conversationId ++ (queuedFor world.privateCloudQueue conversationId ++
          world.bufferedFor conversationId)) (by simpa using hold)
      simpa [heldFor, bufferedFor, conversation, CloudEvent.receivedFor, CloudEvent.uploadedFor,
        CloudEvent.missingFor] using hlost
  rcases world.openBatch_cases chunk monotonic with ⟨-, hopen⟩ | ⟨-, hopen⟩
  · rw [hopen]
    exact h
  · rw [hopen]
    refine hbounded.of_eq rfl fun conversationId => ?_
    simp only [heldFor, bufferedFor, conversation, pendingFor_append, pendingFor_cons,
      pendingFor_nil, onlyFor_nil, List.append_nil]

/-- The extended batch holds the new data behind all that it held. -/
theorem pendingFor_extendBatch (h : world.Keyed) {owner : String}
    (hkey : owner ∈ batchKeys world.pending) (data : List β) (conversationId : String) :
    pendingFor (world.extendBatch owner data).pending conversationId =
      pendingFor world.pending conversationId ++ onlyFor owner conversationId data := by
  obtain ⟨batch, hmem, rfl⟩ := List.mem_map.mp hkey
  obtain ⟨before, after, hsplit⟩ := split_of_mem h.nodup hmem
  have hextended : (world.extendBatch batch.conversationId data).pending =
      before ++ { batch with data := batch.data ++ data } :: after := hsplit.extend data
  rw [hextended, hsplit.eq]
  by_cases howner : batch.conversationId = conversationId
  · subst howner
    obtain ⟨hbefore, hafter⟩ := hsplit.pendingFor
    simp [hbefore, hafter, onlyFor_append]
  · simp [onlyFor, howner]

/-- A chunk in front of the queue goes to the end of its batch, or is skipped. -/
theorem Kept.addToBatch {chunk : PrivateCloudChunk β} {rest : List (PrivateCloudChunk β)}
    (h : (world.withQueue (chunk :: rest)).Kept) (hkeyed : world.Keyed)
    (hidle : world.flushing = none) (monotonic : ℚ) :
    ((world.addToBatch chunk monotonic).withQueue rest).Kept := by
  rcases addToBatch_cases hkeyed hidle chunk monotonic with ⟨-, hadd⟩ | ⟨hopened, hkey, hadd⟩
  · rw [hadd]
    intro conversationId
    have hold := h conversationId
    have hlost := @Custody.lose _ _ _
      (uploadedBy world.log conversationId ++ flushingFor world.flushing conversationId ++
        pendingFor world.pending conversationId)
      (onlyFor chunk.conversationId conversationId chunk.data)
      (queuedFor rest conversationId ++ world.bufferedFor conversationId)
      (by simpa [withQueue, heldFor, bufferedFor, conversation] using hold)
    simpa [withQueue, heldFor, bufferedFor, conversation, CloudEvent.receivedFor,
      CloudEvent.uploadedFor, CloudEvent.missingFor] using hlost
  · have hopen : ((world.openBatch chunk monotonic).withQueue (chunk :: rest)).Kept := by
      rw [← openBatch_withQueue]
      exact h.openBatch chunk monotonic
    rw [hadd]
    refine hopen.of_eq rfl fun conversationId => ?_
    have hextended := pendingFor_extendBatch hopened hkey chunk.data conversationId
    simp only [heldFor, withQueue, queuedFor_cons]
    rw [hextended]
    simp only [bufferedFor, conversation, extendBatch, List.append_assoc]

theorem Kept.startFlush (h : world.Kept) (hkeyed : world.Keyed) : world.startFlush.Kept := by
  rcases world.startFlush_cases hkeyed with hsame | ⟨rest, hpassed⟩ | ⟨rest, before, batch, after,
    hidle, hsplit, hstarted⟩
  · rw [hsame]
    exact h
  · rw [hpassed]
    exact h.of_eq rfl fun _ => rfl
  · rw [hstarted]
    refine h.of_eq rfl fun conversationId => ?_
    have hflushing : flushingFor
        (if batch.data.length = 0 then none else some (⟨batch, false⟩ : Flush β)) conversationId =
          onlyFor batch.conversationId conversationId batch.data := by
      by_cases hempty : batch.data.length = 0
      · rw [if_pos hempty, List.length_eq_zero_iff.mp hempty, onlyFor_nil]
        rfl
      · rw [if_neg hempty]
        rfl
    simp only [heldFor, hflushing, hidle, hsplit.eq, pendingFor_append, pendingFor_cons]
    by_cases howner : batch.conversationId = conversationId
    · subst howner
      obtain ⟨hbefore, hafter⟩ := hsplit.pendingFor
      simp [hbefore, hafter, flushingFor, bufferedFor, conversation]
    · simp [onlyFor, howner, flushingFor, bufferedFor, conversation]

theorem Kept.uploadStored (h : world.Kept) : world.uploadStored.Kept := by
  unfold AudioWorld.uploadStored
  rcases hflushing : world.flushing with - | ⟨batch, - | -⟩
  · exact h
  · intro conversationId
    have hold := h conversationId
    simpa [heldFor, hflushing, flushingFor, bufferedFor, conversation, CloudEvent.receivedFor,
      CloudEvent.uploadedFor, CloudEvent.missingFor] using hold
  · exact h

theorem Kept.uploadFailed (h : world.Kept) (hkeyed : world.Keyed) (monotonic : ℚ) :
    (world.uploadFailed monotonic).Kept := by
  unfold AudioWorld.uploadFailed
  rcases hflushing : world.flushing with - | ⟨batch, - | -⟩
  · exact h
  · intro conversationId
    have hold := h conversationId
    dsimp only
    by_cases hretry : batch.retries < privateCloudSyncMaxRetries
    · rw [if_pos hretry]
      have hpending : onlyFor batch.conversationId conversationId batch.data ++
          pendingFor world.pending conversationId = pendingFor world.pending conversationId ++
            onlyFor batch.conversationId conversationId batch.data := by
        by_cases howner : batch.conversationId = conversationId
        · have hnone : pendingFor world.pending conversationId = [] := by
            refine pendingFor_eq_nil fun other hother heq => ?_
            refine hkeyed.apart _ hflushing ?_
            rw [howner, ← heq]
            exact List.mem_map_of_mem hother
          simp [hnone]
        · simp [onlyFor, howner]
      simp only [heldFor, hflushing, flushingFor, Option.elim_some, cond_false] at hold
      rw [← List.append_assoc (onlyFor _ _ _), hpending] at hold
      simpa [AudioWorld.record, heldFor, flushingFor, bufferedFor, conversation, hretry,
        CloudEvent.receivedFor, CloudEvent.uploadedFor, CloudEvent.missingFor] using hold
    · rw [if_neg hretry]
      have hlost := @Custody.lose _ _ _ (uploadedBy world.log conversationId)
        (onlyFor batch.conversationId conversationId batch.data)
        (pendingFor world.pending conversationId ++
          (queuedFor world.privateCloudQueue conversationId ++ world.bufferedFor conversationId))
        (by simpa [heldFor, hflushing, flushingFor] using hold)
      simpa [AudioWorld.record, heldFor, flushingFor, bufferedFor, conversation, hretry,
        CloudEvent.receivedFor, CloudEvent.uploadedFor, CloudEvent.missingFor] using hlost
  · exact h

theorem Kept.finishFlush (h : world.Kept) (ended : FlushEnd) : (world.finishFlush ended).Kept := by
  unfold AudioWorld.finishFlush
  rcases hflushing : world.flushing with - | ⟨batch, - | -⟩
  · exact h
  · exact h
  · intro conversationId
    have hold := h conversationId
    simp only [heldFor, hflushing, flushingFor, Option.elim_some, cond_true] at hold
    cases ended <;>
      simpa [heldFor, flushingFor, bufferedFor, conversation, CloudEvent.receivedFor,
        CloudEvent.uploadedFor, CloudEvent.missingFor] using hold

theorem Kept.step (h : world.Kept) (hkeyed : world.Keyed) (howned : world.Owned session)
    (action : AudioAction β) : (world.step session action).Kept := by
  cases action with
  | receive frame now =>
    simp only [AudioWorld.step]
    split_ifs with hactive
    · exact h.receive howned hactive frame now
    · exact h
  | close now =>
    simp only [AudioWorld.step]
    split_ifs with hactive
    · exact h.close howned hactive now
    · exact h
  | privateRound monotonic =>
    simp only [AudioWorld.step, AudioWorld.privateRound]
    split_ifs with hbusy
    · exact h
    · have hidle : world.flushing = none := by
        rw [not_or] at hbusy
        simpa using hbusy.1
      have hdrained := @drain_induction β world (fun world => world.Kept ∧ world.Keyed) monotonic
        (fun world chunk rest hidle hboth =>
          ⟨hboth.1.addToBatch (hboth.2.of_eq rfl rfl) hidle monotonic,
            ((hboth.2.of_eq rfl rfl : world.Keyed).addToBatch hidle chunk monotonic).of_eq
              rfl rfl⟩)
        world.privateCloudQueue hidle ⟨h, hkeyed⟩
      exact hdrained.1.of_eq rfl fun _ => rfl
  | startFlush => exact h.startFlush hkeyed
  | uploadStored => exact h.uploadStored
  | uploadFailed monotonic => exact h.uploadFailed hkeyed monotonic
  | finishFlush ended => exact h.finishFlush ended
  | audioRound =>
    simp only [AudioWorld.step, AudioWorld.audioRound]
    split_ifs
    · exact h
    · exact h.of_eq rfl fun _ => rfl
  | itemProcessed =>
    simp only [AudioWorld.step, AudioWorld.itemProcessed]
    cases world.processing with
    | nil => exact h
    | cons item rest => exact h.of_eq rfl fun _ => rfl

end AudioWorld
end Omi.PusherServer
