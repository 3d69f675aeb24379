import Omi.PusherServer.Accounting

/-! The pending batches have one entry for each conversation; what the private-cloud worker
does to them keeps that, and the count of the bytes. -/
namespace Omi.PusherServer
open Omi.Foundation

section split
variable {β : Type*} {batches : List (PendingBatch β)} {conversationId : String}

def batchKeys (batches : List (PendingBatch β)) : List String :=
  batches.map fun batch => batch.conversationId

/-- The one batch of a conversation, between batches of others. -/
structure Split (batches : List (PendingBatch β)) (before : List (PendingBatch β))
    (batch : PendingBatch β) (after : List (PendingBatch β)) : Prop where
  eq : batches = before ++ batch :: after
  before : ∀ other ∈ before, other.conversationId ≠ batch.conversationId
  after : ∀ other ∈ after, other.conversationId ≠ batch.conversationId

theorem split_of_mem (hkeys : (batchKeys batches).Nodup) {batch : PendingBatch β}
    (hmem : batch ∈ batches) : ∃ before after, Split batches before batch after := by
  obtain ⟨before, after, rfl⟩ := List.append_of_mem hmem
  refine ⟨before, after, rfl, ?_, ?_⟩
  · intro other hother heq
    rw [batchKeys, List.map_append, List.nodup_append] at hkeys
    exact hkeys.2.2 _ (List.mem_map_of_mem hother) _ (by simp) heq
  · intro other hother heq
    rw [batchKeys, List.map_append, List.map_cons, List.nodup_append, List.nodup_cons] at hkeys
    exact hkeys.2.1.1 (heq ▸ List.mem_map_of_mem hother)

theorem Split.extend {before after : List (PendingBatch β)} {batch : PendingBatch β}
    (h : Split batches before batch after) (data : List β) :
    (batches.map fun other =>
      if other.conversationId = batch.conversationId then
        { other with data := other.data ++ data } else other) =
      before ++ { batch with data := batch.data ++ data } :: after := by
  have hothers : ∀ others : List (PendingBatch β),
      (∀ other ∈ others, other.conversationId ≠ batch.conversationId) →
        (others.map fun other =>
          if other.conversationId = batch.conversationId then
            { other with data := other.data ++ data } else other) = others := by
    intro others hne
    conv_rhs => rw [← List.map_id others]
    exact List.map_congr_left fun other hother => if_neg (hne other hother)
  rw [h.eq, List.map_append, List.map_cons, if_pos rfl, hothers before h.before,
    hothers after h.after]

theorem Split.remove {before after : List (PendingBatch β)} {batch : PendingBatch β}
    (h : Split batches before batch after) :
    (batches.filter fun other => other.conversationId ≠ batch.conversationId) =
      before ++ after := by
  rw [h.eq, List.filter_append, List.filter_cons_of_neg (by simp)]
  congr 1
  · exact List.filter_eq_self.mpr fun other hother => by simpa using h.before other hother
  · exact List.filter_eq_self.mpr fun other hother => by simpa using h.after other hother

end split

namespace AudioWorld
variable {β : Type*} {session : PusherSession} {world : AudioWorld β}

/-- One batch for each conversation, and none for the one that is being flushed. -/
structure Keyed (world : AudioWorld β) : Prop where
  nodup : (batchKeys world.pending).Nodup
  apart : ∀ flush, world.flushing = some flush →
    flush.batch.conversationId ∉ batchKeys world.pending

/-- What an operation on other fields keeps. -/
theorem Keyed.of_eq (h : world.Keyed) {next : AudioWorld β} (hpending : next.pending = world.pending)
    (hflushing : next.flushing = world.flushing) : next.Keyed := by
  constructor
  · rw [hpending]
    exact h.nodup
  · rw [hpending, hflushing]
    exact h.apart

/-! ### Draining the queue -/

/-- What bounding the pending batches does: nothing, or the oldest batch goes. -/
theorem boundPrivatePending_cases (world : AudioWorld β) :
    world.boundPrivatePending = world ∨
      ∃ oldest rest, world.pending = oldest :: rest ∧
        privateCloudPendingMaxConversations ≤ world.pending.length ∧
        world.boundPrivatePending = { world with
          pending := rest
          budget := world.budget.release oldest.data.length
          log := world.log ++
            [.pendingEvicted oldest.conversationId oldest.data world.pending.length] } := by
  unfold boundPrivatePending
  split_ifs with hroom
  · exact .inl rfl
  · cases hpending : world.pending with
    | nil => exact .inl rfl
    | cons oldest rest =>
      refine .inr ⟨oldest, rest, rfl, ?_, rfl⟩
      rw [← hpending]
      exact not_lt.mp hroom

/-- What opening a batch does: nothing if there is one, or an empty one joins at the end of the
bounded batches. -/
theorem openBatch_cases (world : AudioWorld β) (chunk : PrivateCloudChunk β) (monotonic : ℚ) :
    (chunk.conversationId ∈ batchKeys world.pending ∧ world.openBatch chunk monotonic = world) ∨
      (chunk.conversationId ∉ batchKeys world.pending ∧
        world.openBatch chunk monotonic = { world.boundPrivatePending with
          pending := world.boundPrivatePending.pending ++
            [⟨⟨[], chunk.conversationId, chunk.timestamp⟩, monotonic, 0⟩] }) := by
  unfold openBatch
  by_cases hkey : chunk.conversationId ∈ world.keys
  · rw [if_pos hkey]
    exact .inl ⟨hkey, rfl⟩
  · rw [if_neg hkey]
    exact .inr ⟨hkey, rfl⟩

theorem Keyed.boundPrivatePending (h : world.Keyed) : world.boundPrivatePending.Keyed ∧
    batchKeys world.boundPrivatePending.pending ⊆ batchKeys world.pending := by
  rcases world.boundPrivatePending_cases with hsame | ⟨oldest, rest, hpending, -, hbound⟩
  · rw [hsame]
    exact ⟨h, List.Subset.refl _⟩
  · obtain ⟨hnodup, hapart⟩ := h
    have hsubset : batchKeys rest ⊆ batchKeys world.pending := by
      rw [hpending]
      exact List.subset_cons_self _ _
    rw [hbound]
    refine ⟨⟨?_, ?_⟩, hsubset⟩
    · rw [hpending] at hnodup
      exact (List.nodup_cons.mp hnodup).2
    · intro flush hflush hmem
      exact hapart flush hflush (hsubset hmem)

theorem Keyed.openBatch (h : world.Keyed) (chunk : PrivateCloudChunk β) (monotonic : ℚ)
    (hflushing : world.flushing = none) :
    (world.openBatch chunk monotonic).Keyed ∧
      chunk.conversationId ∈ batchKeys (world.openBatch chunk monotonic).pending := by
  rcases world.openBatch_cases chunk monotonic with ⟨hkey, hopen⟩ | ⟨hkey, hopen⟩
  · rw [hopen]
    exact ⟨h, hkey⟩
  · obtain ⟨hbounded, hsubset⟩ := h.boundPrivatePending
    have hfree : chunk.conversationId ∉ batchKeys world.boundPrivatePending.pending :=
      fun hmem => hkey (hsubset hmem)
    have hidle : world.boundPrivatePending.flushing = none := by
      rcases world.boundPrivatePending_cases with hsame | ⟨oldest, rest, -, -, hbound⟩
      · rw [hsame, hflushing]
      · rw [hbound, hflushing]
    rw [hopen]
    refine ⟨⟨?_, ?_⟩, by simp [batchKeys]⟩
    · rw [batchKeys, List.map_append, List.nodup_append]
      refine ⟨hbounded.nodup, by simp, ?_⟩
      rintro key hmem other hother rfl
      rw [List.map_singleton, List.mem_singleton] at hother
      exact hfree (hother ▸ hmem)
    · intro flush hflush
      have hflush' : world.boundPrivatePending.flushing = some flush := hflush
      rw [hidle] at hflush'
      cases hflush'

@[simp] theorem batchKeys_extendBatch (conversationId : String) (data : List β) :
    batchKeys (world.extendBatch conversationId data).pending = batchKeys world.pending := by
  simp only [batchKeys, extendBatch, List.map_map]
  refine List.map_congr_left fun batch _ => ?_
  simp only [Function.comp_apply]
  split_ifs <;> rfl

theorem Keyed.extendBatch (h : world.Keyed) (conversationId : String) (data : List β) :
    (world.extendBatch conversationId data).Keyed := by
  constructor
  · rw [batchKeys_extendBatch]
    exact h.nodup
  · rw [batchKeys_extendBatch]
    exact h.apart

theorem totalSize_extendBatch (h : world.Keyed) {conversationId : String}
    (hkey : conversationId ∈ batchKeys world.pending) (data : List β) :
    totalSize batchSize (world.extendBatch conversationId data).pending =
      totalSize batchSize world.pending + data.length := by
  obtain ⟨batch, hmem, rfl⟩ := List.mem_map.mp hkey
  obtain ⟨before, after, hsplit⟩ := split_of_mem h.nodup hmem
  have hextended : (world.extendBatch batch.conversationId data).pending =
      before ++ { batch with data := batch.data ++ data } :: after := hsplit.extend data
  rw [hextended, hsplit.eq]
  simp [batchSize]
  omega

/-- The world with the chunks that are still to be added in its queue. -/
def withQueue (world : AudioWorld β) (chunks : List (PrivateCloudChunk β)) : AudioWorld β :=
  { world with privateCloudQueue := chunks }

theorem Accounted.openBatch (h : world.Accounted) (chunk : PrivateCloudChunk β) (monotonic : ℚ) :
    (world.openBatch chunk monotonic).Accounted := by
  have hbounded : world.boundPrivatePending.Accounted := by
    rcases world.boundPrivatePending_cases with hsame | ⟨oldest, rest, hpending, -, hbound⟩
    · rw [hsame]
      exact h
    · rw [hbound]
      have hold := h.used
      have hle := h.bound
      simp only [cloudHeld, hpending, totalSize_cons, batchSize] at hold
      refine ⟨?_, (Nat.sub_le _ _).trans hle, h.limit⟩
      simp only [cloudHeld, audioHeld, ByteBudget.release] at hold ⊢
      omega
  rcases world.openBatch_cases chunk monotonic with ⟨-, hopen⟩ | ⟨-, hopen⟩
  · rw [hopen]
    exact h
  · rw [hopen]
    refine ⟨?_, hbounded.bound, hbounded.limit⟩
    have hold := hbounded.used
    simp only [cloudHeld, audioHeld, totalSize_append, totalSize_cons, totalSize_nil, batchSize,
      List.length_nil] at hold ⊢
    omega

/-! The queue plays no part in what is done with a chunk taken from it. -/

theorem boundPrivatePending_withQueue (chunks : List (PrivateCloudChunk β)) :
    (world.withQueue chunks).boundPrivatePending = world.boundPrivatePending.withQueue chunks := by
  unfold boundPrivatePending
  by_cases hroom : world.pending.length < privateCloudPendingMaxConversations
  · simp [withQueue, hroom]
  · cases hpending : world.pending with
    | nil => simp [withQueue, hpending]
    | cons oldest rest =>
      have hfull : ¬ rest.length + 1 < privateCloudPendingMaxConversations := by
        rwa [hpending, List.length_cons] at hroom
      simp [withQueue, hpending, hfull]

theorem openBatch_withQueue (chunks : List (PrivateCloudChunk β)) (chunk : PrivateCloudChunk β)
    (monotonic : ℚ) : (world.withQueue chunks).openBatch chunk monotonic =
      (world.openBatch chunk monotonic).withQueue chunks := by
  unfold openBatch
  rw [boundPrivatePending_withQueue]
  by_cases hkey : chunk.conversationId ∈ world.keys
  · rw [if_pos hkey, if_pos (show chunk.conversationId ∈ (world.withQueue chunks).keys from hkey)]
  · rw [if_neg hkey, if_neg (show chunk.conversationId ∉ (world.withQueue chunks).keys from hkey)]
    rfl

theorem addToBatch_withQueue (chunks : List (PrivateCloudChunk β)) (chunk : PrivateCloudChunk β)
    (monotonic : ℚ) : (world.withQueue chunks).addToBatch chunk monotonic =
      (world.addToBatch chunk monotonic).withQueue chunks := by
  unfold addToBatch
  rw [openBatch_withQueue]
  by_cases hgone : chunk.conversationId ∈ world.deletedConversations
  · rw [if_pos hgone, if_pos (show _ ∈ (world.withQueue chunks).deletedConversations from hgone)]
    rfl
  · rw [if_neg hgone, if_neg (show _ ∉ (world.withQueue chunks).deletedConversations from hgone)]
    rfl

/-- What is added for a chunk: its bytes are skipped, or they extend the batch of their
conversation, which is there. -/
theorem addToBatch_cases (h : world.Keyed) (hidle : world.flushing = none)
    (chunk : PrivateCloudChunk β) (monotonic : ℚ) :
    (chunk.conversationId ∈ world.deletedConversations ∧
        world.addToBatch chunk monotonic = { world with
          budget := world.budget.release chunk.data.length
          log := world.log ++ [.skipped chunk.conversationId chunk.data] }) ∨
      ((world.openBatch chunk monotonic).Keyed ∧
        chunk.conversationId ∈ batchKeys (world.openBatch chunk monotonic).pending ∧
        world.addToBatch chunk monotonic =
          (world.openBatch chunk monotonic).extendBatch chunk.conversationId chunk.data) := by
  unfold addToBatch
  by_cases hgone : chunk.conversationId ∈ world.deletedConversations
  · rw [if_pos hgone]
    exact .inl ⟨hgone, rfl⟩
  · rw [if_neg hgone]
    obtain ⟨hkeyed, hkey⟩ := h.openBatch chunk monotonic hidle
    exact .inr ⟨hkeyed, hkey, rfl⟩

theorem openBatch_flushing (chunk : PrivateCloudChunk β) (monotonic : ℚ) :
    (world.openBatch chunk monotonic).flushing = world.flushing := by
  have hbounded : world.boundPrivatePending.flushing = world.flushing := by
    rcases world.boundPrivatePending_cases with hsame | ⟨oldest, rest, -, -, hbound⟩
    · rw [hsame]
    · rw [hbound]
  rcases world.openBatch_cases chunk monotonic with ⟨-, hopen⟩ | ⟨-, hopen⟩
  · rw [hopen]
  · rw [hopen]
    exact hbounded

theorem addToBatch_flushing (chunk : PrivateCloudChunk β) (monotonic : ℚ) :
    (world.addToBatch chunk monotonic).flushing = world.flushing := by
  unfold addToBatch
  split_ifs
  · rfl
  · exact openBatch_flushing chunk monotonic

theorem Keyed.addToBatch (h : world.Keyed) (hidle : world.flushing = none)
    (chunk : PrivateCloudChunk β) (monotonic : ℚ) : (world.addToBatch chunk monotonic).Keyed := by
  rcases addToBatch_cases h hidle chunk monotonic with ⟨-, hadd⟩ | ⟨hopened, -, hadd⟩
  · rw [hadd]
    exact h.of_eq rfl rfl
  · rw [hadd]
    exact hopened.extendBatch _ _

/-- The bytes of a chunk go from the queue to the batch. -/
theorem Accounted.addToBatch {chunk : PrivateCloudChunk β} {rest : List (PrivateCloudChunk β)}
    (h : (world.withQueue (chunk :: rest)).Accounted) (hkeyed : world.Keyed)
    (hidle : world.flushing = none) (monotonic : ℚ) :
    ((world.addToBatch chunk monotonic).withQueue rest).Accounted := by
  rcases addToBatch_cases hkeyed hidle chunk monotonic with ⟨-, hadd⟩ | ⟨hopened, hkey, hadd⟩
  · rw [hadd]
    have hold := h.used
    have hle := h.bound
    refine ⟨?_, (Nat.sub_le _ _).trans hle, h.limit⟩
    simp only [withQueue, cloudHeld, audioHeld, totalSize_cons, chunkSize, ByteBudget.release]
      at hold ⊢
    omega
  · have hopen : ((world.openBatch chunk monotonic).withQueue (chunk :: rest)).Accounted := by
      rw [← openBatch_withQueue]
      exact h.openBatch chunk monotonic
    have htotal := totalSize_extendBatch hopened hkey chunk.data
    rw [hadd]
    have hold := hopen.used
    refine ⟨?_, hopen.bound, hopen.limit⟩
    simp only [withQueue, cloudHeld, audioHeld, totalSize_cons, chunkSize] at hold ⊢
    rw [htotal]
    simp only [extendBatch]
    omega

/-- A property that adding the chunks one after the other keeps, if each chunk that is added
stood in front of the others. -/
theorem drain_induction {P : AudioWorld β → Prop} {monotonic : ℚ}
    (hadd : ∀ world : AudioWorld β, ∀ chunk rest, world.flushing = none →
      P (world.withQueue (chunk :: rest)) → P ((world.addToBatch chunk monotonic).withQueue rest))
    {chunks : List (PrivateCloudChunk β)} (hidle : world.flushing = none)
    (h : P (world.withQueue chunks)) :
    P (chunks.foldl (fun world chunk => world.addToBatch chunk monotonic) (world.withQueue [])) := by
  induction chunks generalizing world with
  | nil => exact h
  | cons chunk rest ih =>
    rw [List.foldl_cons, addToBatch_withQueue]
    exact ih (by rw [addToBatch_flushing, hidle]) (hadd world chunk rest hidle h)

/-! ### The receive loop leaves the batches alone -/

structure SameBatches (world next : AudioWorld β) : Prop where
  pending : next.pending = world.pending
  flushing : next.flushing = world.flushing
  deleted : next.deletedConversations = world.deletedConversations

namespace SameBatches

theorem refl (world : AudioWorld β) : SameBatches world world :=
  ⟨rfl, rfl, rfl⟩

theorem trans {middle next : AudioWorld β} (first : SameBatches world middle)
    (second : SameBatches middle next) : SameBatches world next where
  pending := second.pending.trans first.pending
  flushing := second.flushing.trans first.flushing
  deleted := second.deleted.trans first.deleted

theorem extendTrigger (data : List β) : SameBatches world (world.extendTrigger session data) := by
  unfold AudioWorld.extendTrigger
  split_ifs
  · cases extendBounded world.triggerAudiobuffer data world.budget <;> exact ⟨rfl, rfl, rfl⟩
  · exact refl world

theorem extendWebhook (data : List β) : SameBatches world (world.extendWebhook session data) := by
  unfold AudioWorld.extendWebhook
  split_ifs
  · cases extendBounded world.audiobuffer data world.budget <;> exact ⟨rfl, rfl, rfl⟩
  · exact refl world

theorem extendPrivate (conversationId : String) (timestamp : ℚ) (data : List β) :
    SameBatches world (world.extendPrivate conversationId timestamp data) := by
  unfold AudioWorld.extendPrivate
  cases extendBounded world.privateCloudSyncBuffer data world.budget <;> exact ⟨rfl, rfl, rfl⟩

theorem receivePrivate (timestamp : ℚ) (data : List β) :
    SameBatches world (world.receivePrivate session timestamp data) := by
  unfold AudioWorld.receivePrivate
  cases world.conversation with
  | none => exact refl world
  | some conversationId =>
    have hheard : SameBatches world (world.record (.received conversationId data)) :=
      ⟨rfl, rfl, rfl⟩
    dsimp only
    split_ifs
    · refine (hheard.trans (extendPrivate conversationId timestamp data)).trans ?_
      unfold AudioWorld.queueFullChunk
      split_ifs
      · exact ⟨rfl, rfl, rfl⟩
      · exact refl _
    · exact hheard.trans ⟨rfl, rfl, rfl⟩

theorem queueTrigger : SameBatches world (world.queueTrigger session) := by
  unfold AudioWorld.queueTrigger
  split_ifs
  · exact ⟨rfl, rfl, rfl⟩
  · exact refl world

theorem queueWebhook : SameBatches world (world.queueWebhook session) := by
  unfold AudioWorld.queueWebhook
  split_ifs
  · exact ⟨rfl, rfl, rfl⟩
  · exact refl world

theorem receive (frame : Frame β) (now : ℚ) :
    SameBatches world (world.receive session frame now) := by
  cases frame with
  | heartbeat => exact refl world
  | other => exact refl world
  | conversation conversationId =>
    unfold AudioWorld.receive AudioWorld.receiveConversation
    cases world.bufferedConversation session with
    | none => exact ⟨rfl, rfl, rfl⟩
    | some current =>
      by_cases hsame : current = conversationId
      · simp only [if_pos hsame]
        exact ⟨rfl, rfl, rfl⟩
      · simp only [if_neg hsame]
        exact ⟨rfl, rfl, rfl⟩
  | audio timestamp data =>
    have hextended : SameBatches world
        ((world.extendTrigger session data).extendWebhook session data) :=
      (extendTrigger data).trans (extendWebhook data)
    exact ((hextended.trans (receivePrivate timestamp data)).trans queueTrigger).trans queueWebhook

theorem close (now : ℚ) : SameBatches world (world.close session now) := by
  unfold AudioWorld.close
  cases world.bufferedConversation session <;> exact ⟨rfl, rfl, rfl⟩

end SameBatches

/-! ### The flushes -/

/-- What starting a flush does: nothing, an id is passed over, or the one batch of a
conversation is taken out, to be flushed if it has bytes. -/
theorem startFlush_cases (h : world.Keyed) :
    world.startFlush = world ∨
      (∃ rest, world.startFlush = { world with convIdsToFlush := rest }) ∨
      ∃ rest before batch after, world.flushing = none ∧ Split world.pending before batch after ∧
        world.startFlush = { world with
          convIdsToFlush := rest
          pending := before ++ after
          flushing := if batch.data.length = 0 then none else some ⟨batch, false⟩ } := by
  unfold startFlush
  by_cases hbusy : world.flushing.isSome
  · rw [if_pos hbusy]
    exact .inl rfl
  rw [if_neg hbusy]
  cases world.convIdsToFlush with
  | nil => exact .inl rfl
  | cons conversationId rest =>
    dsimp only
    cases hfind : world.pending.find? fun batch => batch.conversationId = conversationId with
    | none => exact .inr (.inl ⟨rest, rfl⟩)
    | some batch =>
      have hmem := List.mem_of_find?_eq_some hfind
      have hsome := List.find?_some hfind
      have hkey : batch.conversationId = conversationId := by simpa using hsome
      subst hkey
      obtain ⟨before, after, hsplit⟩ := split_of_mem h.nodup hmem
      refine .inr (.inr ⟨rest, before, batch, after, by simpa using hbusy, hsplit, ?_⟩)
      rw [hsplit.remove]

theorem Keyed.startFlush (h : world.Keyed) : world.startFlush.Keyed := by
  rcases world.startFlush_cases h with hsame | ⟨rest, hpassed⟩ | ⟨rest, before, batch, after, -,
    hsplit, hstarted⟩
  · rw [hsame]
    exact h
  · rw [hpassed]
    exact h.of_eq rfl rfl
  · rw [hstarted]
    constructor
    · have hnodup := h.nodup
      rw [hsplit.eq] at hnodup
      have hsub : (before ++ after).Sublist (before ++ batch :: after) :=
        (List.sublist_cons_self batch after).append_left before
      exact hnodup.sublist (hsub.map _)
    · intro flush hflush hmem
      simp only at hflush
      split_ifs at hflush
      cases hflush
      obtain ⟨other, hother, heq⟩ := List.mem_map.mp hmem
      rcases List.mem_append.mp hother with hbefore | hafter
      · exact hsplit.before other hbefore heq
      · exact hsplit.after other hafter heq

theorem Keyed.uploadStored (h : world.Keyed) : world.uploadStored.Keyed := by
  unfold AudioWorld.uploadStored
  rcases hflushing : world.flushing with - | ⟨batch, - | -⟩
  · exact h
  · refine ⟨h.nodup, fun flush hflush => ?_⟩
    cases hflush
    exact h.apart ⟨batch, false⟩ hflushing
  · exact h

theorem Keyed.uploadFailed (h : world.Keyed) (monotonic : ℚ) :
    (world.uploadFailed monotonic).Keyed := by
  unfold AudioWorld.uploadFailed
  rcases hflushing : world.flushing with - | ⟨batch, - | -⟩
  · exact h
  · dsimp only
    by_cases hretry : batch.retries < privateCloudSyncMaxRetries
    · rw [if_pos hretry]
      refine ⟨?_, fun flush hflush => by cases hflush⟩
      rw [batchKeys, List.map_append, List.nodup_append]
      refine ⟨h.nodup, by simp, ?_⟩
      rintro key hmem other hother rfl
      rw [List.map_singleton, List.mem_singleton] at hother
      exact h.apart ⟨batch, false⟩ hflushing (hother ▸ hmem)
    · rw [if_neg hretry]
      exact ⟨h.nodup, fun flush hflush => by cases hflush⟩
  · exact h

theorem Keyed.finishFlush (h : world.Keyed) (ended : FlushEnd) :
    (world.finishFlush ended).Keyed := by
  unfold AudioWorld.finishFlush
  rcases world.flushing with - | ⟨batch, - | -⟩
  · exact h
  · exact h
  · cases ended <;> exact ⟨h.nodup, fun flush hflush => by cases hflush⟩

theorem Keyed.privateRound (h : world.Keyed) (monotonic : ℚ) :
    (world.privateRound session monotonic).Keyed := by
  unfold AudioWorld.privateRound
  split_ifs with hbusy
  · exact h
  · have hidle : world.flushing = none := by
      rw [not_or] at hbusy
      simpa using hbusy.1
    have hdrained := @drain_induction β world Keyed monotonic
      (fun world chunk rest hidle hkeyed =>
        ((hkeyed.of_eq rfl rfl : world.Keyed).addToBatch hidle chunk monotonic).of_eq rfl rfl)
      world.privateCloudQueue hidle (h.of_eq rfl rfl)
    exact hdrained.of_eq rfl rfl

theorem Keyed.step (h : world.Keyed) (action : AudioAction β) : (world.step session action).Keyed := by
  cases action with
  | receive frame now =>
    simp only [AudioWorld.step]
    split_ifs
    · have hsame : SameBatches world (world.receive session frame now) := .receive frame now
      exact h.of_eq hsame.pending hsame.flushing
    · exact h
  | close now =>
    simp only [AudioWorld.step]
    split_ifs
    · have hsame : SameBatches world (world.close session now) := .close now
      exact h.of_eq hsame.pending hsame.flushing
    · exact h
  | privateRound monotonic => exact h.privateRound monotonic
  | startFlush => exact h.startFlush
  | uploadStored => exact h.uploadStored
  | uploadFailed monotonic => exact h.uploadFailed monotonic
  | finishFlush ended => exact h.finishFlush ended
  | audioRound =>
    simp only [AudioWorld.step, audioRound]
    split_ifs
    · exact h
    · exact h.of_eq rfl rfl
  | itemProcessed =>
    simp only [AudioWorld.step, itemProcessed]
    cases world.processing with
    | nil => exact h
    | cons item rest => exact h.of_eq rfl rfl

/-! ### The count over a run -/

theorem Accounted.startFlush (h : world.Accounted) (hkeyed : world.Keyed) :
    world.startFlush.Accounted := by
  rcases world.startFlush_cases hkeyed with hsame | ⟨rest, hpassed⟩ | ⟨rest, before, batch, after,
    hidle, hsplit, hstarted⟩
  · rw [hsame]
    exact h
  · rw [hpassed]
    exact ⟨h.used, h.bound, h.limit⟩
  · rw [hstarted]
    refine ⟨?_, h.bound, h.limit⟩
    have hold := h.used
    simp only [cloudHeld, audioHeld, hsplit.eq, hidle, totalSize_append, totalSize_cons, batchSize,
      Option.map_none, Option.getD_none] at hold ⊢
    by_cases hempty : batch.data.length = 0
    · rw [if_pos hempty, Option.map_none, Option.getD_none]
      omega
    · rw [if_neg hempty]
      simp only [Option.map_some, Option.getD_some]
      omega

theorem Accounted.uploadStored (h : world.Accounted) : world.uploadStored.Accounted := by
  unfold AudioWorld.uploadStored
  rcases hflushing : world.flushing with - | ⟨batch, - | -⟩
  · exact h
  · refine ⟨?_, h.bound, h.limit⟩
    have hold := h.used
    simp only [cloudHeld, audioHeld, hflushing, Option.map_some, Option.getD_some] at hold ⊢
    exact hold
  · exact h

theorem Accounted.uploadFailed (h : world.Accounted) (monotonic : ℚ) :
    (world.uploadFailed monotonic).Accounted := by
  unfold AudioWorld.uploadFailed
  rcases hflushing : world.flushing with - | ⟨batch, - | -⟩
  · exact h
  · have hold := h.used
    simp only [cloudHeld, audioHeld, hflushing, Option.map_some, Option.getD_some] at hold
    dsimp only
    by_cases hretry : batch.retries < privateCloudSyncMaxRetries
    · rw [if_pos hretry]
      refine ⟨?_, h.bound, h.limit⟩
      simp only [cloudHeld, audioHeld, AudioWorld.record, totalSize_append, totalSize_cons,
        totalSize_nil, batchSize, Option.map_none, Option.getD_none]
      omega
    · rw [if_neg hretry]
      refine ⟨?_, (Nat.sub_le _ _).trans h.bound, h.limit⟩
      simp only [cloudHeld, audioHeld, AudioWorld.record, ByteBudget.release, Option.map_none,
        Option.getD_none]
      omega
  · exact h

theorem Accounted.finishFlush (h : world.Accounted) (ended : FlushEnd) :
    (world.finishFlush ended).Accounted := by
  unfold AudioWorld.finishFlush
  rcases hflushing : world.flushing with - | ⟨batch, - | -⟩
  · exact h
  · exact h
  · have hold := h.used
    simp only [cloudHeld, audioHeld, hflushing, Option.map_some, Option.getD_some] at hold
    have hreleased : ({ world with
        flushing := none
        budget := world.budget.release batch.data.length } : AudioWorld β).Accounted := by
      refine ⟨?_, (Nat.sub_le _ _).trans h.bound, h.limit⟩
      simp only [cloudHeld, audioHeld, ByteBudget.release, Option.map_none, Option.getD_none]
      omega
    cases ended with
    | applied => exact hreleased
    | other => exact hreleased
    | gone => exact ⟨hreleased.used, hreleased.bound, hreleased.limit⟩

theorem Accounted.privateRound (h : world.Accounted) (hkeyed : world.Keyed) (monotonic : ℚ) :
    (world.privateRound session monotonic).Accounted := by
  unfold AudioWorld.privateRound
  split_ifs with hbusy
  · exact h
  · have hidle : world.flushing = none := by
      rw [not_or] at hbusy
      simpa using hbusy.1
    have hdrained := @drain_induction β world (fun world => world.Accounted ∧ world.Keyed) monotonic
      (fun world chunk rest hidle hboth =>
        ⟨hboth.1.addToBatch (hboth.2.of_eq rfl rfl) hidle monotonic,
          ((hboth.2.of_eq rfl rfl : world.Keyed).addToBatch hidle chunk monotonic).of_eq rfl rfl⟩)
      world.privateCloudQueue hidle ⟨h, hkeyed⟩
    exact ⟨hdrained.1.used, hdrained.1.bound, hdrained.1.limit⟩

theorem Accounted.itemProcessed (h : world.Accounted) : world.itemProcessed.Accounted := by
  unfold AudioWorld.itemProcessed
  cases hprocessing : world.processing with
  | nil => exact h
  | cons item rest =>
    have hold := h.used
    simp only [audioHeld, hprocessing, totalSize_cons, itemSize] at hold
    refine ⟨?_, (Nat.sub_le _ _).trans h.bound, h.limit⟩
    simp only [cloudHeld, audioHeld, ByteBudget.release] at hold ⊢
    omega

theorem Accounted.audioRound (h : world.Accounted) : world.audioRound.Accounted := by
  unfold AudioWorld.audioRound
  split_ifs with hbusy
  · exact h
  · have hidle : world.processing = [] := not_not.mp hbusy
    refine ⟨?_, h.bound, h.limit⟩
    have hold := h.used
    simp only [cloudHeld, audioHeld, hidle, totalSize_nil] at hold ⊢
    omega

/-- While the connection is open, a private-cloud buffer that holds something belongs to the
current conversation. -/
def Owned (session : PusherSession) (world : AudioWorld β) : Prop :=
  world.websocketActive = true → world.bufferedConversation session = none →
    world.privateCloudSyncBuffer = []

theorem owned_of_some {conversationId : String} (hsync : session.privateCloudSyncEnabled = true)
    (hconversation : world.conversation = some conversationId) : world.Owned session := by
  intro _ hnone
  by_contra hbuffer
  have hlength : world.privateCloudSyncBuffer.length > 0 := List.length_pos_iff.mpr hbuffer
  simp [bufferedConversation, hsync, hlength, hconversation] at hnone

theorem Owned.of_empty (hempty : world.privateCloudSyncBuffer = []) : world.Owned session :=
  fun _ _ => hempty

theorem Owned.of_eq (h : world.Owned session) {next : AudioWorld β}
    (hactive : next.websocketActive = world.websocketActive)
    (hbuffer : next.privateCloudSyncBuffer = world.privateCloudSyncBuffer)
    (hcurrent : next.currentConversationId = world.currentConversationId) :
    next.Owned session := by
  intro hopen hnone
  rw [hbuffer]
  refine h (hactive ▸ hopen) ?_
  simpa only [bufferedConversation, conversation, hbuffer, hcurrent] using hnone

theorem Owned.receiveConversation (h : world.Owned session) (hactive : world.websocketActive = true)
    (newConversationId : String) (now : ℚ) :
    (world.receiveConversation session newConversationId now).Owned session := by
  unfold AudioWorld.receiveConversation
  cases hbuffered : world.bufferedConversation session with
  | none =>
    have hempty : world.privateCloudSyncBuffer = [] := h hactive hbuffered
    exact .of_empty hempty
  | some current =>
    by_cases hsame : current = newConversationId
    · simp only [if_pos hsame]
      unfold bufferedConversation at hbuffered
      split_ifs at hbuffered with hsync
      have hcurrent := hbuffered
      rw [conversation, Option.filter_eq_some_iff] at hcurrent
      subst hsame
      have howner : ({ world with currentConversationId := some current } :
          AudioWorld β).conversation = some current := by
        simpa [conversation] using hcurrent.2
      exact owned_of_some hsync.1 howner
    · simp only [if_neg hsame]
      exact .of_empty rfl

theorem extendPrivate_conversation (conversationId : String) (timestamp : ℚ) (data : List β) :
    (world.extendPrivate conversationId timestamp data).conversation = world.conversation := by
  unfold AudioWorld.extendPrivate
  cases extendBounded world.privateCloudSyncBuffer data world.budget <;> rfl

theorem Owned.receivePrivate (h : world.Owned session) (timestamp : ℚ) (data : List β) :
    (world.receivePrivate session timestamp data).Owned session := by
  unfold AudioWorld.receivePrivate
  cases hconversation : world.conversation with
  | none => exact h
  | some conversationId =>
    dsimp only
    by_cases hsync : session.privateCloudSyncEnabled = true
    · rw [if_pos hsync]
      unfold AudioWorld.queueFullChunk
      split_ifs
      · exact .of_empty rfl
      · have hextended : ((world.record (.received conversationId data)).extendPrivate
            conversationId timestamp data).conversation = some conversationId := by
          rw [extendPrivate_conversation]
          exact hconversation
        exact owned_of_some hsync hextended
    · rw [if_neg hsync]
      exact h.of_eq rfl rfl rfl

theorem Owned.receive (h : world.Owned session) (hactive : world.websocketActive = true)
    (frame : Frame β) (now : ℚ) : (world.receive session frame now).Owned session := by
  cases frame with
  | heartbeat => exact h
  | other => exact h
  | conversation conversationId => exact h.receiveConversation hactive conversationId now
  | audio timestamp data =>
    have htrigger : (world.extendTrigger session data).Owned session := by
      unfold AudioWorld.extendTrigger
      split_ifs
      · cases extendBounded world.triggerAudiobuffer data world.budget <;>
          exact h.of_eq rfl rfl rfl
      · exact h
    have hwebhook : ((world.extendTrigger session data).extendWebhook session data).Owned
        session := by
      unfold AudioWorld.extendWebhook
      split_ifs
      · cases extendBounded (world.extendTrigger session data).audiobuffer data
            (world.extendTrigger session data).budget <;>
          exact htrigger.of_eq rfl rfl rfl
      · exact htrigger
    have hprivate := hwebhook.receivePrivate timestamp data
    show ((AudioWorld.queueTrigger session _).queueWebhook session).Owned session
    unfold AudioWorld.queueWebhook AudioWorld.queueTrigger
    split_ifs <;> exact hprivate.of_eq rfl rfl rfl

theorem Owned.close (now : ℚ) : (world.close session now).Owned session := by
  unfold AudioWorld.close
  cases world.bufferedConversation session <;> exact fun hopen => by cases hopen

theorem Accounted.close (h : world.Accounted) (howned : world.Owned session)
    (hactive : world.websocketActive = true) (now : ℚ) : (world.close session now).Accounted := by
  unfold AudioWorld.close
  cases hbuffered : world.bufferedConversation session with
  | some current => exact h.closeQueued hactive current (world.chunkTimestamp now)
  | none =>
    have hempty := howned hactive hbuffered
    refine ⟨?_, h.bound, h.limit⟩
    have hold := h.used
    simp only [cloudHeld, audioHeld, hactive, hempty, cond_true, cond_false, List.length_nil]
      at hold ⊢
    exact hold

theorem openBatch_frame (world : AudioWorld β) (chunk : PrivateCloudChunk β) (monotonic : ℚ) :
    (world.openBatch chunk monotonic).websocketActive = world.websocketActive ∧
      (world.openBatch chunk monotonic).privateCloudSyncBuffer = world.privateCloudSyncBuffer ∧
      (world.openBatch chunk monotonic).currentConversationId = world.currentConversationId := by
  have hbounded : world.boundPrivatePending.websocketActive = world.websocketActive ∧
      world.boundPrivatePending.privateCloudSyncBuffer = world.privateCloudSyncBuffer ∧
      world.boundPrivatePending.currentConversationId = world.currentConversationId := by
    rcases world.boundPrivatePending_cases with hsame | ⟨oldest, rest, -, -, hbound⟩
    · rw [hsame]
      exact ⟨rfl, rfl, rfl⟩
    · rw [hbound]
      exact ⟨rfl, rfl, rfl⟩
  rcases world.openBatch_cases chunk monotonic with ⟨-, hopen⟩ | ⟨-, hopen⟩
  · rw [hopen]
    exact ⟨rfl, rfl, rfl⟩
  · rw [hopen]
    exact hbounded

theorem Owned.addToBatch (h : world.Owned session) (chunk : PrivateCloudChunk β)
    (monotonic : ℚ) : (world.addToBatch chunk monotonic).Owned session := by
  unfold AudioWorld.addToBatch
  split_ifs
  · exact h.of_eq rfl rfl rfl
  · obtain ⟨hactive, hbuffer, hcurrent⟩ := world.openBatch_frame chunk monotonic
    exact h.of_eq hactive hbuffer hcurrent

theorem Owned.step (h : world.Owned session) (hkeyed : world.Keyed) (action : AudioAction β) :
    (world.step session action).Owned session := by
  cases action with
  | receive frame now =>
    simp only [AudioWorld.step]
    split_ifs with hactive
    · exact h.receive hactive frame now
    · exact h
  | close now =>
    simp only [AudioWorld.step]
    split_ifs
    · exact .close now
    · exact h
  | privateRound monotonic =>
    simp only [AudioWorld.step, AudioWorld.privateRound]
    split_ifs with hbusy
    · exact h
    · have hidle : world.flushing = none := by
        rw [not_or] at hbusy
        simpa using hbusy.1
      have hdrained := @drain_induction β world (fun world => world.Owned session) monotonic
        (fun world chunk rest _ howned =>
          ((howned.of_eq rfl rfl rfl : world.Owned session).addToBatch chunk monotonic).of_eq
            rfl rfl rfl)
        world.privateCloudQueue hidle (h.of_eq rfl rfl rfl)
      exact hdrained.of_eq rfl rfl rfl
  | startFlush =>
    rcases world.startFlush_cases hkeyed with hsame | ⟨rest, hpassed⟩ | ⟨rest, before, batch, after,
      -, -, hstarted⟩
    · simp only [AudioWorld.step, hsame]
      exact h
    · simp only [AudioWorld.step, hpassed]
      exact h.of_eq rfl rfl rfl
    · simp only [AudioWorld.step, hstarted]
      exact h.of_eq rfl rfl rfl
  | uploadStored =>
    simp only [AudioWorld.step, AudioWorld.uploadStored]
    rcases world.flushing with - | ⟨batch, - | -⟩
    · exact h
    · exact h.of_eq rfl rfl rfl
    · exact h
  | uploadFailed monotonic =>
    simp only [AudioWorld.step, AudioWorld.uploadFailed]
    rcases world.flushing with - | ⟨batch, - | -⟩
    · exact h
    · dsimp only
      by_cases hretry : batch.retries < privateCloudSyncMaxRetries
      · rw [if_pos hretry]
        exact h.of_eq rfl rfl rfl
      · rw [if_neg hretry]
        exact h.of_eq rfl rfl rfl
    · exact h
  | finishFlush ended =>
    simp only [AudioWorld.step, AudioWorld.finishFlush]
    rcases world.flushing with - | ⟨batch, - | -⟩
    · exact h
    · exact h
    · cases ended <;> exact h.of_eq rfl rfl rfl
  | audioRound =>
    simp only [AudioWorld.step, AudioWorld.audioRound]
    split_ifs
    · exact h
    · exact h.of_eq rfl rfl rfl
  | itemProcessed =>
    simp only [AudioWorld.step, AudioWorld.itemProcessed]
    cases world.processing with
    | nil => exact h
    | cons item rest => exact h.of_eq rfl rfl rfl

theorem Accounted.step (h : world.Accounted) (hkeyed : world.Keyed) (howned : world.Owned session)
    (action : AudioAction β) : (world.step session action).Accounted := by
  cases action with
  | receive frame now =>
    simp only [AudioWorld.step]
    split_ifs with hactive
    · exact h.receive hactive frame now
    · exact h
  | close now =>
    simp only [AudioWorld.step]
    split_ifs with hactive
    · exact h.close howned hactive now
    · exact h
  | privateRound monotonic => exact h.privateRound hkeyed monotonic
  | startFlush => exact h.startFlush hkeyed
  | uploadStored => exact h.uploadStored
  | uploadFailed monotonic => exact h.uploadFailed monotonic
  | finishFlush ended => exact h.finishFlush ended
  | audioRound => exact h.audioRound
  | itemProcessed => exact h.itemProcessed

end AudioWorld
end Omi.PusherServer
