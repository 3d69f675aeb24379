import Omi.Foundation.SendLedger
import Omi.Pusher.Frames

/-! Where received audio and transcript segments are: sent, being sent, buffered or discarded. -/
namespace Omi.Pusher
open Omi.Foundation

section entries
variable {β σ : Type}

def PusherEntry.audioSent : PusherEntry β σ → List β
  | .sent _ (.audio _ audioData) => audioData
  | _ => []

def PusherEntry.audioDiscarded : PusherEntry β σ → List β
  | .discardedAudio audioBytes => audioBytes
  | _ => []

def PusherEntry.segmentsSent : PusherEntry β σ → List σ
  | .sent _ (.transcript segments _) => segments
  | _ => []

def PusherEntry.segmentsDiscarded : PusherEntry β σ → List σ
  | .discardedSegments segments => segments
  | _ => []

/-- The chunks that a flush has detached. -/
def AudioFlush.pendingChunks : AudioFlush β → List (List β)
  | .announcing .. => []
  | .sending _ _ pendingChunks _ => pendingChunks

def AudioFlush.pendingTotalSize : AudioFlush β → ℤ
  | .announcing .. => 0
  | .sending _ _ _ pendingTotalSize => pendingTotalSize

end entries

namespace PusherData
variable {σ : Type} (data : PusherData σ)

def audioLedger : SendLedger UInt8 where
  received := data.receivedAudio
  sent := data.transfers.flatMap PusherEntry.audioSent
  sending := (data.audioFlush.map AudioFlush.pendingChunks).getD [] |>.flatten
  buffered := data.audioChunks.flatten
  discarded := data.transfers.flatMap PusherEntry.audioDiscarded

def segmentLedger : SendLedger σ where
  received := data.receivedSegments
  sent := data.transfers.flatMap PusherEntry.segmentsSent
  sending := (data.transcriptFlush.map TranscriptFlush.pendingSegments).getD []
  buffered := data.segmentBuffers
  discarded := data.transfers.flatMap PusherEntry.segmentsDiscarded

/-- The counter is the size of the buffer, which has its bound; so has what is being sent. -/
structure Sized (config : ListenPusherSessionConfig) : Prop where
  total : data.audioTotalSize = (data.audioChunks.map List.length).sum
  bounded : data.audioTotalSize ≤ config.maxAudioBufferSize
  pending : ∀ flush, data.audioFlush = some flush →
    flush.pendingTotalSize = (flush.pendingChunks.map List.length).sum
  segments : data.segmentBuffers.length ≤ config.maxSegmentBufferSize

end PusherData

/-! ### Evictions -/

section evict
variable {β : Type} (full : ℤ → Bool)

/-- What is evicted comes off the front, until what is left is not full. -/
theorem evict_spec (chunks : List (List β)) :
    let evicted := evict full chunks (chunks.map List.length).sum
    evicted.dropped ++ evicted.chunks.flatten = chunks.flatten ∧
      evicted.totalSize = (evicted.chunks.map List.length).sum ∧
      (full evicted.totalSize = false ∨ evicted.chunks = []) := by
  induction chunks with
  | nil => exact ⟨rfl, rfl, .inr rfl⟩
  | cons chunk chunks ih =>
    have hrest : (((chunk :: chunks).map List.length).sum : ℤ) - chunk.length =
        (chunks.map List.length).sum := by
      simp
    unfold evict
    rw [hrest]
    by_cases hfull : full ((chunk :: chunks).map List.length).sum = true
    · rw [if_pos hfull]
      obtain ⟨hflatten, htotal, hstop⟩ := ih
      refine ⟨?_, htotal, hstop⟩
      dsimp only
      rw [List.append_assoc, hflatten, List.flatten_cons]
    · rw [if_neg hfull]
      exact ⟨rfl, rfl, .inl (Bool.not_eq_true _ ▸ hfull)⟩

/-- A buffer that is not full stays as it is. -/
theorem evict_idle {chunks : List (List β)} {totalSize : ℤ} (h : full totalSize = false) :
    evict full chunks totalSize = ⟨[], chunks, totalSize⟩ := by
  cases chunks with
  | nil => rfl
  | cons chunk chunks =>
    unfold evict
    rw [h]
    rfl

end evict

section deque
variable {σ : Type} (maxlen : ℕ) (items : List σ)

theorem dropOldest_keepLast : dropOldest maxlen items ++ keepLast maxlen items = items :=
  List.take_append_drop _ _

theorem length_keepLast : (keepLast maxlen items).length ≤ maxlen := by
  unfold keepLast
  rw [List.length_drop]
  omega

end deque

namespace ListenPusherSession
variable {β σ : Type} {config : ListenPusherSessionConfig} {session : ListenPusherSession β σ}

variable (config session) in
/-- New audio joins at the end of the buffer; what overflows is the oldest of both. -/
theorem audioBytesSend_spec
    (htotal : session.audioTotalSize = (session.audioChunks.map List.length).sum)
    (audioBytes : List β) (receivedAt : ℚ) :
    let received := session.audioBytesSend config audioBytes receivedAt
    received.2 ++ received.1.audioChunks.flatten = session.audioChunks.flatten ++ audioBytes ∧
      received.1.audioTotalSize = (received.1.audioChunks.map List.length).sum ∧
      received.1.audioTotalSize ≤ config.maxAudioBufferSize := by
  unfold audioBytesSend
  dsimp only
  generalize hchunk : (if config.maxAudioBufferSize < audioBytes.length then
    audioBytes.drop (audioBytes.length - config.maxAudioBufferSize) else audioBytes) = chunk
  have hbound : chunk.length ≤ config.maxAudioBufferSize := by
    rw [← hchunk]
    split_ifs with hlong
    · rw [List.length_drop]
      omega
    · omega
  have hcut : audioBytes.take (audioBytes.length - chunk.length) ++ chunk = audioBytes ∧
      (audioBytes.take (audioBytes.length - chunk.length) = [] ∨
        chunk.length = config.maxAudioBufferSize) := by
    rw [← hchunk]
    split_ifs with hlong
    · have hlength : (audioBytes.drop (audioBytes.length - config.maxAudioBufferSize)).length =
          config.maxAudioBufferSize := by
        rw [List.length_drop]
        omega
      rw [hlength]
      exact ⟨List.take_append_drop _ _, .inr rfl⟩
    · rw [Nat.sub_self]
      exact ⟨rfl, .inl rfl⟩
  obtain ⟨hflatten, hsize, hstop⟩ :=
    evict_spec (fun totalSize => config.maxAudioBufferSize < totalSize + chunk.length)
      session.audioChunks
  rw [← htotal] at hflatten hsize hstop
  generalize evict (fun totalSize => config.maxAudioBufferSize < totalSize + chunk.length)
    session.audioChunks session.audioTotalSize = evicted at hflatten hsize hstop ⊢
  have hroom : evicted.totalSize + chunk.length ≤ config.maxAudioBufferSize := by
    rcases hstop with hnotFull | hempty
    · simpa using hnotFull
    · rw [hempty] at hsize
      simp only [List.map_nil, List.sum_nil, Nat.cast_zero] at hsize
      rw [hsize]
      omega
  -- a chunk that had to be cut leaves room for nothing else
  have hjoin : audioBytes.take (audioBytes.length - chunk.length) = [] ∨
      evicted.chunks.flatten = [] := by
    rcases hcut.2 with huncut | hfull
    · exact .inl huncut
    · right
      have hzero : (evicted.chunks.map List.length).sum = 0 := by omega
      rw [← List.length_eq_zero_iff, List.length_flatten]
      exact hzero
  refine ⟨?_, ?_, hroom⟩
  · rw [List.flatten_append, List.flatten_singleton, ← hflatten]
    rcases hjoin with hnil | hnil
    · have hwhole : chunk = audioBytes := by
        have hjoined := hcut.1
        rwa [hnil, List.nil_append] at hjoined
      rw [hnil, List.append_nil, hwhole, List.append_assoc]
    · rw [hnil, List.nil_append, List.append_nil, List.append_assoc, hcut.1]
  · rw [hsize, List.map_append, List.sum_append]
    simp

variable (config session) in
/-- A failed send comes back in front of the buffer; what overflows is the oldest of both. -/
theorem restoreAudio_spec
    (htotal : session.audioTotalSize = (session.audioChunks.map List.length).sum)
    {pendingChunks : List (List β)} {pendingTotalSize : ℤ}
    (hpending : pendingTotalSize = (pendingChunks.map List.length).sum) :
    let restored := session.restoreAudio config pendingChunks pendingTotalSize
    restored.2 ++ restored.1.audioChunks.flatten =
        pendingChunks.flatten ++ session.audioChunks.flatten ∧
      restored.1.audioTotalSize = (restored.1.audioChunks.map List.length).sum ∧
      restored.1.audioTotalSize ≤ config.maxAudioBufferSize := by
  have hsum : session.audioTotalSize + pendingTotalSize =
      ((pendingChunks ++ session.audioChunks).map List.length).sum := by
    rw [htotal, hpending, List.map_append, List.sum_append]
    push_cast
    exact add_comm _ _
  unfold restoreAudio
  dsimp only
  rw [hsum]
  obtain ⟨hflatten, hsize, hstop⟩ :=
    evict_spec (fun totalSize => config.maxAudioBufferSize < totalSize)
      (pendingChunks ++ session.audioChunks)
  refine ⟨hflatten.trans List.flatten_append, hsize, ?_⟩
  rcases hstop with hnotFull | hempty
  · simpa using hnotFull
  · rw [hsize, hempty]
    simp

/-- An audio buffer that is taken out and put back is the same buffer. -/
theorem restoreAudio_idle
    (hbounded : session.audioTotalSize ≤ config.maxAudioBufferSize) :
    ({ session with audioChunks := [], audioTotalSize := 0 } : ListenPusherSession β σ).restoreAudio
      config session.audioChunks session.audioTotalSize = (session, []) := by
  have hnotFull : (fun totalSize : ℤ => decide (config.maxAudioBufferSize < totalSize))
      (0 + session.audioTotalSize) = false := by
    simpa using hbounded
  unfold restoreAudio
  dsimp only
  rw [evict_idle _ hnotFull, List.append_nil, zero_add]

end ListenPusherSession

namespace PusherWorld
variable {σ : Type} {config : ListenPusherSessionConfig} {world : PusherWorld σ}

/-- A step of the session is a step of its two ledgers, and keeps the sizes. -/
structure Refines (config : ListenPusherSessionConfig) (data next : PusherData σ) : Prop where
  audio : SendLedger.Step data.audioLedger next.audioLedger
  segments : SendLedger.Step data.segmentLedger next.segmentLedger
  sized : next.Sized config

theorem refines_of_data (h : world.data.Sized config) {next : PusherWorld σ}
    (hdata : next.data = world.data) : Refines config world.data next.data := by
  rw [hdata]
  exact ⟨.same _, .same _, h⟩

section ledgers
variable {data next : PusherData σ}

/-- A new entry adds to what its ledger has sent or discarded. -/
theorem audioLedger_concat {entry : PusherEntry (UInt8 × ℕ) (σ × ℕ)}
    (hlog : next.transfers = data.transfers ++ [entry]) :
    next.audioLedger =
      { received := next.receivedAudio
        sent := data.audioLedger.sent ++ entry.audioSent
        sending := next.audioLedger.sending
        buffered := next.audioChunks.flatten
        discarded := data.audioLedger.discarded ++ entry.audioDiscarded } := by
  unfold PusherData.audioLedger
  rw [hlog, List.flatMap_append, List.flatMap_append, List.flatMap_singleton,
    List.flatMap_singleton]

theorem segmentLedger_concat {entry : PusherEntry (UInt8 × ℕ) (σ × ℕ)}
    (hlog : next.transfers = data.transfers ++ [entry]) :
    next.segmentLedger =
      { received := next.receivedSegments
        sent := data.segmentLedger.sent ++ entry.segmentsSent
        sending := next.segmentLedger.sending
        buffered := next.segmentBuffers
        discarded := data.segmentLedger.discarded ++ entry.segmentsDiscarded } := by
  unfold PusherData.segmentLedger
  rw [hlog, List.flatMap_append, List.flatMap_append, List.flatMap_singleton,
    List.flatMap_singleton]

theorem audioLedger_discarded {audioBytes : List (UInt8 × ℕ)}
    (hlog : next.transfers = data.transfers ++ [PusherEntry.discardedAudio audioBytes]) :
    next.audioLedger =
      { received := next.receivedAudio
        sent := data.audioLedger.sent
        sending := next.audioLedger.sending
        buffered := next.audioChunks.flatten
        discarded := data.audioLedger.discarded ++ audioBytes } := by
  have hnil : data.audioLedger.sent ++ [] = data.audioLedger.sent := List.append_nil _
  rw [← hnil]
  exact audioLedger_concat hlog

theorem segmentLedger_discarded {segments : List (σ × ℕ)}
    (hlog : next.transfers = data.transfers ++ [PusherEntry.discardedSegments segments]) :
    next.segmentLedger =
      { received := next.receivedSegments
        sent := data.segmentLedger.sent
        sending := next.segmentLedger.sending
        buffered := next.segmentBuffers
        discarded := data.segmentLedger.discarded ++ segments } := by
  have hnil : data.segmentLedger.sent ++ [] = data.segmentLedger.sent := List.append_nil _
  rw [← hnil]
  exact segmentLedger_concat hlog

/-- An entry that neither sends nor discards. -/
theorem audioLedger_silent {entry : PusherEntry (UInt8 × ℕ) (σ × ℕ)}
    (hlog : next.transfers = data.transfers ++ [entry]) (hsent : entry.audioSent = [])
    (hdiscarded : entry.audioDiscarded = []) :
    next.audioLedger =
      { received := next.receivedAudio
        sent := data.audioLedger.sent
        sending := next.audioLedger.sending
        buffered := next.audioChunks.flatten
        discarded := data.audioLedger.discarded } := by
  rw [audioLedger_concat hlog, hsent, hdiscarded, List.append_nil, List.append_nil]

theorem segmentLedger_silent {entry : PusherEntry (UInt8 × ℕ) (σ × ℕ)}
    (hlog : next.transfers = data.transfers ++ [entry]) (hsent : entry.segmentsSent = [])
    (hdiscarded : entry.segmentsDiscarded = []) :
    next.segmentLedger =
      { received := next.receivedSegments
        sent := data.segmentLedger.sent
        sending := next.segmentLedger.sending
        buffered := next.segmentBuffers
        discarded := data.segmentLedger.discarded } := by
  rw [segmentLedger_concat hlog, hsent, hdiscarded, List.append_nil, List.append_nil]

end ledgers

theorem refines_receiveAudio (h : world.data.Sized config) (audioBytes : List UInt8)
    (receivedAt : ℚ) :
    Refines config world.data (world.receiveAudio config audioBytes receivedAt).data := by
  obtain ⟨hsplit, htotal, hbounded⟩ :=
    ListenPusherSession.audioBytesSend_spec config world.session h.total
      (audioBytes.zipIdx world.receivedAudio.length) receivedAt
  have hlog : (world.receiveAudio config audioBytes receivedAt).data.transfers =
      world.data.transfers ++ [PusherEntry.discardedAudio _] := filter_transfers_concat world.log _
  refine ⟨?_, ?_, ⟨htotal, hbounded, h.pending, h.segments⟩⟩
  · rw [audioLedger_discarded hlog]
    exact .receive world.data.audioLedger audioBytes _ _ hsplit
  · rw [segmentLedger_silent hlog rfl rfl]
    exact .same world.data.segmentLedger

theorem refines_receiveSegments (h : world.data.Sized config) (segments : List σ) :
    Refines config world.data (world.receiveSegments config segments).data := by
  have hlog : (world.receiveSegments config segments).data.transfers =
      world.data.transfers ++ [PusherEntry.discardedSegments _] :=
    filter_transfers_concat world.log _
  refine ⟨?_, ?_, ⟨h.total, h.bounded, h.pending, length_keepLast _ _⟩⟩
  · rw [audioLedger_silent hlog rfl rfl]
    exact .same world.data.audioLedger
  · rw [segmentLedger_discarded hlog]
    exact .receive world.data.segmentLedger segments _ _ (dropOldest_keepLast _ _)

/-! ### Audio flushes -/

/-- A flush that has nothing in its hands ends. -/
theorem refines_endFlush (h : world.data.Sized config)
    (hidle : world.data.audioLedger.sending = []) :
    Refines config world.data ({ world with audioFlush := none } : PusherWorld σ).data := by
  have hsame : ({ world with audioFlush := none } : PusherWorld σ).data.audioLedger =
      world.data.audioLedger := by
    have hledger : world.data.audioLedger = { world.data.audioLedger with sending := [] } := by
      rw [← hidle]
    rw [hledger]
    rfl
  refine ⟨?_, .same _, ⟨h.total, h.bounded, fun _ hnone => (by cases hnone), h.segments⟩⟩
  rw [hsame]
  exact .same _

theorem refines_detachAudio (h : world.data.Sized config)
    (hidle : world.data.audioLedger.sending = []) (ws : ℕ) (conversationId : Option String)
    (start : ℚ) : Refines config world.data (world.detachAudio ws conversationId start).data := by
  have hlog : (world.detachAudio ws conversationId start).data.transfers =
      world.data.transfers ++ [PusherEntry.sending ws (.audio start _) conversationId] :=
    filter_transfers_concat world.log _
  refine ⟨?_, ?_, ⟨rfl, Int.natCast_nonneg _, fun flush hflush => ?_, h.segments⟩⟩
  · rw [audioLedger_silent hlog rfl rfl]
    exact .detach world.data.audioLedger hidle
  · rw [segmentLedger_silent hlog rfl rfl]
    exact .same world.data.segmentLedger
  · cases hflush
    exact h.total

/-- The second half of an audio flush detaches the buffer, where nothing is being sent. -/
theorem refines_sendAudio (h : world.data.Sized config)
    (hidle : world.data.audioLedger.sending = []) (conversationId : Option String) (now : ℚ) :
    Refines config world.data (world.sendAudio config conversationId now).data := by
  unfold sendAudio
  dsimp only
  cases world.session.pusherWs.filter fun _ =>
      world.session.pusherConnected && 0 < world.session.audioTotalSize with
  | none => exact refines_endFlush h hidle
  | some ws =>
    cases world.session.bufferStartTime config now with
    | none =>
      dsimp only
      rw [ListenPusherSession.restoreAudio_idle h.bounded]
      exact refines_endFlush h hidle
    | some start => exact refines_detachAudio h hidle ws conversationId start

theorem refines_restoreAudio (h : world.data.Sized config) {ws : ℕ} {start : ℚ}
    {pendingChunks : List (List (UInt8 × ℕ))} {pendingTotalSize : ℤ}
    (hflush : world.audioFlush = some (.sending ws start pendingChunks pendingTotalSize)) :
    Refines config world.data (world.restoreAudio config pendingChunks pendingTotalSize).data := by
  have hpending := h.pending _ hflush
  obtain ⟨hsplit, htotal, hbounded⟩ :=
    ListenPusherSession.restoreAudio_spec config world.session h.total
      hpending
  have hlog : (world.restoreAudio config pendingChunks pendingTotalSize).data.transfers =
      world.data.transfers ++ [PusherEntry.discardedAudio _] := filter_transfers_concat world.log _
  have hsending : world.data.audioLedger.sending = pendingChunks.flatten := by
    simp [PusherData.audioLedger, data, hflush, AudioFlush.pendingChunks]
  refine ⟨?_, ?_, ⟨htotal, hbounded, fun _ hnone => (by cases hnone), h.segments⟩⟩
  · rw [audioLedger_discarded hlog]
    exact .restore world.data.audioLedger _ _ (hsending.symm ▸ hsplit)
  · rw [segmentLedger_silent hlog rfl rfl]
    exact .same world.data.segmentLedger

/-- The announced conversation is no audio. -/
theorem refines_announced (h : world.data.Sized config) (ws : ℕ) (conversationId : String) :
    Refines config world.data (world.announced ws conversationId).data ∧
      (world.announced ws conversationId).data.audioLedger = world.data.audioLedger ∧
      (world.announced ws conversationId).data.segmentLedger = world.data.segmentLedger := by
  have hlog : (world.announced ws conversationId).data.transfers =
      world.data.transfers ++ [PusherEntry.sent ws (.conversation conversationId)] :=
    filter_transfers_concat world.log _
  have haudio : (world.announced ws conversationId).data.audioLedger = world.data.audioLedger :=
    audioLedger_silent hlog rfl rfl
  have hsegments : (world.announced ws conversationId).data.segmentLedger =
      world.data.segmentLedger := segmentLedger_silent hlog rfl rfl
  refine ⟨⟨?_, ?_, ⟨h.total, h.bounded, h.pending, h.segments⟩⟩, haudio, hsegments⟩
  · rw [haudio]
    exact .same _
  · rw [hsegments]
    exact .same _

theorem refines_announce (h : world.data.Sized config)
    (hidle : world.data.audioLedger.sending = []) (ws : ℕ) (conversationId : String) :
    Refines config world.data (world.announce ws conversationId).data := by
  have hlog : (world.announce ws conversationId).data.transfers =
      world.data.transfers ++
        [PusherEntry.sending ws (.conversation conversationId) world.conversation] :=
    filter_transfers_concat world.log _
  refine ⟨?_, ?_, ⟨h.total, h.bounded, fun flush hflush => ?_, h.segments⟩⟩
  · have hledger : world.data.audioLedger = { world.data.audioLedger with sending := [] } := by
      rw [← hidle]
    rw [audioLedger_silent hlog rfl rfl, hledger]
    exact .same _
  · rw [segmentLedger_silent hlog rfl rfl]
    exact .same world.data.segmentLedger
  · cases hflush
    rfl

theorem refines_startAudioFlush (h : world.data.Sized config) (now : ℚ) :
    Refines config world.data (world.startAudioFlush config now).data := by
  unfold startAudioFlush
  cases hflush : world.audioFlush with
  | some flush => exact refines_of_data h rfl
  | none =>
    have hidle : world.data.audioLedger.sending = [] := by
      simp [PusherData.audioLedger, data, hflush]
    cases world.announcement with
    | none => exact refines_sendAudio h hidle _ now
    | some announced => exact refines_announce h hidle _ _

theorem refines_sentAudio (h : world.data.Sized config) {ws : ℕ} {start : ℚ}
    {pendingChunks : List (List (UInt8 × ℕ))} {pendingTotalSize : ℤ}
    (hflush : world.audioFlush = some (.sending ws start pendingChunks pendingTotalSize)) :
    Refines config world.data (world.sentAudio ws start pendingChunks).data := by
  have hlog : (world.sentAudio ws start pendingChunks).data.transfers =
      world.data.transfers ++ [PusherEntry.sent ws (.audio start pendingChunks.flatten)] :=
    filter_transfers_concat world.log _
  have hsending : world.data.audioLedger.sending = pendingChunks.flatten := by
    simp [PusherData.audioLedger, data, hflush, AudioFlush.pendingChunks]
  refine ⟨?_, ?_, ⟨h.total, h.bounded, fun _ hnone => (by cases hnone), h.segments⟩⟩
  · have hledger : (world.sentAudio ws start pendingChunks).data.audioLedger =
        { world.data.audioLedger with
          sent := world.data.audioLedger.sent ++ world.data.audioLedger.sending
          sending := []
          discarded := world.data.audioLedger.discarded ++ [] } := by
      rw [audioLedger_concat hlog, hsending]
      rfl
    rw [hledger, List.append_nil]
    exact .deliver _
  · rw [segmentLedger_silent hlog rfl rfl]
    exact .same world.data.segmentLedger

theorem refines_resumeAudioFlush (h : world.data.Sized config) (outcome : SendOutcome) (now : ℚ) :
    Refines config world.data (world.resumeAudioFlush config outcome now).data := by
  unfold resumeAudioFlush
  cases hflush : world.audioFlush with
  | none => exact refines_of_data h rfl
  | some flush =>
    cases flush with
    | announcing ws conversationId =>
      have hidle : world.data.audioLedger.sending = [] := by
        simp [PusherData.audioLedger, data, hflush, AudioFlush.pendingChunks]
      cases outcome with
      | ok =>
        obtain ⟨hannounced, haudio, hsegments⟩ := refines_announced h ws conversationId
        have hsent := refines_sendAudio hannounced.sized (haudio.symm ▸ hidle)
          (some conversationId) now
        exact ⟨haudio ▸ hsent.audio, hsegments ▸ hsent.segments, hsent.sized⟩
      | connectionClosed =>
        have hdata : world.markDisconnected.data = world.data := data_markDisconnected
        have hsent : Refines config world.markDisconnected.data
            (world.markDisconnected.sendAudio config (some conversationId) now).data :=
          refines_sendAudio (hdata.symm ▸ h) (hdata.symm ▸ hidle) _ now
        exact hdata ▸ hsent
      | failed => exact refines_sendAudio h hidle _ now
      | cancelled => exact refines_endFlush h hidle
    | sending ws start pendingChunks pendingTotalSize =>
      cases outcome with
      | ok => exact refines_sentAudio h hflush
      | connectionClosed =>
        dsimp only
        rw [data_markDisconnected]
        exact refines_restoreAudio h hflush
      | failed => exact refines_restoreAudio h hflush
      | cancelled => exact refines_restoreAudio h hflush

/-! ### Transcript flushes -/

theorem refines_startTranscriptFlush (h : world.data.Sized config) :
    Refines config world.data world.startTranscriptFlush.data := by
  unfold startTranscriptFlush
  dsimp only
  cases hflush : world.transcriptFlush with
  | some flush => exact refines_of_data h rfl
  | none =>
    have hidle : world.data.segmentLedger.sending = [] := by
      simp [PusherData.segmentLedger, data, hflush]
    cases world.session.pusherWs.filter fun _ =>
        world.session.pusherConnected && !world.session.segmentBuffers.isEmpty with
    | none => exact refines_of_data h rfl
    | some ws =>
      have hlog : (world.detachSegments ws).data.transfers =
          world.data.transfers ++
            [.sending ws (.transcript world.session.segmentBuffers world.currentConversationId)
              world.conversation] := filter_transfers_concat world.log _
      refine ⟨?_, ?_, ⟨h.total, h.bounded, h.pending, Nat.zero_le _⟩⟩
      · show SendLedger.Step _ (world.detachSegments ws).data.audioLedger
        rw [audioLedger_silent hlog rfl rfl]
        exact .same world.data.audioLedger
      · show SendLedger.Step _ (world.detachSegments ws).data.segmentLedger
        rw [segmentLedger_silent hlog rfl rfl]
        exact .detach world.data.segmentLedger hidle

theorem refines_restoreSegments (h : world.data.Sized config) {flush : TranscriptFlush (σ × ℕ)}
    (hflush : world.transcriptFlush = some flush) :
    Refines config world.data (world.restoreSegments config flush.pendingSegments).data := by
  have hlog : (world.restoreSegments config flush.pendingSegments).data.transfers =
      world.data.transfers ++ [PusherEntry.discardedSegments _] :=
    filter_transfers_concat world.log _
  have hsending : world.data.segmentLedger.sending = flush.pendingSegments := by
    simp [PusherData.segmentLedger, data, hflush]
  refine ⟨?_, ?_, ⟨h.total, h.bounded, h.pending, length_keepLast _ _⟩⟩
  · rw [audioLedger_silent hlog rfl rfl]
    exact .same world.data.audioLedger
  · rw [segmentLedger_discarded hlog]
    exact .restore world.data.segmentLedger _ _ (hsending.symm ▸ dropOldest_keepLast _ _)

theorem refines_sentSegments (h : world.data.Sized config) {flush : TranscriptFlush (σ × ℕ)}
    (hflush : world.transcriptFlush = some flush) :
    Refines config world.data (world.sentSegments flush).data := by
  have hlog : (world.sentSegments flush).data.transfers =
      world.data.transfers ++
        [.sent flush.connection (.transcript flush.pendingSegments flush.memoryId)] :=
    filter_transfers_concat world.log _
  have hsending : world.data.segmentLedger.sending = flush.pendingSegments := by
    simp [PusherData.segmentLedger, data, hflush]
  refine ⟨?_, ?_, ⟨h.total, h.bounded, h.pending, h.segments⟩⟩
  · rw [audioLedger_silent hlog rfl rfl]
    exact .same world.data.audioLedger
  · have hledger : (world.sentSegments flush).data.segmentLedger =
        { world.data.segmentLedger with
          sent := world.data.segmentLedger.sent ++ world.data.segmentLedger.sending
          sending := []
          discarded := world.data.segmentLedger.discarded ++ [] } := by
      rw [segmentLedger_concat hlog, hsending]
      rfl
    rw [hledger, List.append_nil]
    exact .deliver _

theorem refines_resumeTranscriptFlush (h : world.data.Sized config) (outcome : SendOutcome) :
    Refines config world.data (world.resumeTranscriptFlush config outcome).data := by
  unfold resumeTranscriptFlush
  cases hflush : world.transcriptFlush with
  | none => exact refines_of_data h rfl
  | some flush =>
    cases outcome with
    | ok => exact refines_sentSegments h hflush
    | connectionClosed =>
      dsimp only
      rw [data_markDisconnected]
      exact refines_restoreSegments h hflush
    | failed => exact refines_restoreSegments h hflush
    | cancelled => exact refines_restoreSegments h hflush

/-! ### Steps -/

theorem refines_resumeConnect (h : world.data.Sized config) (event : ConnectEvent)
    (monotonic : ℤ) : Refines config world.data (world.resumeConnect event monotonic).data := by
  have hledgers : ∀ {next : PusherData σ}, next.audioLedger = world.data.audioLedger →
      next.segmentLedger = world.data.segmentLedger → next.Sized config →
      Refines config world.data next := by
    intro next haudio hsegments hsized
    refine ⟨?_, ?_, hsized⟩
    · rw [haudio]
      exact .same _
    · rw [hsegments]
      exact .same _
  rcases data_resumeConnect world event monotonic with hsame | hclosed | hopened
  · exact refines_of_data h hsame
  · rw [hclosed]
    exact hledgers rfl rfl ⟨h.total, h.bounded, h.pending, h.segments⟩
  · rw [hopened]
    exact hledgers rfl rfl ⟨h.total, h.bounded, h.pending, h.segments⟩

/-- Every step of the session's tasks is a step of both ledgers. -/
theorem refines_step (h : world.data.Sized config) (action : PusherAction σ) :
    Refines config world.data (world.step config action).data := by
  cases action with
  | audioBytesSend audioBytes receivedAt => exact refines_receiveAudio h audioBytes receivedAt
  | transcriptSend segments => exact refines_receiveSegments h segments
  | switchConversation conversationId => exact refines_of_data h rfl
  | deactivate => exact refines_of_data h rfl
  | shutDown => exact refines_of_data h rfl
  | startAudioFlush now => exact refines_startAudioFlush h now
  | resumeAudioFlush outcome now => exact refines_resumeAudioFlush h outcome now
  | startTranscriptFlush => exact refines_startTranscriptFlush h
  | resumeTranscriptFlush outcome => exact refines_resumeTranscriptFlush h outcome
  | exchangeClosed => exact refines_of_data h data_markDisconnected
  | startDegraded monotonic => exact refines_of_data h (data_startDegraded monotonic)
  | startConnect => exact refines_of_data h (data_beginConnect _ _)
  | resumeConnect event monotonic => exact refines_resumeConnect h event monotonic
  | resumeLoop number woken monotonic => exact refines_of_data h (data_resumeLoop _ _ _)

/-- Where everything is, after every run. -/
theorem conserved_run (config : ListenPusherSessionConfig) (actions : List (PusherAction σ)) :
    (run config actions).data.Sized config ∧ (run config actions).data.audioLedger.Conserved ∧
      (run config actions).data.segmentLedger.Conserved := by
  induction actions using List.reverseRecOn with
  | nil =>
    refine ⟨⟨rfl, Int.natCast_nonneg _, fun _ hnone => (by cases hnone), Nat.zero_le _⟩, ?_, ?_⟩
    · exact SendLedger.conserved_start
    · exact SendLedger.conserved_start
  | append_singleton actions action ih =>
    obtain ⟨hsized, haudio, hsegments⟩ := ih
    have hstep := refines_step hsized action
    unfold run
    rw [List.foldl_append]
    exact ⟨hstep.sized, hstep.audio.conserved haudio, hstep.segments.conserved hsegments⟩

end PusherWorld

/-- **The session's buffers conserve what they receive**, for every order of its tasks: the
audio counter is the size of the buffer and within its bound; what was sent, is being sent and
is buffered is, in order and without duplicates, what was received but for what was discarded;
and a step discards only what is older than the whole buffer that it leaves. -/
theorem pusherBuffers {σ : Type} (config : ListenPusherSessionConfig)
    (actions : List (PusherAction σ)) :
    let world := PusherWorld.run config actions
    (world.session.audioTotalSize = (world.session.audioChunks.map List.length).sum ∧
      world.session.audioTotalSize ≤ config.maxAudioBufferSize) ∧
    world.session.segmentBuffers.length ≤ config.maxSegmentBufferSize ∧
    world.data.audioLedger.Conserved ∧ world.data.segmentLedger.Conserved ∧
    ∀ action, SendLedger.DiscardsOldest world.data.audioLedger
        (world.step config action).data.audioLedger ∧
      SendLedger.DiscardsOldest world.data.segmentLedger
        (world.step config action).data.segmentLedger := by
  intro world
  obtain ⟨hsized, haudio, hsegments⟩ := PusherWorld.conserved_run config actions
  refine ⟨⟨hsized.total, hsized.bounded⟩, hsized.segments, haudio, hsegments, fun action => ?_⟩
  have hstep := PusherWorld.refines_step hsized action
  exact ⟨hstep.audio.discardsOldest haudio, hstep.segments.discardsOldest hsegments⟩

/-- A session that buffers two bytes. -/
def smallConfig : ListenPusherSessionConfig where
  sampleRate := 8000
  isMultiChannel := false
  maxSegmentBufferSize := 1000
  maxAudioBufferSize := 2
  maxAudioBufferSize_pos := by decide

/-- Two bytes are being sent when a third arrives. -/
def overflowingCapture : List (PusherAction String) :=
  [.startConnect, .resumeConnect .opened 0, .resumeConnect .finished 0, .audioBytesSend [1, 2] 0,
    .startAudioFlush 1, .audioBytesSend [3] 1]

theorem not_discardsOldestHeld :
    ¬ ∀ (config : ListenPusherSessionConfig) (actions : List (PusherAction String))
      (action : PusherAction String),
      SendLedger.DiscardsOldestHeld (PusherWorld.run config actions).data.audioLedger
        ((PusherWorld.run config actions).step config action).data.audioLedger := by
  intro h
  obtain ⟨overflow, hdiscarded, hold⟩ := h smallConfig overflowingCapture (.audioBytesSend [4, 5] 2)
  have hafter : ((PusherWorld.run smallConfig overflowingCapture).step smallConfig
      (.audioBytesSend [4, 5] 2)).data.audioLedger.discarded = [(3, 2)] := by decide +kernel
  have hbefore : (PusherWorld.run smallConfig overflowingCapture).data.audioLedger.discarded =
      [] := by decide +kernel
  have hheld : ((1, 0) : UInt8 × ℕ) ∈ ((PusherWorld.run smallConfig overflowingCapture).step
      smallConfig (.audioBytesSend [4, 5] 2)).data.audioLedger.sending := by decide +kernel
  rw [hafter, hbefore, List.nil_append] at hdiscarded
  have hlt := hold (3, 2) (hdiscarded ▸ List.mem_singleton_self _) (1, 0)
    (List.mem_append_left _ hheld)
  exact absurd hlt (by decide)

end Omi.Pusher
