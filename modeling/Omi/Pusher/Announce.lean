import Omi.Foundation.Runs
import Omi.Pusher.Frames

/-! Which conversation the pusher files audio under: it keeps one current conversation for each
connection, the session one last announced id for all of them. -/
namespace Omi.Pusher
open Omi.Foundation

/-- What a pusher sees of the frames, by connection: conversations that reached it, and audio
with the id that was current when its flush began. -/
inductive FrameSeen where
  | announced (connection : ℕ) (conversationId : String)
  | audio (connection : ℕ) (conversationId : String)
  deriving DecidableEq, Repr

def FrameSeen.announcement (connection : ℕ) : FrameSeen → Option String
  | .announced other conversationId => if other = connection then some conversationId else none
  | .audio _ _ => none

/-- The current conversation of the pusher on a connection (`receive_tasks`). -/
def lastAnnounced (frames : List FrameSeen) (connection : ℕ) : Option String :=
  (frames.filterMap (FrameSeen.announcement connection)).getLast?

/-- Audio is filed under the conversation that was current when its flush began. -/
def FiledRight (before : List FrameSeen) : FrameSeen → Prop
  | .announced _ _ => True
  | .audio connection conversationId => lastAnnounced before connection = some conversationId

@[simp] def PusherEntry.seen {β σ : Type} : PusherEntry β σ → Option FrameSeen
  | .sent connection (.conversation conversationId) => some (.announced connection conversationId)
  | .sending connection (.audio _ _) (some conversationId) =>
    some (.audio connection conversationId)
  | _ => none

/-- The part of the session that announcing is about. -/
structure Trail where
  synced : Option String
  announcedOn : Option ℕ
  pusherWs : Option ℕ
  connections : ℕ
  announcing : Option (ℕ × String)
  frames : List FrameSeen

def AudioFlush.announcing? {β : Type} : AudioFlush β → Option (ℕ × String)
  | .announcing connection conversationId => some (connection, conversationId)
  | .sending .. => none

namespace PusherWorld
variable {σ : Type} (config : ListenPusherSessionConfig) (world : PusherWorld σ)

def trail : Trail where
  synced := world.session.lastSyncedConversationId
  announcedOn := world.announcedOn
  pusherWs := world.session.pusherWs
  connections := world.connections
  announcing := world.audioFlush.bind AudioFlush.announcing?
  frames := world.log.filterMap PusherEntry.seen

/-- The connection that the second half of a flush sends audio on. -/
def audioConnection : Option ℕ :=
  if config.effectiveRate = 0 then none
  else
    world.session.pusherWs.filter fun _ =>
      world.session.pusherConnected && 0 < world.session.audioTotalSize

/-- When a step sends no audio under another conversation: a flush that finds its conversation
announced is on the connection it was announced on; a flush that announces is not overtaken by a
new connection; and an announcement that fails on a connection that stays is followed by no
audio. -/
def Announces : PusherAction σ → Prop
  | .startAudioFlush _ =>
    world.audioFlush = none → world.conversation.isSome → world.announcement = none →
      ∀ connection, world.audioConnection config = some connection →
        world.announcedOn = some connection
  | .resumeAudioFlush .ok _ =>
    ∀ ws conversationId, world.audioFlush = some (.announcing ws conversationId) →
      ∀ connection, world.audioConnection config = some connection → connection = ws
  | .resumeAudioFlush .failed _ =>
    ∀ ws conversationId, world.audioFlush = some (.announcing ws conversationId) →
      world.audioConnection config = none
  | _ => True

end PusherWorld

/-- Connections only grow, the last announcement was on the last one announced on, and an
announcement under way is on none before it. -/
structure Trail.Sound (trail : Trail) : Prop where
  current : ∀ connection, trail.announcedOn = some connection →
    lastAnnounced trail.frames connection = trail.synced
  unannounced : trail.announcedOn = none → trail.synced = none
  bound : ∀ connection conversationId,
    lastAnnounced trail.frames connection = some conversationId →
    ∃ last, trail.announcedOn = some last ∧ connection ≤ last
  ordered : ∀ last connection, trail.announcedOn = some last → trail.pusherWs = some connection →
    last ≤ connection
  fresh : ∀ last, trail.announcedOn = some last → last < trail.connections
  numbered : ∀ connection, trail.pusherWs = some connection → connection < trail.connections
  under : ∀ ws conversationId, trail.announcing = some (ws, conversationId) →
    ws < trail.connections ∧ trail.synced ≠ some conversationId ∧
    (∀ last, trail.announcedOn = some last → last ≤ ws) ∧
    ∀ connection, trail.pusherWs = some connection → ws ≤ connection

section frames
variable {frames : List FrameSeen}

theorem lastAnnounced_announced (connection other : ℕ) (conversationId : String) :
    lastAnnounced (frames ++ [FrameSeen.announced connection conversationId]) other =
      if connection = other then some conversationId else lastAnnounced frames other := by
  unfold lastAnnounced
  rw [List.filterMap_append]
  split_ifs with heq
  · simp [FrameSeen.announcement, heq]
  · simp [FrameSeen.announcement, heq]

theorem lastAnnounced_audio (connection other : ℕ) (conversationId : String) :
    lastAnnounced (frames ++ [FrameSeen.audio connection conversationId]) other =
      lastAnnounced frames other := by
  simp [lastAnnounced, FrameSeen.announcement]

end frames

namespace Trail.Sound
variable {trail : Trail}

/-- The pusher's conversation on the session's own connection. -/
theorem lastAnnounced_iff (h : trail.Sound) {connection : ℕ}
    (hws : trail.pusherWs = some connection) (conversationId : String) :
    lastAnnounced trail.frames connection = some conversationId ↔
      trail.announcedOn = some connection ∧ trail.synced = some conversationId := by
  constructor
  · intro hlast
    obtain ⟨last, hon, hle⟩ := h.bound connection conversationId hlast
    have hge := h.ordered last connection hon hws
    obtain rfl : last = connection := le_antisymm hge hle
    exact ⟨hon, (h.current last hon).symm.trans hlast⟩
  · rintro ⟨hon, hsynced⟩
    exact (h.current connection hon).trans hsynced

/-- Audio changes nothing that announcing is about. -/
theorem audio (h : trail.Sound) (connection : ℕ) (conversationId : String)
    (announcing : Option (ℕ × String)) (hannouncing : announcing = none) :
    ({ trail with
        announcing := announcing
        frames := trail.frames ++ [FrameSeen.audio connection conversationId] } : Trail).Sound := by
  refine ⟨fun other hon => ?_, h.unannounced, fun other id hlast => ?_, h.ordered, h.fresh,
    h.numbered, fun ws id hunder => ?_⟩
  · rw [lastAnnounced_audio]
    exact h.current other hon
  · rw [lastAnnounced_audio] at hlast
    exact h.bound other id hlast
  · rw [hannouncing] at hunder
    cases hunder

theorem done (h : trail.Sound) : ({ trail with announcing := none } : Trail).Sound :=
  ⟨h.current, h.unannounced, h.bound, h.ordered, h.fresh, h.numbered,
    fun _ _ hunder => nomatch hunder⟩

/-- A new connection. -/
theorem opened (h : trail.Sound) :
    ({ trail with
        pusherWs := some trail.connections
        connections := trail.connections + 1 } : Trail).Sound := by
  refine ⟨h.current, h.unannounced, h.bound, fun last connection hon hws => ?_,
    fun last hon => ?_, fun connection hws => ?_, fun ws conversationId hunder => ?_⟩
  · cases hws
    exact (h.fresh last hon).le
  · exact (h.fresh last hon).trans (Nat.lt_succ_self _)
  · cases hws
    exact Nat.lt_succ_self _
  · obtain ⟨hlt, hsynced, hlast, -⟩ := h.under ws conversationId hunder
    refine ⟨hlt.trans (Nat.lt_succ_self _), hsynced, hlast, fun connection hws => ?_⟩
    cases hws
    exact hlt.le

theorem closed (h : trail.Sound) : ({ trail with pusherWs := none } : Trail).Sound := by
  refine ⟨h.current, h.unannounced, h.bound, fun _ _ _ hws => (nomatch hws), h.fresh,
    fun _ hws => (nomatch hws), fun ws conversationId hunder => ?_⟩
  obtain ⟨hlt, hsynced, hlast, -⟩ := h.under ws conversationId hunder
  exact ⟨hlt, hsynced, hlast, fun _ hws => nomatch hws⟩

/-- A flush begins to announce. -/
theorem announce (h : trail.Sound) {ws : ℕ} (hws : trail.pusherWs = some ws)
    {conversationId : String} (hsynced : trail.synced ≠ some conversationId) :
    ({ trail with announcing := some (ws, conversationId) } : Trail).Sound := by
  refine ⟨h.current, h.unannounced, h.bound, h.ordered, h.fresh, h.numbered,
    fun other id hunder => ?_⟩
  cases hunder
  refine ⟨h.numbered ws hws, hsynced, fun last hon => h.ordered last ws hon hws,
    fun connection hother => ?_⟩
  rw [hws] at hother
  cases hother
  exact le_rfl

/-- An announcement arrives. -/
theorem announced (h : trail.Sound) {ws : ℕ} {conversationId : String}
    (hunder : trail.announcing = some (ws, conversationId)) :
    ({ trail with
        synced := some conversationId
        announcedOn := some ws
        announcing := none
        frames := trail.frames ++ [FrameSeen.announced ws conversationId] } : Trail).Sound := by
  obtain ⟨hlt, -, hlast, hws⟩ := h.under ws conversationId hunder
  refine ⟨fun connection hon => ?_, fun hnone => (nomatch hnone), fun connection id hseen => ?_,
    fun last connection hon hconnection => ?_, fun last hon => ?_, h.numbered,
    fun _ _ hnone => nomatch hnone⟩
  · cases hon
    rw [lastAnnounced_announced, if_pos rfl]
  · refine ⟨ws, rfl, ?_⟩
    rw [lastAnnounced_announced] at hseen
    split_ifs at hseen with heq
    · exact heq.ge
    · obtain ⟨last, hon, hle⟩ := h.bound connection id hseen
      exact hle.trans (hlast last hon)
  · cases hon
    exact hws connection hconnection
  · cases hon
    exact hlt

end Trail.Sound
namespace PusherWorld
variable {σ : Type} {config : ListenPusherSessionConfig} {world : PusherWorld σ}

/-! ### Steps that leave the trail alone -/

theorem seen_transfers (log : List (PusherEntry (UInt8 × ℕ) (σ × ℕ))) :
    (log.filter PusherEntry.transfers).filterMap PusherEntry.seen =
      log.filterMap PusherEntry.seen := by
  rw [List.filterMap_filter]
  congr
  funext entry
  cases entry <;> rfl

theorem trail_of_data {next : PusherWorld σ} (h : next.data = world.data) :
    next.trail = world.trail := by
  have hframes : next.log.filterMap PusherEntry.seen = world.log.filterMap PusherEntry.seen := by
    rw [← seen_transfers, ← seen_transfers world.log]
    exact congrArg (fun data => data.transfers.filterMap PusherEntry.seen) h
  have hsynced := congrArg PusherData.lastSyncedConversationId h
  have hon := congrArg PusherData.announcedOn h
  have hws := congrArg PusherData.pusherWs h
  have hconnections := congrArg PusherData.connections h
  have hflush := congrArg PusherData.audioFlush h
  simp only [data] at hsynced hon hws hconnections hflush
  simp only [trail, hframes, hsynced, hon, hws, hconnections, hflush]

theorem trail_receiveAudio (audioBytes : List UInt8) (receivedAt : ℚ) :
    (world.receiveAudio config audioBytes receivedAt).trail = world.trail := by
  simp [receiveAudio, ListenPusherSession.audioBytesSend, trail, PusherEntry.seen]

theorem trail_receiveSegments (segments : List σ) :
    (world.receiveSegments config segments).trail = world.trail := by
  simp [receiveSegments, ListenPusherSession.transcriptSend, trail, PusherEntry.seen]

theorem trail_startTranscriptFlush : world.startTranscriptFlush.trail = world.trail := by
  unfold startTranscriptFlush
  dsimp only
  split_ifs
  · rfl
  · cases world.session.pusherWs.filter fun _ =>
        world.session.pusherConnected && !world.session.segmentBuffers.isEmpty with
    | none => rfl
    | some ws =>
      cases hconversation : world.conversation with
      | none => simp [detachSegments, trail, PusherEntry.seen]
      | some conversationId => simp [detachSegments, trail, PusherEntry.seen]

theorem trail_restoreSegments (pendingSegments : List (σ × ℕ)) :
    (world.restoreSegments config pendingSegments).trail = world.trail := by
  simp [restoreSegments, ListenPusherSession.restoreSegments, trail, PusherEntry.seen]

theorem trail_resumeTranscriptFlush (outcome : SendOutcome) :
    (world.resumeTranscriptFlush config outcome).trail = world.trail := by
  unfold resumeTranscriptFlush
  split
  · rfl
  · simp [sentSegments, trail, PusherEntry.seen]
  · rw [trail_of_data data_markDisconnected, trail_restoreSegments]
  · exact trail_restoreSegments _

theorem trail_restoreAudio (pendingChunks : List (List (UInt8 × ℕ))) (pendingTotalSize : ℤ) :
    (world.restoreAudio config pendingChunks pendingTotalSize).trail =
      { world.trail with announcing := none } := by
  simp [restoreAudio, ListenPusherSession.restoreAudio, trail, PusherEntry.seen]

/-! ### Audio -/

/-- The second half of a flush sends audio on one connection, or none. -/
theorem trail_sendAudio (conversationId : Option String) (now : ℚ) :
    (world.sendAudio config conversationId now).trail =
      { world.trail with
        announcing := none
        frames := world.trail.frames ++
          ((world.audioConnection config).bind fun connection =>
            conversationId.map (FrameSeen.audio connection)).toList } := by
  unfold sendAudio audioConnection
  dsimp only
  cases world.session.pusherWs.filter fun _ =>
      world.session.pusherConnected && 0 < world.session.audioTotalSize with
  | none => simp [trail]
  | some ws =>
    unfold ListenPusherSession.bufferStartTime
    by_cases hrate : config.effectiveRate = 0
    · simp [hrate, trail, ListenPusherSession.restoreAudio]
    · cases conversationId with
      | none => simp [hrate, detachAudio, trail, PusherEntry.seen, AudioFlush.announcing?]
      | some id => simp [hrate, detachAudio, trail, PusherEntry.seen, AudioFlush.announcing?]

theorem audioConnection_eq_some {connection : ℕ}
    (h : world.audioConnection config = some connection) :
    world.trail.pusherWs = some connection := by
  unfold audioConnection at h
  split_ifs at h
  exact (Option.filter_eq_some_iff.1 h).1

theorem audioConnection_markDisconnected :
    world.markDisconnected.audioConnection config = none := by
  have hlost : world.markDisconnected.session.pusherConnected = false := by
    unfold markDisconnected
    by_cases hconnected : (!world.session.pusherConnected) = true
    · rw [if_pos hconnected]
      simpa using hconnected
    · rw [if_neg hconnected]
      unfold ensureLoop
      split_ifs <;> rfl
  unfold audioConnection
  rw [hlost]
  simp

variable (config) in
/-- The second half of a flush under the id `conversationId`: it keeps the trail sound, and
files its audio right exactly where that id is what the session announced last, on the
connection that it sends on. -/
theorem sendAudio_filed (h : ({ world.trail with announcing := none } : Trail).Sound)
    (conversationId : Option String) (now : ℚ) :
    (world.sendAudio config conversationId now).trail.Sound ∧
      (Lawful FiledRight (world.sendAudio config conversationId now).trail.frames ↔
        Lawful FiledRight world.trail.frames ∧
        ∀ connection id, world.audioConnection config = some connection →
          conversationId = some id →
          world.trail.announcedOn = some connection ∧ world.trail.synced = some id) := by
  rw [trail_sendAudio]
  cases hconnection : world.audioConnection config with
  | none =>
    simp only [Option.bind_none, Option.toList_none, List.append_nil]
    refine ⟨h, fun hlawful => ⟨hlawful, fun _ _ hnone => (nomatch hnone)⟩, fun hboth => hboth.1⟩
  | some connection =>
    cases conversationId with
    | none =>
      simp only [Option.bind_some, Option.map_none, Option.toList_none, List.append_nil]
      refine ⟨h, fun hlawful => ⟨hlawful, fun _ _ _ hnone => (nomatch hnone)⟩,
        fun hboth => hboth.1⟩
    | some id =>
      have hws : world.trail.pusherWs = some connection := audioConnection_eq_some hconnection
      have hfiled := Trail.Sound.lastAnnounced_iff h hws id
      simp only [Option.bind_some, Option.map_some, Option.toList_some]
      refine ⟨Trail.Sound.audio h connection id none rfl, ?_⟩
      rw [lawful_concat_iff]
      refine and_congr_right fun _ => ?_
      constructor
      · intro hlast other id' hother hid
        cases hother
        cases hid
        exact hfiled.1 hlast
      · intro hall
        exact hfiled.2 (hall connection id rfl rfl)

/-! ### Steps -/

theorem announcement_eq_some {ws : ℕ} {conversationId : String}
    (h : world.announcement = some (ws, conversationId)) :
    world.session.pusherWs = some ws ∧
      world.session.lastSyncedConversationId ≠ some conversationId := by
  unfold announcement at h
  cases hws : world.session.pusherWs with
  | none => simp [hws] at h
  | some connection =>
    cases hconversation : world.conversation with
    | none => simp [hws, hconversation] at h
    | some id =>
      simp only [hws, hconversation] at h
      split_ifs at h with hsynced
      cases h
      exact ⟨rfl, hsynced⟩

theorem synced_of_announcement {connection : ℕ} (hws : world.session.pusherWs = some connection)
    {conversationId : String} (hconversation : world.conversation = some conversationId)
    (h : world.announcement = none) :
    world.session.lastSyncedConversationId = some conversationId := by
  unfold announcement at h
  simp only [hws, hconversation] at h
  split_ifs at h with hsynced
  exact hsynced

theorem startAudioFlush_filed (h : world.trail.Sound) (now : ℚ) :
    (world.startAudioFlush config now).trail.Sound ∧
      (Lawful FiledRight (world.startAudioFlush config now).trail.frames ↔
        Lawful FiledRight world.trail.frames ∧ world.Announces config (.startAudioFlush now)) := by
  unfold startAudioFlush
  cases hflush : world.audioFlush with
  | some flush =>
    refine ⟨h, fun hlawful => ⟨hlawful, fun hnone => ?_⟩, fun hboth => hboth.1⟩
    rw [hflush] at hnone
    cases hnone
  | none =>
    cases hannouncement : world.announcement with
    | none =>
      obtain ⟨hsound, hlawful⟩ := sendAudio_filed config h.done world.conversation now
      refine ⟨hsound, hlawful.trans (and_congr_right fun _ => ?_)⟩
      constructor
      · intro hfiled _ hconversation _ connection hconnection
        obtain ⟨id, hid⟩ := Option.isSome_iff_exists.1 hconversation
        exact (hfiled connection id hconnection hid).1
      · intro hannounces connection id hconnection hid
        refine ⟨hannounces hflush (by simp [hid]) hannouncement connection hconnection, ?_⟩
        exact synced_of_announcement (audioConnection_eq_some hconnection) hid hannouncement
    | some announced =>
      obtain ⟨ws, id⟩ := announced
      obtain ⟨hws, hsynced⟩ := announcement_eq_some hannouncement
      have htrail : (world.announce ws id).trail =
          { world.trail with announcing := some (ws, id) } := by
        simp [announce, trail, PusherEntry.seen, AudioFlush.announcing?]
      dsimp only
      simp only [Option.isSome_none, Bool.false_eq_true, if_false]
      rw [htrail]
      refine ⟨h.announce hws hsynced, fun hlawful => ⟨hlawful, fun _ _ hnone => ?_⟩,
        fun hboth => hboth.1⟩
      rw [hannouncement] at hnone
      cases hnone

theorem resumeAudioFlush_filed (h : world.trail.Sound) (outcome : SendOutcome) (now : ℚ) :
    (world.resumeAudioFlush config outcome now).trail.Sound ∧
      (Lawful FiledRight (world.resumeAudioFlush config outcome now).trail.frames ↔
        Lawful FiledRight world.trail.frames ∧
          world.Announces config (.resumeAudioFlush outcome now)) := by
  have hended : ∀ {next : PusherWorld σ} {P : Prop}, P →
      next.trail = { world.trail with announcing := none } →
      next.trail.Sound ∧ (Lawful FiledRight next.trail.frames ↔
        Lawful FiledRight world.trail.frames ∧ P) := by
    intro next P hP hsame
    rw [hsame]
    exact ⟨h.done, fun hlawful => ⟨hlawful, hP⟩, fun hboth => hboth.1⟩
  cases hflush : world.audioFlush with
  | none =>
    have hsame : world.resumeAudioFlush config outcome now = world := by
      unfold resumeAudioFlush
      rw [hflush]
    rw [hsame]
    refine ⟨h, fun hlawful => ⟨hlawful, ?_⟩, fun hboth => hboth.1⟩
    cases outcome <;> simp [Announces, hflush]
  | some flush =>
    unfold resumeAudioFlush
    rw [hflush]
    cases flush with
    | announcing ws id =>
      have hunder : world.trail.announcing = some (ws, id) := by
        simp [trail, hflush, AudioFlush.announcing?]
      cases outcome with
      | ok =>
        have htrail : (world.announced ws id).trail =
            { world.trail with
              synced := some id
              announcedOn := some ws
              frames := world.trail.frames ++ [FrameSeen.announced ws id] } := by
          simp [announced, trail, PusherEntry.seen]
        have hsound : ({ (world.announced ws id).trail with announcing := none } : Trail).Sound := by
          rw [htrail]
          exact h.announced hunder
        obtain ⟨hsent, hlawful⟩ := sendAudio_filed config hsound (some id) now
        have hframes : Lawful FiledRight (world.announced ws id).trail.frames ↔
            Lawful FiledRight world.trail.frames := by
          rw [htrail, lawful_concat_iff]
          exact and_iff_left trivial
        refine ⟨hsent, hlawful.trans ?_⟩
        rw [hframes, htrail]
        refine and_congr_right fun _ => ?_
        constructor
        · intro hfiled other id' hother connection hconnection
          rw [hflush] at hother
          cases hother
          exact (Option.some.inj (hfiled connection id hconnection rfl).1).symm
        · intro hannounces connection id' hconnection hid
          rw [hannounces ws id hflush connection hconnection]
          exact ⟨rfl, hid⟩
      | connectionClosed =>
        have htrail : world.markDisconnected.trail = world.trail :=
          trail_of_data data_markDisconnected
        obtain ⟨hsent, hlawful⟩ := sendAudio_filed config
          (htrail.symm ▸ h.done) (some id) now
        refine ⟨hsent, hlawful.trans ?_⟩
        rw [htrail, audioConnection_markDisconnected]
        exact and_congr_right fun _ =>
          ⟨fun _ => trivial, fun _ _ _ hnone => nomatch hnone⟩
      | failed =>
        obtain ⟨-, hsynced, -⟩ := h.under ws id hunder
        obtain ⟨hsent, hlawful⟩ := sendAudio_filed config h.done (some id) now
        refine ⟨hsent, hlawful.trans (and_congr_right fun _ => ?_)⟩
        constructor
        · intro hfiled other id' hother
          cases hconnection : world.audioConnection config with
          | none => rfl
          | some connection => exact absurd (hfiled connection id hconnection rfl).2 hsynced
        · intro hannounces connection id' hconnection
          rw [hannounces ws id hflush] at hconnection
          cases hconnection
      | cancelled => exact hended trivial rfl
    | sending ws start pendingChunks pendingTotalSize =>
      have hsending : ∀ ws' id, world.audioFlush ≠ some (.announcing ws' id) := by
        intro ws' id heq
        rw [hflush] at heq
        cases heq
      cases outcome with
      | ok =>
        refine hended (fun ws' id heq => absurd heq (hsending ws' id)) ?_
        simp [sentAudio, trail, PusherEntry.seen]
      | connectionClosed =>
        refine hended trivial ?_
        rw [trail_of_data data_markDisconnected, trail_restoreAudio]
      | failed =>
        exact hended (fun ws' id heq => absurd heq (hsending ws' id)) (trail_restoreAudio _ _)
      | cancelled => exact hended trivial (trail_restoreAudio _ _)

theorem resumeConnect_filed (h : world.trail.Sound) (event : ConnectEvent) (monotonic : ℤ) :
    (world.resumeConnect event monotonic).trail.Sound ∧
      (world.resumeConnect event monotonic).trail.frames = world.trail.frames := by
  rcases data_resumeConnect world event monotonic with hsame | hclosed | hopened
  · rw [trail_of_data hsame]
    exact ⟨h, rfl⟩
  · have hnext : ({ world with session := { world.session with pusherWs := none } } :
        PusherWorld σ).data = { world.data with pusherWs := none } := rfl
    rw [trail_of_data (hclosed.trans hnext.symm)]
    exact ⟨h.closed, rfl⟩
  · have hnext : ({ world with
          session := { world.session with pusherWs := some world.connections }
          connections := world.connections + 1 } : PusherWorld σ).data =
        { world.data with
          pusherWs := some world.connections
          connections := world.connections + 1 } := rfl
    rw [trail_of_data (hopened.trans hnext.symm)]
    exact ⟨h.opened, rfl⟩

variable (config) in
/-- A step keeps the trail sound, and files what it sends right exactly where it announces. -/
theorem step_filed (h : world.trail.Sound) (action : PusherAction σ) :
    (world.step config action).trail.Sound ∧
      (Lawful FiledRight (world.step config action).trail.frames ↔
        Lawful FiledRight world.trail.frames ∧ world.Announces config action) := by
  have hquiet : ∀ {next : PusherWorld σ} {P : Prop}, P → next.trail = world.trail →
      next.trail.Sound ∧ (Lawful FiledRight next.trail.frames ↔
        Lawful FiledRight world.trail.frames ∧ P) := by
    intro next P hP hsame
    rw [hsame]
    exact ⟨h, fun hlawful => ⟨hlawful, hP⟩, fun hboth => hboth.1⟩
  cases action with
  | audioBytesSend audioBytes receivedAt => exact hquiet trivial (trail_receiveAudio _ _)
  | transcriptSend segments => exact hquiet trivial (trail_receiveSegments _)
  | switchConversation conversationId => exact hquiet trivial rfl
  | deactivate => exact hquiet trivial rfl
  | shutDown => exact hquiet trivial rfl
  | startAudioFlush now => exact startAudioFlush_filed h now
  | resumeAudioFlush outcome now => exact resumeAudioFlush_filed h outcome now
  | startTranscriptFlush => exact hquiet trivial trail_startTranscriptFlush
  | resumeTranscriptFlush outcome => exact hquiet trivial (trail_resumeTranscriptFlush outcome)
  | exchangeClosed => exact hquiet trivial (trail_of_data data_markDisconnected)
  | startDegraded monotonic => exact hquiet trivial (trail_of_data (data_startDegraded monotonic))
  | startConnect => exact hquiet trivial (trail_of_data (data_beginConnect _ _))
  | resumeConnect event monotonic =>
    obtain ⟨hsound, hframes⟩ := resumeConnect_filed h event monotonic
    exact ⟨hsound, by rw [step, hframes]; exact (and_iff_left trivial).symm⟩
  | resumeLoop number woken monotonic => exact hquiet trivial (trail_of_data (data_resumeLoop _ _ _))

theorem run_filed (h : world.trail.Sound) (actions : List (PusherAction σ)) :
    Lawful FiledRight (actions.foldl (step config) world).trail.frames ↔
      Lawful FiledRight world.trail.frames ∧
        EveryStep (step config) (Announces config) world actions := by
  induction actions generalizing world with
  | nil => exact (and_iff_left trivial).symm
  | cons action actions ih =>
    obtain ⟨hsound, hlawful⟩ := step_filed config h action
    rw [List.foldl_cons, ih hsound, hlawful, and_assoc]
    rfl

end PusherWorld

/-- **Audio reaches the pusher under its own conversation exactly where the session announces
it**: in a run from a fresh session, every audio frame goes out on a connection whose last
conversation frame carried the id that was current when its flush began, if and only if every
step of the run announces. -/
theorem filedRight_iff {σ : Type} (config : ListenPusherSessionConfig)
    (actions : List (PusherAction σ)) :
    Lawful FiledRight ((PusherWorld.run config actions).log.filterMap PusherEntry.seen) ↔
      EveryStep (PusherWorld.step config) (PusherWorld.Announces config) {} actions := by
  have hsound : ({} : PusherWorld σ).trail.Sound := by
    constructor <;> simp [PusherWorld.trail, lastAnnounced]
  refine (PusherWorld.run_filed hsound actions).trans (and_iff_right ?_)
  exact lawful_nil

/-- A session at 8 kHz. -/
def sampleConfig : ListenPusherSessionConfig where
  sampleRate := 8000
  isMultiChannel := false
  maxSegmentBufferSize := 1000
  maxAudioBufferSize := 10485760
  maxAudioBufferSize_pos := by decide

/-- The connection is lost and made again between two flushes of one conversation. -/
def reconnectedCapture : List (PusherAction String) :=
  [.switchConversation (some "c"), .startConnect, .resumeConnect .opened 0,
    .resumeConnect .finished 0, .audioBytesSend [1, 2] 10, .startAudioFlush 11,
    .resumeAudioFlush .ok 11, .resumeAudioFlush .ok 11, .exchangeClosed, .resumeLoop 0 false 0,
    .resumeLoop 0 false 0, .resumeLoop 0 false 0, .resumeConnect (.drained true) 0,
    .resumeConnect .opened 0, .resumeConnect .finished 0, .audioBytesSend [3, 4] 12,
    .startAudioFlush 13]

theorem not_filedRight :
    ¬ ∀ (config : ListenPusherSessionConfig) (actions : List (PusherAction String)),
      Lawful FiledRight ((PusherWorld.run config actions).log.filterMap PusherEntry.seen) := by
  intro h
  have hrun := h sampleConfig reconnectedCapture
  have hframes : (PusherWorld.run sampleConfig reconnectedCapture).log.filterMap
      PusherEntry.seen = [.announced 0 "c", .audio 0 "c", .audio 1 "c"] := by decide +kernel
  rw [hframes] at hrun
  exact absurd (hrun [.announced 0 "c", .audio 0 "c"] (.audio 1 "c") [] rfl)
    (by decide : lastAnnounced [.announced 0 "c", .audio 0 "c"] 1 ≠ some "c")

end Omi.Pusher
