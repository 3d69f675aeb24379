import Omi.Pusher.World

/-! Connects, loops and lost connections leave the session's data alone. -/
namespace Omi.Pusher

/-- Frames and what overflows, as opposed to what happens to the connection. -/
def PusherEntry.transfers {β σ : Type} : PusherEntry β σ → Bool
  | .sending .. | .sent .. | .discardedAudio _ | .discardedSegments _ => true
  | .lost | .degraded | .loopEnded .. => false

/-- All of the session but its recovery. -/
structure PusherData (σ : Type) where
  pusherWs : Option ℕ
  connections : ℕ
  lastSyncedConversationId : Option String
  announcedOn : Option ℕ
  audioFlush : Option (AudioFlush (UInt8 × ℕ))
  transcriptFlush : Option (TranscriptFlush (σ × ℕ))
  segmentBuffers : List (σ × ℕ)
  audioChunks : List (List (UInt8 × ℕ))
  audioTotalSize : ℤ
  receivedAudio : List UInt8
  receivedSegments : List σ
  transfers : List (PusherEntry (UInt8 × ℕ) (σ × ℕ))

namespace PusherWorld
variable {σ : Type} {world : PusherWorld σ}

def data (world : PusherWorld σ) : PusherData σ where
  pusherWs := world.session.pusherWs
  connections := world.connections
  lastSyncedConversationId := world.session.lastSyncedConversationId
  announcedOn := world.announcedOn
  audioFlush := world.audioFlush
  transcriptFlush := world.transcriptFlush
  segmentBuffers := world.session.segmentBuffers
  audioChunks := world.session.audioChunks
  audioTotalSize := world.session.audioTotalSize
  receivedAudio := world.receivedAudio
  receivedSegments := world.receivedSegments
  transfers := world.log.filter PusherEntry.transfers

@[simp] theorem filter_transfers_concat (log : List (PusherEntry (UInt8 × ℕ) (σ × ℕ)))
    (entry : PusherEntry (UInt8 × ℕ) (σ × ℕ)) :
    (log ++ [entry]).filter PusherEntry.transfers =
      log.filter PusherEntry.transfers ++ if entry.transfers then [entry] else [] := by
  rw [List.filter_append]
  cases hentry : entry.transfers with
  | false => simp [hentry]
  | true => simp [hentry]

theorem data_ensureLoop : world.ensureLoop.data = world.data := by
  unfold ensureLoop
  split_ifs <;> rfl

theorem data_markDisconnected : world.markDisconnected.data = world.data := by
  unfold markDisconnected
  by_cases hconnected : (!world.session.pusherConnected) = true
  · rw [if_pos hconnected]
  · rw [if_neg hconnected, data_ensureLoop]
    simp [data, PusherEntry.transfers]

theorem data_startDegraded (monotonic : ℤ) : (world.startDegraded monotonic).data = world.data := by
  unfold startDegraded
  rw [data_ensureLoop]
  simp [data, PusherEntry.transfers]

theorem data_endLoop (number : ℕ) (how : LoopEnd) :
    (world.endLoop number how).data = world.data := by
  simp [endLoop, data, PusherEntry.transfers]

theorem data_afterConnect (number : ℕ) (probe circuitOpen : Bool) (monotonic : ℤ) :
    (world.afterConnect number probe circuitOpen monotonic).data = world.data := by
  unfold afterConnect
  split_ifs
  · exact data_endLoop number .reconnected
  · rfl
  · rfl
  · rfl

theorem data_returnConnect (caller : ConnectCaller) (circuitOpen : Bool) (monotonic : ℤ) :
    (world.returnConnect caller circuitOpen monotonic).data = world.data := by
  unfold returnConnect
  cases caller with
  | first => rfl
  | loop number =>
    dsimp only
    split
    · exact data_afterConnect number _ circuitOpen monotonic
    · rfl

theorem data_beginConnect (caller : ConnectCaller) (monotonic : ℤ) :
    (world.beginConnect caller monotonic).data = world.data := by
  unfold beginConnect
  split_ifs
  · rfl
  · exact data_returnConnect caller false monotonic
  · rfl
  · rfl

theorem data_resent (outcome : SendOutcome) : (world.resent outcome).data = world.data := by
  cases outcome with
  | connectionClosed => exact data_markDisconnected
  | _ => rfl

theorem data_loopHead (number : ℕ) (monotonic : ℤ) :
    (world.loopHead number monotonic).data = world.data := by
  unfold loopHead
  dsimp only
  by_cases hcondition : (!world.isActive || world.session.pusherConnected) = true
  · rw [if_pos hcondition]
    exact data_endLoop number .condition
  · rw [if_neg hcondition]
    cases world.session.reconnectState with
    | reconnectBackoff =>
      dsimp only
      split_ifs <;> rfl
    | degraded =>
      dsimp only
      split_ifs <;> rfl
    | halfOpenProbe => rfl
    | connected => exact data_endLoop number .fallThrough

theorem data_resumeLoop (number : ℕ) (woken : Bool) (monotonic : ℤ) :
    (world.resumeLoop number woken monotonic).data = world.data := by
  unfold resumeLoop
  split
  · exact data_loopHead number monotonic
  · split_ifs
    · exact data_endLoop number .shutdown
    · rfl
  · split_ifs
    · exact data_endLoop number .shutdown
    · rfl
  · exact data_beginConnect _ monotonic
  · rfl

variable (world) in
/-- A connect moves to another connection, or to none, and changes no other data. -/
theorem data_resumeConnect (event : ConnectEvent) (monotonic : ℤ) :
    (world.resumeConnect event monotonic).data = world.data ∨
      (world.resumeConnect event monotonic).data = { world.data with pusherWs := none } ∨
      (world.resumeConnect event monotonic).data =
        { world.data with
          pusherWs := some world.connections
          connections := world.connections + 1 } := by
  unfold resumeConnect
  split
  next ok _ =>
    cases ok with
    | true => exact .inr (.inl rfl)
    | false => exact .inl rfl
  · exact .inr (.inr rfl)
  · exact .inr (.inl (data_returnConnect _ _ _))
  · exact .inl (data_returnConnect _ _ _)
  · exact .inl (data_returnConnect _ _ _)
  · exact .inl (data_resent _)
  · exact .inl (data_returnConnect _ _ _)
  · exact .inl rfl
  · exact .inl rfl

end PusherWorld
end Omi.Pusher
