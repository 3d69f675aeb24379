import Omi.Pusher.World

/-! One recovery loop, and no lost wake-up: what every task does to the connection state, the
loops and the handle of the last loop. -/
namespace Omi.Pusher

/-- The part of the session that recovery is about. -/
structure Link where
  connected : Bool
  reconnectState : PusherReconnectState
  reconnectTask : Option ℕ
  loops : List LoopStage
  isActive : Bool
  shutdown : Bool
  disturbed : Bool
  fellThrough : Bool

section entries
variable {β σ : Type}

/-- A connection was lost, or the session was started degraded. -/
@[simp] def PusherEntry.disturbs : PusherEntry β σ → Bool
  | .lost | .degraded => true
  | _ => false

@[simp] def PusherEntry.fallsThrough : PusherEntry β σ → Bool
  | .loopEnded _ .fallThrough => true
  | _ => false

end entries

def PusherWorld.link {σ : Type} (world : PusherWorld σ) : Link where
  connected := world.session.pusherConnected
  reconnectState := world.session.reconnectState
  reconnectTask := world.session.reconnectTask
  loops := world.loops
  isActive := world.isActive
  shutdown := world.shutdown
  disturbed := world.log.any PusherEntry.disturbs
  fellThrough := world.log.any PusherEntry.fallsThrough

/-- Running loops are the last one started; once there are loops the state says connected only
of a session that is; a disturbed session is connected or watched by a loop. -/
structure Link.Watched (link : Link) : Prop where
  handle : ∀ (number : ℕ) (stage : LoopStage), link.loops[number]? = some stage → stage.running = true →
    link.reconnectTask = some number
  honest : link.loops ≠ [] → link.reconnectState = .connected → link.connected = true
  watched : link.disturbed = true → link.isActive = true → link.shutdown = false →
    link.connected = false →
    ∃ (number : ℕ) (stage : LoopStage), link.loops[number]? = some stage ∧ stage.running = true
  through : link.fellThrough = false

namespace PusherWorld
variable {σ : Type} {config : ListenPusherSessionConfig} {world : PusherWorld σ}

theorem watched_of_link (h : world.link.Watched) {next : PusherWorld σ}
    (hlink : next.link = world.link) : next.link.Watched := hlink ▸ h

/-! ### Steps that leave the link alone -/

theorem link_sendAudio (conversationId : Option String) (now : ℚ) :
    (world.sendAudio config conversationId now).link = world.link := by
  unfold sendAudio
  dsimp only
  cases world.session.pusherWs.filter fun _ =>
      world.session.pusherConnected && 0 < world.session.audioTotalSize with
  | none => rfl
  | some ws =>
    cases world.session.bufferStartTime config now with
    | none => rfl
    | some start => simp [detachAudio, link]

theorem link_startAudioFlush (now : ℚ) : (world.startAudioFlush config now).link = world.link := by
  unfold startAudioFlush
  split_ifs
  · rfl
  · cases world.announcement with
    | none => exact link_sendAudio _ _
    | some announced => simp [announce, link]

theorem link_restoreAudio (pendingChunks : List (List (UInt8 × ℕ))) (pendingTotalSize : ℤ) :
    (world.restoreAudio config pendingChunks pendingTotalSize).link = world.link := by
  simp [restoreAudio, ListenPusherSession.restoreAudio, link]

theorem link_startTranscriptFlush : world.startTranscriptFlush.link = world.link := by
  unfold startTranscriptFlush
  dsimp only
  split_ifs
  · rfl
  · cases world.session.pusherWs.filter fun _ =>
        world.session.pusherConnected && !world.session.segmentBuffers.isEmpty with
    | none => rfl
    | some ws => simp [detachSegments, link]

theorem link_restoreSegments (pendingSegments : List (σ × ℕ)) :
    (world.restoreSegments config pendingSegments).link = world.link := by
  simp [restoreSegments, ListenPusherSession.restoreSegments, link]

theorem link_receiveAudio (audioBytes : List UInt8) (receivedAt : ℚ) :
    (world.receiveAudio config audioBytes receivedAt).link = world.link := by
  simp [receiveAudio, ListenPusherSession.audioBytesSend, link]

theorem link_receiveSegments (segments : List σ) :
    (world.receiveSegments config segments).link = world.link := by
  simp [receiveSegments, ListenPusherSession.transcriptSend, link]

/-! ### Losing a connection -/

/-- A loop is started only where none runs, and runs from then on. -/
theorem watched_ensureLoop
    (hhandle : ∀ (number : ℕ) (stage : LoopStage), world.loops[number]? = some stage → stage.running = true →
      world.session.reconnectTask = some number)
    (hhonest : world.session.reconnectState ≠ .connected)
    (hthrough : world.link.fellThrough = false) : world.ensureLoop.link.Watched := by
  unfold ensureLoop
  split_ifs with hrunning
  · refine ⟨hhandle, fun _ hstate => absurd hstate hhonest, fun _ _ _ _ => ?_, hthrough⟩
    obtain ⟨stage, hstage, hrun⟩ := (Option.any_eq_true _ _).1 hrunning
    obtain ⟨number, -, hget⟩ := Option.bind_eq_some_iff.1 hstage
    exact ⟨number, stage, hget, hrun⟩
  · have hidle : ∀ (number : ℕ) (stage : LoopStage), world.loops[number]? = some stage → stage.running = false := by
      intro number stage hget
      by_contra hrun
      rw [Bool.not_eq_false] at hrun
      apply hrunning
      rw [hhandle number stage hget hrun]
      simpa [hget] using hrun
    refine ⟨fun number stage hget hrun => ?_, fun _ hstate => absurd hstate hhonest,
      fun _ _ _ _ => ⟨world.loops.length, .head, by simp [link], rfl⟩, hthrough⟩
    rcases lt_trichotomy number world.loops.length with hold | hnew | hbeyond
    · have hkept : world.loops[number]? = some stage := by
        rwa [link, List.getElem?_append_left hold] at hget
      rw [hidle number stage hkept] at hrun
      exact absurd hrun Bool.false_ne_true
    · rw [hnew]
      rfl
    · have hnone : (world.loops ++ [LoopStage.head])[number]? = none := by
        apply List.getElem?_eq_none
        simp only [List.length_append, List.length_singleton]
        omega
      exact absurd (hnone.symm.trans hget) (by simp)

theorem watched_markDisconnected (h : world.link.Watched) :
    world.markDisconnected.link.Watched := by
  unfold markDisconnected
  by_cases hconnected : (!world.session.pusherConnected) = true
  · rw [if_pos hconnected]
    exact h
  · rw [if_neg hconnected]
    apply watched_ensureLoop
    · exact h.handle
    · by_cases hstate : world.session.reconnectState = .connected
      · simp [hstate]
      · simp [hstate]
    · have hbefore : world.log.any PusherEntry.fallsThrough = false := h.through
      simp [link, hbefore]

theorem watched_startDegraded (h : world.link.Watched) (monotonic : ℤ) :
    (world.startDegraded monotonic).link.Watched := by
  unfold startDegraded
  apply watched_ensureLoop
  · exact h.handle
  · intro hstate
    cases hstate
  · have hbefore : world.log.any PusherEntry.fallsThrough = false := h.through
    simp [link, hbefore, PusherEntry.fallsThrough]

/-! ### The loop -/

/-- A running loop goes to another stage, or ends for a reason. -/
theorem watched_set {link next : Link} (h : link.Watched) {number : ℕ} {stage stage' : LoopStage}
    (hget : link.loops[number]? = some stage) (hrunning : stage.running = true)
    (hloops : next.loops = link.loops.set number stage')
    (htask : next.reconnectTask = link.reconnectTask)
    (hhonest : next.reconnectState = .connected → next.connected = true)
    (hthrough : next.fellThrough = false)
    (hends : stage'.running = true ∨ next.isActive = false ∨ next.shutdown = true ∨
      next.connected = true) : next.Watched := by
  refine ⟨fun other stage hother hrun => ?_, fun _ => hhonest,
    fun _ hactive hshutdown hconnected => ?_, hthrough⟩
  · rw [htask]
    rw [hloops] at hother
    by_cases heq : number = other
    · exact heq ▸ h.handle number _ hget hrunning
    · rw [List.getElem?_set_ne heq] at hother
      exact h.handle other stage hother hrun
  · rcases hends with hrun | hinactive | hset | hback
    · refine ⟨number, stage', ?_, hrun⟩
      rw [hloops]
      exact List.getElem?_set_self (List.getElem?_eq_some_iff.1 hget).1
    · exact absurd (hactive.symm.trans hinactive) (by decide)
    · exact absurd (hset.symm.trans hshutdown) (by decide)
    · exact absurd (hback.symm.trans hconnected) (by decide)

/-- The loops stay as they are, and no connection is lost. -/
theorem watched_same {link next : Link} (h : link.Watched) (hloops : next.loops = link.loops)
    (htask : next.reconnectTask = link.reconnectTask)
    (hhonest : next.loops ≠ [] → next.reconnectState = .connected → next.connected = true)
    (hthrough : next.fellThrough = false) (hdisturbed : next.disturbed = link.disturbed)
    (hactive : next.isActive = true → link.isActive = true)
    (hshutdown : next.shutdown = false → link.shutdown = false)
    (hconnected : next.connected = false → link.connected = false) : next.Watched := by
  refine ⟨?_, hhonest, fun hdist hact hshut hconn => ?_, hthrough⟩
  · rw [hloops, htask]
    exact h.handle
  · rw [hloops]
    exact h.watched (hdisturbed ▸ hdist) (hactive hact) (hshutdown hshut) (hconnected hconn)

section loops
variable {number : ℕ} {stage : LoopStage}

theorem loops_ne_nil (hget : world.loops[number]? = some stage) : world.loops ≠ [] := by
  intro hnil
  rw [hnil] at hget
  exact absurd hget (by simp)

theorem watched_setLoop (h : world.link.Watched) (hget : world.loops[number]? = some stage)
    (hrunning : stage.running = true) {stage' : LoopStage} (hnext : stage'.running = true) :
    (world.setLoop number stage').link.Watched :=
  watched_set h hget hrunning rfl rfl (h.honest (loops_ne_nil hget)) h.through (.inl hnext)

theorem watched_endLoop (h : world.link.Watched) (hget : world.loops[number]? = some stage)
    (hrunning : stage.running = true) {how : LoopEnd} (hhow : how ≠ .fallThrough)
    (hends : world.isActive = false ∨ world.shutdown = true ∨
      world.session.pusherConnected = true) :
    (world.endLoop number how).link.Watched := by
  refine watched_set h hget hrunning rfl rfl (h.honest (loops_ne_nil hget)) ?_ (.inr hends)
  have hbefore : world.log.any PusherEntry.fallsThrough = false := h.through
  have hentry : (PusherEntry.loopEnded number how :
      PusherEntry (UInt8 × ℕ) (σ × ℕ)).fallsThrough = false := by
    cases how with
    | fallThrough => exact absurd rfl hhow
    | _ => rfl
  show (world.log ++ [PusherEntry.loopEnded number how]).any PusherEntry.fallsThrough = false
  rw [List.any_append, hbefore]
  simpa using hentry

/-- The session enters another state than connected. -/
theorem watched_state (h : world.link.Watched) {session : ListenPusherSession (UInt8 × ℕ) (σ × ℕ)}
    (hconnected : session.pusherConnected = world.session.pusherConnected)
    (htask : session.reconnectTask = world.session.reconnectTask)
    (hstate : session.reconnectState = .connected → world.session.reconnectState = .connected) :
    ({ world with session := session } : PusherWorld σ).link.Watched := by
  apply watched_same h
  · rfl
  · exact htask
  · intro hloops hnow
    exact hconnected.trans (h.honest hloops (hstate hnow))
  · exact h.through
  · rfl
  · exact id
  · exact id
  · intro hlost
    exact hconnected.symm.trans hlost

theorem watched_enterDegraded (h : world.link.Watched) (monotonic : ℤ) :
    (world.enterDegraded monotonic).link.Watched :=
  watched_state h rfl rfl fun hstate => nomatch hstate

theorem watched_loopHead (h : world.link.Watched) (hget : world.loops[number]? = some .head)
    (monotonic : ℤ) : (world.loopHead number monotonic).link.Watched := by
  unfold loopHead
  dsimp only
  by_cases hcondition : (!world.isActive || world.session.pusherConnected) = true
  · rw [if_pos hcondition]
    apply watched_endLoop h hget rfl (by decide)
    rw [Bool.or_eq_true, Bool.not_eq_true'] at hcondition
    rcases hcondition with hinactive | hconnected
    · exact .inl hinactive
    · exact .inr (.inr hconnected)
  · rw [if_neg hcondition]
    cases hstate : world.session.reconnectState with
    | reconnectBackoff =>
      dsimp only
      split_ifs
      · exact watched_state h rfl rfl fun hdegraded => nomatch hdegraded
      · exact watched_setLoop h hget rfl rfl
    | degraded =>
      dsimp only
      split_ifs
      · exact watched_setLoop h hget rfl rfl
      · exact watched_state h rfl rfl fun hprobe => nomatch hprobe
    | halfOpenProbe => exact watched_setLoop h hget rfl rfl
    | connected =>
      -- the fall-through branch: the state is honest, so the loop would have ended above
      have hconnected : world.session.pusherConnected = true :=
        h.honest (loops_ne_nil hget) hstate
      rw [hconnected, Bool.or_true] at hcondition
      exact absurd rfl hcondition

theorem watched_afterConnect (h : world.link.Watched) {probe : Bool}
    (hget : world.loops[number]? = some (.connecting probe)) (circuitOpen : Bool)
    (monotonic : ℤ) :
    (world.afterConnect number probe circuitOpen monotonic).link.Watched := by
  have hrunning : (LoopStage.connecting probe).running = true := rfl
  unfold afterConnect
  split_ifs with hback
  · rw [Bool.and_eq_true] at hback
    have hnext : LoopEnd.reconnected ≠ .fallThrough := by decide
    refine watched_endLoop ?_ ?_ hrunning hnext (.inr (.inr hback.2))
    · exact watched_same h rfl rfl (fun _ _ => hback.2) h.through rfl id id id
    · exact hget
  · exact watched_setLoop (watched_enterDegraded h monotonic) hget hrunning rfl
  · refine watched_setLoop ?_ ?_ hrunning rfl
    · exact watched_state h rfl rfl fun hdegraded => nomatch hdegraded
    · exact hget
  · refine watched_setLoop ?_ ?_ hrunning rfl
    · exact watched_state h rfl rfl id
    · exact hget

end loops

/-! ### Connects -/

theorem watched_returnConnect (h : world.link.Watched) (caller : ConnectCaller)
    (circuitOpen : Bool) (monotonic : ℤ) :
    (world.returnConnect caller circuitOpen monotonic).link.Watched := by
  have hreturned : ({ world with connectCall := none } : PusherWorld σ).link.Watched := h
  cases caller with
  | first => exact hreturned
  | loop number =>
    unfold returnConnect
    dsimp only
    split
    next probe hget => exact watched_afterConnect hreturned hget circuitOpen monotonic
    next => exact hreturned

theorem watched_beginConnect (h : world.link.Watched) (caller : ConnectCaller) (monotonic : ℤ) :
    (world.beginConnect caller monotonic).link.Watched := by
  unfold beginConnect
  split_ifs
  · exact h
  · exact watched_returnConnect h caller false monotonic
  · exact h
  · exact h

theorem watched_opened (h : world.link.Watched) (caller : ConnectCaller) :
    (world.opened caller).link.Watched := by
  refine ⟨h.handle, fun _ _ => rfl, fun _ _ _ hconnected => ?_, h.through⟩
  exact absurd hconnected (by simp [opened, link])

theorem watched_resent (h : world.link.Watched) (outcome : SendOutcome) :
    (world.resent outcome).link.Watched := by
  cases outcome with
  | connectionClosed => exact watched_markDisconnected h
  | _ => exact h

theorem watched_resumeConnect (h : world.link.Watched) (event : ConnectEvent) (monotonic : ℤ) :
    (world.resumeConnect event monotonic).link.Watched := by
  unfold resumeConnect
  split
  · exact watched_state h rfl rfl id
  · exact watched_opened h _
  · refine watched_returnConnect ?_ _ _ _
    exact watched_state h rfl rfl id
  · exact watched_returnConnect h _ _ _
  · exact watched_returnConnect h _ _ _
  · exact watched_resent h _
  · exact watched_returnConnect h _ _ _
  · exact h
  · exact h

theorem watched_resumeLoop (h : world.link.Watched) (number : ℕ) (woken : Bool)
    (monotonic : ℤ) : (world.resumeLoop number woken monotonic).link.Watched := by
  unfold resumeLoop
  split
  next hget => exact watched_loopHead h hget monotonic
  next hget =>
    split_ifs with hwoken
    · rw [Bool.and_eq_true] at hwoken
      exact watched_endLoop h hget rfl (by decide) (.inr (.inl hwoken.1))
    · exact watched_setLoop h hget rfl rfl
  next hget =>
    split_ifs with hwoken
    · rw [Bool.and_eq_true] at hwoken
      exact watched_endLoop h hget rfl (by decide) (.inr (.inl hwoken.1))
    · exact watched_setLoop h hget rfl rfl
  next => exact watched_beginConnect h _ _
  next => exact h

/-! ### Flushes that fail -/

theorem watched_resumeAudioFlush (h : world.link.Watched) (outcome : SendOutcome) (now : ℚ) :
    (world.resumeAudioFlush config outcome now).link.Watched := by
  unfold resumeAudioFlush
  split
  · exact h
  · apply watched_of_link h
    rw [link_sendAudio]
    simp [announced, link]
  · exact watched_of_link (watched_markDisconnected h) (link_sendAudio _ _)
  · exact watched_of_link h (link_sendAudio _ _)
  · exact h
  · apply watched_of_link h
    simp [sentAudio, link]
  · exact watched_markDisconnected (watched_of_link h (link_restoreAudio _ _))
  · exact watched_of_link h (link_restoreAudio _ _)

theorem watched_resumeTranscriptFlush (h : world.link.Watched) (outcome : SendOutcome) :
    (world.resumeTranscriptFlush config outcome).link.Watched := by
  unfold resumeTranscriptFlush
  split
  · exact h
  · apply watched_of_link h
    simp [sentSegments, link]
  · exact watched_markDisconnected (watched_of_link h (link_restoreSegments _))
  · exact watched_of_link h (link_restoreSegments _)

theorem watched_step (h : world.link.Watched) (action : PusherAction σ) :
    (world.step config action).link.Watched := by
  cases action with
  | audioBytesSend audioBytes receivedAt => exact watched_of_link h (link_receiveAudio _ _)
  | transcriptSend segments => exact watched_of_link h (link_receiveSegments _)
  | switchConversation conversationId => exact h
  | deactivate =>
    exact watched_same h rfl rfl h.honest h.through rfl (fun hactive => absurd hactive (by
      simp [step, link])) id id
  | shutDown =>
    exact watched_same h rfl rfl h.honest h.through rfl id (fun hset => absurd hset (by
      simp [step, link])) id
  | startAudioFlush now => exact watched_of_link h (link_startAudioFlush now)
  | resumeAudioFlush outcome now => exact watched_resumeAudioFlush h outcome now
  | startTranscriptFlush => exact watched_of_link h link_startTranscriptFlush
  | resumeTranscriptFlush outcome => exact watched_resumeTranscriptFlush h outcome
  | exchangeClosed => exact watched_markDisconnected h
  | startDegraded monotonic => exact watched_startDegraded h monotonic
  | startConnect => exact watched_beginConnect h .first 0
  | resumeConnect event monotonic => exact watched_resumeConnect h event monotonic
  | resumeLoop number woken monotonic => exact watched_resumeLoop h number woken monotonic

theorem watched_run (config : ListenPusherSessionConfig) (actions : List (PusherAction σ)) :
    (run config actions).link.Watched := by
  induction actions using List.reverseRecOn with
  | nil =>
    refine ⟨fun number stage hget => ?_, fun hloops => ?_, fun hdisturbed => ?_, rfl⟩
    · exact absurd hget (by simp [run, link])
    · exact absurd rfl hloops
    · exact absurd hdisturbed (by simp [run, link])
  | append_singleton actions action ih =>
    unfold run
    rw [List.foldl_append]
    exact watched_step ih action

end PusherWorld

/-- **One recovery loop and no lost wake-up**, for every order of the session's tasks: at most
one reconnect loop runs; a session that lost a connection or was started degraded is connected,
connecting or watched by a loop for as long as it is active and not shut down; and no loop ends
by falling through. -/
theorem pusherRecovery {σ : Type} (config : ListenPusherSessionConfig)
    (actions : List (PusherAction σ)) :
    let world := PusherWorld.run config actions
    {number : ℕ | (world.loops[number]?).any LoopStage.running}.Subsingleton ∧
    (world.isActive = true → world.shutdown = false → (.lost ∈ world.log ∨ .degraded ∈ world.log) →
      world.session.pusherConnected = true ∨ world.connectCall.isSome = true ∨
        ∃ stage ∈ world.loops, stage.running = true) ∧
    ∀ number, .loopEnded number .fallThrough ∉ world.log := by
  intro world
  have hwatched := PusherWorld.watched_run config actions
  have hthrough : world.log.any PusherEntry.fallsThrough = false := hwatched.through
  refine ⟨?_, fun hactive hshutdown hlog => ?_, fun number hmem => ?_⟩
  · intro number hnumber other hother
    obtain ⟨stage, hget, hrunning⟩ := (Option.any_eq_true _ _).1 hnumber
    obtain ⟨stage', hget', hrunning'⟩ := (Option.any_eq_true _ _).1 hother
    have hlast := hwatched.handle number stage hget hrunning
    have hlast' := hwatched.handle other stage' hget' hrunning'
    exact Option.some.inj (hlast.symm.trans hlast')
  · have hdisturbed : world.log.any PusherEntry.disturbs = true := by
      rw [List.any_eq_true]
      rcases hlog with hlost | hdegraded
      · exact ⟨_, hlost, rfl⟩
      · exact ⟨_, hdegraded, rfl⟩
    by_cases hconnected : world.session.pusherConnected = true
    · exact .inl hconnected
    · rw [Bool.not_eq_true] at hconnected
      obtain ⟨number, stage, hget, hrunning⟩ :=
        hwatched.watched hdisturbed hactive hshutdown hconnected
      exact .inr (.inr ⟨stage, List.mem_of_getElem? hget, hrunning⟩)
  · have hany : world.log.any PusherEntry.fallsThrough = true :=
      List.any_eq_true.2 ⟨_, hmem, rfl⟩
    exact absurd (hany.symm.trans hthrough) (by decide)

end Omi.Pusher
