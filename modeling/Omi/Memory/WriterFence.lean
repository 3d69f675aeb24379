import Omi.Memory.Writer

/-! Safety of the writer-mode transitions under any interleaving: what a step can write, and
what follows for the epochs, the modes, the admissions and the replays of every run. -/
namespace Omi.Memory
open Omi.Foundation

theorem readControl_ok {uid : String} {document : Option MemoryControlState}
    {control : MemoryControlState} (h : readControl uid document = .ok control) :
    document = some control ∧ control.valid = true ∧ control.uid = uid := by
  cases document with
  | none => cases h
  | some stored =>
    simp only [readControl] at h
    split_ifs at h with hvalid huid <;> cases h
    exact ⟨rfl, by simpa using hvalid, by simpa using huid⟩

theorem readControl_eq {uid : String} {control : MemoryControlState}
    (hvalid : control.valid = true) (huid : control.uid = uid) :
    readControl uid (some control) = .ok control := by
  simp [readControl, hvalid, huid]

theorem validatedControlUpdate_ok {updated control : MemoryControlState}
    (h : validatedControlUpdate updated = .ok control) :
    control = updated ∧ updated.valid = true := by
  unfold validatedControlUpdate at h
  split_ifs at h with hvalid
  cases h
  exact ⟨rfl, hvalid⟩

/-- A begin is a replay, or opens a transition of the stable control state it expected. -/
theorem beginWriterTransition_ok {s : WriterStore} {uid owner : String} {target : WriterMode}
    {expected : MemoryControlState} {now : ℤ} {txn : TransitionTxn}
    (h : beginWriterTransition s uid target owner expected now = .ok txn) :
    (∃ current, s.control = some current ∧ txn = { reply := current }) ∨
    ∃ current, s.control = some current ∧ current.uid = uid ∧
      MemoryWriterFence.fromControl current = .fromControl expected ∧
      current.writerMode.transitioning = false ∧ target.transitioning = false ∧
      current.writerMode ≠ target ∧ (current.begun target owner now).valid = true ∧
      txn = { reply := current.begun target owner now,
              control := some (current.begun target owner now) } := by
  simp only [beginWriterTransition, requiredOwner, stableMode, requireExpectedOwner, require,
    requireCurrentFence, bind_eq_ok_iff, check_eq_ok_iff, exists_const] at h
  obtain ⟨-, htarget, -, -, -, current, hread, h⟩ := h
  obtain ⟨hcontrol, -, huid⟩ := readControl_ok hread
  split_ifs at h with hreplay
  · cases h
    exact .inl ⟨current, hcontrol, rfl⟩
  · simp only [bind_eq_ok_iff, check_eq_ok_iff, exists_const] at h
    obtain ⟨⟨-, hfence⟩, hstable, hmode, transitioned, hupdate, h⟩ := h
    obtain ⟨rfl, hvalid⟩ := validatedControlUpdate_ok hupdate
    cases h
    exact .inr ⟨current, hcontrol, huid, by simpa using hfence, by simpa using hstable,
      by simpa using htarget, by simpa using hmode, hvalid, rfl⟩

/-- A complete is a replay, or settles the open transition its receipt was made under. -/
theorem completeWriterTransition_ok {s : WriterStore} {uid owner : String}
    {expected : MemoryControlState} {receipt : CompleteUnionProofReceipt} {now : ℤ}
    {txn : TransitionTxn}
    (h : completeWriterTransition s uid owner expected receipt now = .ok txn) :
    (∃ current, s.control = some current ∧ txn = { reply := current }) ∨
    ∃ current, s.control = some current ∧ current.uid = uid ∧
      MemoryWriterFence.fromControl current = .fromControl expected ∧
      current.writerTransitionOwner = some owner ∧
      receipt.fence = .fromControl current ∧ receipt.valid = true ∧
      (current.settled receipt.targetMode now).valid = true ∧
      txn = { reply := current.settled receipt.targetMode now,
              control := some (current.settled receipt.targetMode now),
              receipt := some receipt } := by
  simp only [completeWriterTransition, requiredOwner, requireExpectedOwner, require,
    requireCurrentFence, validateReceiptFence, requireTransitionExpected, bind_eq_ok_iff,
    check_eq_ok_iff, exists_const] at h
  obtain ⟨-, -, -, hreceipt, ⟨-, hproof⟩, current, hread, h⟩ := h
  obtain ⟨hcontrol, -, huid⟩ := readControl_ok hread
  split_ifs at h with hreplay
  · cases hpersisted : s.receipt with
    | none =>
      rw [hpersisted] at h
      cases h
    | some persisted =>
      rw [hpersisted] at h
      simp only [bind_eq_ok_iff, check_eq_ok_iff, exists_const] at h
      obtain ⟨-, -, h⟩ := h
      cases h
      exact .inl ⟨current, hcontrol, rfl⟩
  · simp only [bind_eq_ok_iff, check_eq_ok_iff, exists_const] at h
    obtain ⟨⟨-, hfence⟩, howner, -, completed, hupdate, h⟩ := h
    obtain ⟨rfl, hvalid⟩ := validatedControlUpdate_ok hupdate
    cases h
    simp only [decide_eq_true_eq] at hfence howner hproof
    rw [← hfence] at hproof
    have hreceiptFence : receipt.fence = .fromControl current := by
      rw [hproof]
      simp [MemoryWriterFence.fromControl, howner]
    exact .inr ⟨current, hcontrol, huid, hfence, howner, hreceiptFence, hreceipt, hvalid, rfl⟩

/-- An abort is a replay, or settles the open transition it expected to its prior mode. -/
theorem abortWriterTransition_ok {s : WriterStore} {uid owner : String}
    {expected : MemoryControlState} {now : ℤ} {txn : TransitionTxn}
    (h : abortWriterTransition s uid owner expected now = .ok txn) :
    (∃ current, s.control = some current ∧ txn = { reply := current }) ∨
    ∃ current, s.control = some current ∧ current.uid = uid ∧
      MemoryWriterFence.fromControl current = .fromControl expected ∧
      current.writerTransitionOwner = some owner ∧ current.writerMode.transitioning = true ∧
      (current.settled (priorStableMode current.writerMode) now).valid = true ∧
      txn = { reply := current.settled (priorStableMode current.writerMode) now,
              control := some (current.settled (priorStableMode current.writerMode) now) } := by
  simp only [abortWriterTransition, requiredOwner, requireExpectedOwner, require,
    requireCurrentFence, requireTransitionExpected, bind_eq_ok_iff, check_eq_ok_iff,
    exists_const] at h
  obtain ⟨-, -, ⟨hexpected, -⟩, current, hread, h⟩ := h
  obtain ⟨hcontrol, -, huid⟩ := readControl_ok hread
  split_ifs at h with hreplay
  · cases h
    exact .inl ⟨current, hcontrol, rfl⟩
  · simp only [bind_eq_ok_iff, check_eq_ok_iff, exists_const] at h
    obtain ⟨⟨-, hfence⟩, howner, aborted, hupdate, h⟩ := h
    obtain ⟨rfl, hvalid⟩ := validatedControlUpdate_ok hupdate
    cases h
    simp only [decide_eq_true_eq] at hfence howner
    have hmode : current.writerMode = expected.writerMode :=
      congrArg MemoryWriterFence.writerMode hfence
    rw [← hmode] at hexpected hvalid ⊢
    exact .inr ⟨current, hcontrol, huid, hfence, howner, hexpected, hvalid, rfl⟩

/-- The call wrote the control document. -/
def WriterCall.effective (s : WriterStore) (call : WriterCall) : Bool :=
  match call.txn s with
  | some (.ok txn) => txn.control.isSome
  | _ => false

def WriterCall.isBegin : WriterCall → Bool
  | .begin .. => true
  | _ => false

/-- Everything a step can do to the documents. -/
inductive WriterEffect (s : WriterStore) (call : WriterCall) : WriterStore → Prop
  | same (heffective : call.effective s = false) : WriterEffect s call s
  | began (current : MemoryControlState) (uid : String) (target : WriterMode) (owner : String)
    (expected : MemoryControlState) (now : ℤ)
    (hcall : call = .begin uid target owner expected now) (heffective : call.effective s = true)
    (hcontrol : s.control = some current)
    (hfence : MemoryWriterFence.fromControl current = .fromControl expected)
    (hstable : current.writerMode.transitioning = false)
    (htarget : target.transitioning = false) (hmode : current.writerMode ≠ target) :
    WriterEffect s call { s with control := some (current.begun target owner now) }
  | completed (current : MemoryControlState) (uid owner : String)
    (expected : MemoryControlState) (receipt : CompleteUnionProofReceipt) (now : ℤ)
    (hcall : call = .complete uid owner expected receipt now)
    (heffective : call.effective s = true) (hcontrol : s.control = some current)
    (hfence : MemoryWriterFence.fromControl current = .fromControl expected)
    (howner : current.writerTransitionOwner = some owner)
    (hreceipt : receipt.fence = .fromControl current) (hvalid : receipt.valid = true) :
    WriterEffect s call
      { control := some (current.settled receipt.targetMode now), receipt := some receipt }
  | aborted (current : MemoryControlState) (uid owner : String)
    (expected : MemoryControlState) (now : ℤ) (hcall : call = .abort uid owner expected now)
    (heffective : call.effective s = true) (hcontrol : s.control = some current)
    (hfence : MemoryWriterFence.fromControl current = .fromControl expected)
    (howner : current.writerTransitionOwner = some owner)
    (hopen : current.writerMode.transitioning = true) :
    WriterEffect s call
      { s with control := some (current.settled (priorStableMode current.writerMode) now) }
  | committed (current : MemoryControlState) (requested : MemoryWriterClass)
    (allowLedgerMigration : Bool) (commitId : String) (now : ℤ)
    (hcall : call = .admission requested allowLedgerMigration (some (commitId, now)))
    (hcontrol : s.control = some current)
    (hadmitted : requireWriterAdmitted current requested allowLedgerMigration = .ok ()) :
    WriterEffect s call { s with control := some (current.advanceHead commitId now) }

theorem admitWriter_effect (s : WriterStore) (requested : MemoryWriterClass)
    (allowLedgerMigration : Bool) (commit : Option (String × ℤ)) :
    WriterEffect s (.admission requested allowLedgerMigration commit)
      (admitWriter s requested allowLedgerMigration commit).1 := by
  unfold admitWriter
  cases hcontrol : s.control with
  | none => exact .same rfl
  | some control =>
    dsimp only
    cases hadmitted : requireWriterAdmitted control requested allowLedgerMigration with
    | error message => exact .same rfl
    | ok u =>
      cases commit with
      | none => exact .same rfl
      | some commit =>
        obtain ⟨commitId, now⟩ := commit
        exact .committed control requested allowLedgerMigration commitId now rfl hcontrol hadmitted

/-- A transition call has the effect of its transaction where that is no replay. -/
theorem runTransition_effect {s : WriterStore} {call : WriterCall}
    {result : TransitionM TransitionTxn} (htxn : call.txn s = some result)
    (hok : ∀ txn, result = .ok txn → (∃ current, txn = { reply := current }) ∨
      txn.control.isSome = true ∧
        (call.effective s = true → WriterEffect s call (s.write txn))) :
    WriterEffect s call (runTransition s result).1 := by
  cases result with
  | error error =>
    have heffective : call.effective s = false := by simp [WriterCall.effective, htxn]
    exact .same heffective
  | ok txn =>
    rcases hok txn rfl with ⟨current, rfl⟩ | ⟨hwrites, heffect⟩
    · have heffective : call.effective s = false := by simp [WriterCall.effective, htxn]
      have hsame : s.write { reply := current } = s := by simp [WriterStore.write]
      rw [runTransition, hsame]
      exact .same heffective
    · have heffective : call.effective s = true := by simp [WriterCall.effective, htxn, hwrites]
      exact heffect heffective

theorem writerStep_effect (s : WriterStore) (call : WriterCall) :
    WriterEffect s call (writerStep s call).1 := by
  cases call with
  | admission requested allowLedgerMigration commit =>
    exact admitWriter_effect s requested allowLedgerMigration commit
  | begin uid target owner expected now =>
    refine runTransition_effect rfl fun txn htxn => ?_
    rcases beginWriterTransition_ok htxn with ⟨current, -, rfl⟩ |
      ⟨current, hcontrol, -, hfence, hstable, htarget, hmode, -, rfl⟩
    · exact .inl ⟨current, rfl⟩
    · exact .inr ⟨rfl, fun heffective => .began current uid target owner expected now rfl
        heffective hcontrol hfence hstable htarget hmode⟩
  | complete uid owner expected receipt now =>
    refine runTransition_effect rfl fun txn htxn => ?_
    rcases completeWriterTransition_ok htxn with ⟨current, -, rfl⟩ |
      ⟨current, hcontrol, -, hfence, howner, hreceipt, hvalid, -, rfl⟩
    · exact .inl ⟨current, rfl⟩
    · exact .inr ⟨rfl, fun heffective => .completed current uid owner expected receipt now rfl
        heffective hcontrol hfence howner hreceipt hvalid⟩
  | abort uid owner expected now =>
    refine runTransition_effect rfl fun txn htxn => ?_
    rcases abortWriterTransition_ok htxn with ⟨current, -, rfl⟩ |
      ⟨current, hcontrol, -, hfence, howner, hopen, -, rfl⟩
    · exact .inl ⟨current, rfl⟩
    · exact .inr ⟨rfl, fun heffective => .aborted current uid owner expected now rfl heffective
        hcontrol hfence howner hopen⟩

theorem CompleteUnionProofReceipt.valid_modes {receipt : CompleteUnionProofReceipt}
    (h : receipt.valid = true) :
    receipt.writerMode = .transitioningToLedger ∧ receipt.targetMode = .ledger ∨
      receipt.writerMode = .transitioningToCompatibility ∧
        receipt.targetMode = .compatibility := by
  simp only [CompleteUnionProofReceipt.valid, Bool.and_eq_true, Bool.or_eq_true,
    decide_eq_true_eq] at h
  exact h.2

theorem CompleteUnionProofReceipt.targetMode_stable {receipt : CompleteUnionProofReceipt}
    (h : receipt.valid = true) : receipt.targetMode.transitioning = false := by
  rcases receipt.valid_modes h with ⟨-, htarget⟩ | ⟨-, htarget⟩ <;> rw [htarget] <;> rfl

theorem priorStableMode_stable (mode : WriterMode) :
    (priorStableMode mode).transitioning = false := by
  cases mode <;> rfl

theorem priorStableMode_eq_self {mode : WriterMode} (h : mode.transitioning = false) :
    priorStableMode mode = mode := by
  cases mode <;> first | rfl | cases h

theorem priorStableMode_transitionModeFor {mode target : WriterMode}
    (hmode : mode.transitioning = false) (htarget : target.transitioning = false)
    (hne : mode ≠ target) : priorStableMode (transitionModeFor target) = mode := by
  revert hmode htarget hne
  cases mode <;> cases target <;> decide

section Effect
variable {s s' : WriterStore} {call : WriterCall}

/-- Epoch and source generation move on an effective begin only. -/
theorem WriterEffect.epochs (h : WriterEffect s call s') {old : MemoryControlState}
    (hold : s.control = some old) :
    ∃ new, s'.control = some new ∧
      new.writerEpoch =
        old.writerEpoch + (if call.isBegin && call.effective s then 1 else 0) ∧
      new.sourceGeneration =
        old.sourceGeneration + (if call.isBegin && call.effective s then 1 else 0) := by
  cases h with
  | same heffective => exact ⟨old, hold, by simp [heffective], by simp [heffective]⟩
  | began current uid target owner expected now hcall heffective hcontrol =>
    obtain rfl : current = old := Option.some.inj (hcontrol.symm.trans hold)
    have hbegin : call.isBegin = true := by rw [hcall]; rfl
    exact ⟨_, rfl, by simp [hbegin, heffective, MemoryControlState.begun],
      by simp [hbegin, heffective, MemoryControlState.begun]⟩
  | completed current uid owner expected receipt now hcall _ hcontrol =>
    obtain rfl : current = old := Option.some.inj (hcontrol.symm.trans hold)
    subst hcall
    exact ⟨_, rfl, by simp [WriterCall.isBegin, MemoryControlState.settled],
      by simp [WriterCall.isBegin, MemoryControlState.settled]⟩
  | aborted current uid owner expected now hcall _ hcontrol =>
    obtain rfl : current = old := Option.some.inj (hcontrol.symm.trans hold)
    subst hcall
    exact ⟨_, rfl, by simp [WriterCall.isBegin, MemoryControlState.settled],
      by simp [WriterCall.isBegin, MemoryControlState.settled]⟩
  | committed current requested allow commitId now hcall hcontrol =>
    obtain rfl : current = old := Option.some.inj (hcontrol.symm.trans hold)
    subst hcall
    exact ⟨_, rfl, by simp [WriterCall.isBegin, MemoryControlState.advanceHead],
      by simp [WriterCall.isBegin, MemoryControlState.advanceHead]⟩

/-- The call settled the transition open at `s` by a receipt made under its exact fence. -/
def completes (s : WriterStore) (call : WriterCall) : Prop :=
  ∃ uid owner expected receipt now control,
    call = .complete uid owner expected receipt now ∧ call.effective s = true ∧
      s.control = some control ∧ control.writerMode.transitioning = true ∧
      receipt.fence = .fromControl control

/-- The stable mode a control state has, or returns to on an abort, moves by a complete only. -/
theorem WriterEffect.priorStableMode (h : WriterEffect s call s')
    {old new : MemoryControlState} (hold : s.control = some old) (hnew : s'.control = some new) :
    priorStableMode new.writerMode = priorStableMode old.writerMode ∨ completes s call := by
  cases h with
  | same =>
    obtain rfl : old = new := Option.some.inj (hold.symm.trans hnew)
    exact .inl rfl
  | began current uid target owner expected now _ _ hcontrol _ hstable htarget hmode =>
    obtain rfl : current = old := Option.some.inj (hcontrol.symm.trans hold)
    obtain rfl : current.begun target owner now = new := Option.some.inj hnew
    refine .inl ?_
    rw [priorStableMode_eq_self hstable]
    exact priorStableMode_transitionModeFor hstable htarget hmode
  | completed current uid owner expected receipt now hcall heffective hcontrol _ _ hreceipt
      hvalid =>
    have hmode : receipt.writerMode = current.writerMode :=
      congrArg MemoryWriterFence.writerMode hreceipt
    have hopen : current.writerMode.transitioning = true := by
      rcases receipt.valid_modes hvalid with ⟨hreceiptMode, -⟩ | ⟨hreceiptMode, -⟩ <;>
        rw [← hmode, hreceiptMode] <;> rfl
    exact .inr ⟨uid, owner, expected, receipt, now, current, hcall, heffective, hcontrol, hopen,
      hreceipt⟩
  | aborted current uid owner expected now _ _ hcontrol =>
    obtain rfl : current = old := Option.some.inj (hcontrol.symm.trans hold)
    obtain rfl := Option.some.inj hnew
    exact .inl (priorStableMode_eq_self (priorStableMode_stable current.writerMode))
  | committed current requested allow commitId now _ hcontrol =>
    obtain rfl : current = old := Option.some.inj (hcontrol.symm.trans hold)
    obtain rfl := Option.some.inj hnew
    exact .inl rfl

/-- What identifies an open transition. -/
def MemoryControlState.transition (control : MemoryControlState) :
    WriterMode × ℤ × Option String :=
  (control.writerMode, control.writerEpoch, control.writerTransitionOwner)

/-- An open transition was open before the step, or the step is the begin that opened it. -/
theorem WriterEffect.opened (h : WriterEffect s call s') {new : MemoryControlState}
    (hnew : s'.control = some new) (hopen : new.writerMode.transitioning = true) :
    (∃ old, s.control = some old ∧ old.transition = new.transition) ∨
      call.isBegin = true ∧ call.effective s = true := by
  cases h with
  | same => exact .inl ⟨new, hnew, rfl⟩
  | began current uid target owner expected now hcall heffective =>
    exact .inr ⟨by rw [hcall]; rfl, heffective⟩
  | completed current uid owner expected receipt now _ _ _ _ _ _ hvalid =>
    obtain rfl := Option.some.inj hnew
    have hstable := receipt.targetMode_stable hvalid
    simp [MemoryControlState.settled, hstable] at hopen
  | aborted current =>
    obtain rfl := Option.some.inj hnew
    have hstable := priorStableMode_stable current.writerMode
    simp [MemoryControlState.settled, hstable] at hopen
  | committed current requested allow commitId now _ hcontrol =>
    obtain rfl := Option.some.inj hnew
    exact .inl ⟨current, hcontrol, rfl⟩

/-- The owner and the fence a transition call presents. -/
def WriterCall.presents : WriterCall → Option (String × MemoryControlState)
  | .begin _ _ owner expected _ => some (owner, expected)
  | .complete _ owner expected _ _ => some (owner, expected)
  | .abort _ owner expected _ => some (owner, expected)
  | .admission .. => none

/-- A transition call that does not own the open transition changes nothing. -/
theorem WriterEffect.eq_of_not_owner (h : WriterEffect s call s') {control expected owner}
    (hcontrol : s.control = some control) (hopen : control.writerMode.transitioning = true)
    (hcall : call.presents = some (owner, expected))
    (hforeign : control.writerTransitionOwner ≠ some owner ∨
      MemoryWriterFence.fromControl control ≠ .fromControl expected) : s' = s := by
  cases h with
  | same => rfl
  | began current _ _ _ _ _ _ _ hcurrent _ hstable =>
    obtain rfl : current = control := Option.some.inj (hcurrent.symm.trans hcontrol)
    rw [hopen] at hstable
    cases hstable
  | completed current _ _ _ _ _ hcomplete _ hcurrent hfence howner =>
    obtain rfl : current = control := Option.some.inj (hcurrent.symm.trans hcontrol)
    subst hcomplete
    obtain ⟨rfl, rfl⟩ := Prod.mk.inj (Option.some.inj hcall)
    exact (hforeign.elim (fun hne => hne howner) fun hne => hne hfence).elim
  | aborted current _ _ _ _ habort _ hcurrent hfence howner =>
    obtain rfl : current = control := Option.some.inj (hcurrent.symm.trans hcontrol)
    subst habort
    obtain ⟨rfl, rfl⟩ := Prod.mk.inj (Option.some.inj hcall)
    exact (hforeign.elim (fun hne => hne howner) fun hne => hne hfence).elim
  | committed _ _ _ _ _ hcommit =>
    subst hcommit
    cases hcall

end Effect
/-- A run that ends under another stable mode completed a transition on the way. -/
theorem completes_of_priorStableMode_ne (calls : List WriterCall) {s : WriterStore}
    {first last : MemoryControlState} (hfirst : s.control = some first)
    (hlast : (writers.state s calls).control = some last)
    (hne : priorStableMode last.writerMode ≠ priorStableMode first.writerMode) :
    ∃ before call after, calls = before ++ call :: after ∧
      completes (writers.state s before) call := by
  induction calls generalizing s first with
  | nil =>
    rw [Machine.state_nil, hfirst] at hlast
    obtain rfl := Option.some.inj hlast
    exact absurd rfl hne
  | cons call calls ih =>
    have heffect := writerStep_effect s call
    obtain ⟨second, hsecond, -, -⟩ := heffect.epochs hfirst
    rcases heffect.priorStableMode hfirst hsecond with hsame | hcompletes
    · rw [← hsame] at hne
      obtain ⟨before, complete, after, rfl, hcomplete⟩ := ih hsecond hlast hne
      exact ⟨call :: before, complete, after, rfl, hcomplete⟩
    · exact ⟨[], call, calls, rfl, hcompletes⟩

/-- A transition open after a run from a stable mode was opened on the way, and is the one its
begin opened. -/
theorem begin_of_open (calls : List WriterCall) {s : WriterStore}
    {first last : MemoryControlState} (hfirst : s.control = some first)
    (hstable : first.writerMode.transitioning = false)
    (hlast : (writers.state s calls).control = some last)
    (hopen : last.writerMode.transitioning = true) :
    ∃ before call after control, calls = before ++ call :: after ∧ call.isBegin = true ∧
      call.effective (writers.state s before) = true ∧
      (writers.state s (before ++ [call])).control = some control ∧
      control.transition = last.transition := by
  induction calls using List.reverseRecOn generalizing last with
  | nil =>
    rw [Machine.state_nil, hfirst] at hlast
    obtain rfl := Option.some.inj hlast
    rw [hstable] at hopen
    cases hopen
  | append_singleton calls call ih =>
    have heffect := writerStep_effect (writers.state s calls) call
    have hstep : writers.state s (calls ++ [call]) =
        (writerStep (writers.state s calls) call).1 := by
      rw [Machine.state_append]
      rfl
    rw [← hstep] at heffect
    rcases heffect.opened hlast hopen with ⟨old, hold, htransition⟩ | ⟨hbegin, heffective⟩
    · have hmode : old.writerMode = last.writerMode := congrArg Prod.fst htransition
      obtain ⟨before, opening, after, control, rfl, hbegin, heffective, hcontrol, hsame⟩ :=
        ih hold (hmode ▸ hopen)
      exact ⟨before, opening, after ++ [call], control, by simp, hbegin, heffective, hcontrol,
        hsame.trans htransition⟩
    · exact ⟨calls, call, [], last, rfl, hbegin, heffective, hlast, rfl⟩

section Replay
variable {s : WriterStore} {uid owner : String} {expected control : MemoryControlState}
  {now : ℤ} {txn : TransitionTxn}

theorem beginWriterTransition_replay {target : WriterMode}
    (h : beginWriterTransition s uid target owner expected now = .ok txn)
    (hwrite : txn.control = some control) :
    beginWriterTransition (s.write txn) uid target owner expected now =
      .ok { reply := txn.reply } := by
  rcases beginWriterTransition_ok h with ⟨current, -, rfl⟩ |
    ⟨current, -, huid, hfence, hstable, -, -, hvalid, rfl⟩
  · cases hwrite
  have hread : readControl uid (some (current.begun target owner now)) =
      .ok (current.begun target owner now) := readControl_eq hvalid huid
  simp only [MemoryWriterFence.fromControl, MemoryWriterFence.mk.injEq] at hfence
  obtain ⟨hsameUid, hhead, haccount, hsource, hsequence, hsameMode, hepoch, -⟩ := hfence
  have hreplay : isBeginReplay (current.begun target owner now) (.fromControl expected)
      (transitionModeFor target) owner = true := by
    simp [isBeginReplay, MemoryControlState.begun, MemoryWriterFence.fromControl, ← hsameMode,
      hstable, hsameUid, hhead, haccount, hsource, hsequence, hepoch]
  simp only [beginWriterTransition, bind_eq_ok_iff] at h ⊢
  obtain ⟨_, howner, _, htarget, _, hexpected, _, hentry, _, hmode, -⟩ := h
  refine ⟨_, howner, _, htarget, _, hexpected, _, hentry, _, hmode, _, hread, ?_⟩
  rw [if_pos hreplay]
  rfl

theorem completeWriterTransition_replay {receipt : CompleteUnionProofReceipt}
    (h : completeWriterTransition s uid owner expected receipt now = .ok txn)
    (hwrite : txn.control = some control) :
    completeWriterTransition (s.write txn) uid owner expected receipt now =
      .ok { reply := txn.reply } := by
  rcases completeWriterTransition_ok h with ⟨current, -, rfl⟩ |
    ⟨current, -, huid, hfence, -, -, hreceipt, hvalid, rfl⟩
  · cases hwrite
  have hread : readControl uid (some (current.settled receipt.targetMode now)) =
      .ok (current.settled receipt.targetMode now) := readControl_eq hvalid huid
  simp only [completeWriterTransition, bind_eq_ok_iff] at h ⊢
  obtain ⟨_, howner, _, hexpected, _, htransition, _, hproof, _, hreceiptFence, -⟩ := h
  have hopen : expected.writerMode.transitioning = true := by
    simp only [requireTransitionExpected, require, bind_eq_ok_iff, check_eq_ok_iff] at htransition
    obtain ⟨_, htransitioning, -⟩ := htransition
    exact htransitioning
  simp only [MemoryWriterFence.fromControl, MemoryWriterFence.mk.injEq] at hfence
  obtain ⟨hsameUid, hhead, haccount, hsource, hsequence, -, hepoch, -⟩ := hfence
  have hreplay : isCompletedReplay (current.settled receipt.targetMode now)
      (.fromControl expected) receipt.targetMode = true := by
    simp [isCompletedReplay, sameNonmodeFence, MemoryControlState.settled,
      MemoryWriterFence.fromControl, hopen, hsameUid, hhead, haccount, hsource, hsequence, hepoch]
  refine ⟨_, howner, _, hexpected, _, htransition, _, hproof, _, hreceiptFence, _, hread, ?_⟩
  rw [if_pos hreplay]
  simp [WriterStore.write, require, check, hreceipt]
  rfl

theorem abortWriterTransition_replay
    (h : abortWriterTransition s uid owner expected now = .ok txn)
    (hwrite : txn.control = some control) :
    abortWriterTransition (s.write txn) uid owner expected now =
      .ok { reply := txn.reply } := by
  rcases abortWriterTransition_ok h with ⟨current, -, rfl⟩ |
    ⟨current, -, huid, hfence, -, -, hvalid, rfl⟩
  · cases hwrite
  have hread := readControl_eq hvalid huid
  simp only [MemoryWriterFence.fromControl, MemoryWriterFence.mk.injEq] at hfence
  obtain ⟨hsameUid, hhead, haccount, hsource, hsequence, hsameMode, hepoch, -⟩ := hfence
  have hreplay : isAbortedReplay (current.settled (priorStableMode current.writerMode) now)
      (.fromControl expected) (priorStableMode expected.writerMode) = true := by
    simp [isAbortedReplay, sameNonmodeFence, MemoryControlState.settled,
      MemoryWriterFence.fromControl, hsameMode, hsameUid, hhead, haccount, hsource, hsequence,
      hepoch]
  simp only [abortWriterTransition, bind_eq_ok_iff] at h ⊢
  obtain ⟨_, howner, _, hexpected, _, htransition, -⟩ := h
  refine ⟨_, howner, _, hexpected, _, htransition, _, hread, ?_⟩
  rw [if_pos hreplay]
  rfl

/-- Repeated at once, an effective call returns what it returned and writes nothing. -/
theorem effective_replay {call : WriterCall} (h : call.effective s = true) :
    writerStep (writerStep s call).1 call = writerStep s call := by
  have hrun {first second : TransitionM TransitionTxn} {txn : TransitionTxn}
      (hfirst : first = .ok txn) (hsecond : second = .ok { reply := txn.reply }) :
      runTransition (runTransition s first).1 second = runTransition s first := by
    rw [hfirst, hsecond]
    simp [runTransition, WriterStore.write]
  have htxn : ∃ txn control, call.txn s = some (.ok txn) ∧ txn.control = some control := by
    unfold WriterCall.effective at h
    split at h
    next txn htxn => exact ⟨txn, _, htxn, (Option.some_get h).symm⟩
    next => cases h
  obtain ⟨txn, control, htxn, hwrite⟩ := htxn
  cases call with
  | begin uid target owner expected now =>
    have hbegin := Option.some.inj htxn
    have hnext : (runTransition s (beginWriterTransition s uid target owner expected now)).1 = s.write txn := by
      rw [hbegin]
      rfl
    refine hrun hbegin ?_
    show beginWriterTransition (runTransition s (beginWriterTransition s uid target owner expected now)).1 uid target owner expected now = _
    rw [hnext]
    exact beginWriterTransition_replay hbegin hwrite
  | complete uid owner expected receipt now =>
    have hcomplete := Option.some.inj htxn
    have hnext : (runTransition s (completeWriterTransition s uid owner expected receipt now)).1 = s.write txn := by
      rw [hcomplete]
      rfl
    refine hrun hcomplete ?_
    show completeWriterTransition (runTransition s (completeWriterTransition s uid owner expected receipt now)).1 uid owner expected receipt now = _
    rw [hnext]
    exact completeWriterTransition_replay hcomplete hwrite
  | abort uid owner expected now =>
    have habort := Option.some.inj htxn
    have hnext : (runTransition s (abortWriterTransition s uid owner expected now)).1 = s.write txn := by
      rw [habort]
      rfl
    refine hrun habort ?_
    show abortWriterTransition (runTransition s (abortWriterTransition s uid owner expected now)).1 uid owner expected now = _
    rw [hnext]
    exact abortWriterTransition_replay habort hwrite
  | admission => cases htxn

/-- The transition a call was made under has been passed: a later epoch has begun, or the
call expected an open transition and this epoch's is closed. -/
def Passed (expected : MemoryControlState) (s : WriterStore) : Prop :=
  ∃ control, s.control = some control ∧
    (expected.writerEpoch < control.writerEpoch ∨
      expected.writerMode.transitioning = true ∧ control.writerEpoch = expected.writerEpoch ∧
        control.writerMode.transitioning = false)

theorem passed_of_effective {call : WriterCall} (h : call.effective s = true) :
    ∃ owner expected, call.presents = some (owner, expected) ∧
      Passed expected (writerStep s call).1 := by
  have heffect := writerStep_effect s call
  generalize (writerStep s call).1 = s' at heffect
  cases heffect with
  | same heffective =>
    rw [heffective] at h
    cases h
  | began current uid target owner expected now hcall _ _ hfence =>
    have hepoch : current.writerEpoch = expected.writerEpoch :=
      congrArg MemoryWriterFence.writerEpoch hfence
    refine ⟨owner, expected, by rw [hcall]; rfl, _, rfl, .inl ?_⟩
    show expected.writerEpoch < current.writerEpoch + 1
    omega
  | completed current uid owner expected receipt now hcall _ _ hfence _ hreceipt hvalid =>
    have hepoch : current.writerEpoch = expected.writerEpoch :=
      congrArg MemoryWriterFence.writerEpoch hfence
    have hmode : receipt.writerMode = expected.writerMode :=
      congrArg MemoryWriterFence.writerMode (hreceipt.trans hfence)
    have hopen : expected.writerMode.transitioning = true := by
      rcases receipt.valid_modes hvalid with ⟨hreceiptMode, -⟩ | ⟨hreceiptMode, -⟩ <;>
        rw [← hmode, hreceiptMode] <;> rfl
    exact ⟨owner, expected, by rw [hcall]; rfl, _, rfl,
      .inr ⟨hopen, hepoch, receipt.targetMode_stable hvalid⟩⟩
  | aborted current uid owner expected now hcall _ _ hfence _ hopen =>
    have hepoch : current.writerEpoch = expected.writerEpoch :=
      congrArg MemoryWriterFence.writerEpoch hfence
    have hmode : current.writerMode = expected.writerMode :=
      congrArg MemoryWriterFence.writerMode hfence
    exact ⟨owner, expected, by rw [hcall]; rfl, _, rfl,
      .inr ⟨hmode ▸ hopen, hepoch, priorStableMode_stable _⟩⟩
  | committed current requested allow commitId now hcall =>
    subst hcall
    cases h

theorem Passed.step {expected : MemoryControlState} (h : Passed expected s) (call : WriterCall) :
    Passed expected (writerStep s call).1 := by
  obtain ⟨old, hold, hpassed⟩ := h
  have heffect := writerStep_effect s call
  obtain ⟨new, hnew, hepoch, -⟩ := heffect.epochs hold
  refine ⟨new, hnew, ?_⟩
  by_cases hbegin : (call.isBegin && call.effective s) = true
  · rw [if_pos hbegin] at hepoch
    rcases hpassed with hlater | ⟨-, hsame, -⟩
    · exact .inl (by omega)
    · exact .inl (by omega)
  · rw [if_neg hbegin, add_zero] at hepoch
    rcases hpassed with hlater | ⟨hexpected, hsame, hclosed⟩
    · exact .inl (by omega)
    · refine .inr ⟨hexpected, by omega, ?_⟩
      by_contra hopen
      rw [Bool.not_eq_false] at hopen
      rcases heffect.opened hnew hopen with ⟨control, hcontrol, htransition⟩ | hopened
      · obtain rfl := Option.some.inj (hcontrol.symm.trans hold)
        have hmode : control.writerMode = new.writerMode := congrArg Prod.fst htransition
        rw [hmode, hopen] at hclosed
        cases hclosed
      · simp [hopened.1, hopened.2] at hbegin

/-- A call made under a passed transition changes nothing. -/
theorem Passed.eq_of_presents {expected : MemoryControlState} (h : Passed expected s)
    {call : WriterCall} {owner : String} (hcall : call.presents = some (owner, expected)) :
    (writerStep s call).1 = s := by
  obtain ⟨control, hcontrol, hpassed⟩ := h
  have heffect := writerStep_effect s call
  generalize (writerStep s call).1 = s' at heffect
  -- an effective call expects the current fence, which the passed transition excludes
  have hcurrent {current : MemoryControlState} {expected' : MemoryControlState}
      (hcurrent : s.control = some current) (hsame : expected' = expected)
      (hfence : MemoryWriterFence.fromControl current = .fromControl expected') : False := by
    subst hsame
    obtain rfl := Option.some.inj (hcurrent.symm.trans hcontrol)
    have hepoch : current.writerEpoch = expected'.writerEpoch :=
      congrArg MemoryWriterFence.writerEpoch hfence
    have hmode : current.writerMode = expected'.writerMode :=
      congrArg MemoryWriterFence.writerMode hfence
    rcases hpassed with hlater | ⟨hopen, -, hclosed⟩
    · omega
    · rw [hmode, hopen] at hclosed
      cases hclosed
  cases heffect with
  | same => rfl
  | began current uid target owner' expected' now hbegin _ hcontrol' hfence =>
    subst hbegin
    exact (hcurrent hcontrol' (Prod.mk.inj (Option.some.inj hcall)).2 hfence).elim
  | completed current uid owner' expected' receipt now hcomplete _ hcontrol' hfence =>
    subst hcomplete
    exact (hcurrent hcontrol' (Prod.mk.inj (Option.some.inj hcall)).2 hfence).elim
  | aborted current uid owner' expected' now habort _ hcontrol' hfence =>
    subst habort
    exact (hcurrent hcontrol' (Prod.mk.inj (Option.some.inj hcall)).2 hfence).elim
  | committed _ _ _ _ _ hcommit =>
    subst hcommit
    cases hcall

/-- No later state lets an effective call take effect again. -/
theorem effective_never_again {call : WriterCall} (h : call.effective s = true)
    (between : List WriterCall) :
    (writerStep (writers.state (writerStep s call).1 between) call).1 =
      writers.state (writerStep s call).1 between := by
  obtain ⟨owner, expected, hcall, hpassed⟩ := passed_of_effective h
  have hlater : Passed expected (writers.state (writerStep s call).1 between) :=
    Machine.invariant (fun _ next ht => ht.step next) hpassed between
  exact hlater.eq_of_presents hcall

/-- An effective call returns the control state it stored. -/
theorem effective_reply {call : WriterCall} (h : call.effective s = true) :
    ∃ control, (writerStep s call).1.control = some control ∧
      (writerStep s call).2 = .transition (.ok control) := by
  have hstored {result : TransitionM TransitionTxn} {txn : TransitionTxn} (hok : result = .ok txn)
      (hsame : txn.control = some txn.reply) :
      ∃ control, (runTransition s result).1.control = some control ∧
        (runTransition s result).2 = .transition (.ok control) := by
    rw [hok]
    exact ⟨txn.reply, by simp [runTransition, WriterStore.write, hsame], rfl⟩
  have hwrite : ∃ txn, call.txn s = some (.ok txn) ∧ txn.control.isSome = true := by
    unfold WriterCall.effective at h
    split at h
    next txn htxn => exact ⟨txn, htxn, h⟩
    next => cases h
  obtain ⟨txn, htxn, hwrites⟩ := hwrite
  cases call with
  | begin uid target owner expected now =>
    have hbegin := Option.some.inj htxn
    rcases beginWriterTransition_ok hbegin with ⟨current, -, rfl⟩ |
      ⟨current, -, -, -, -, -, -, -, rfl⟩
    · cases hwrites
    · exact hstored hbegin rfl
  | complete uid owner expected receipt now =>
    have hcomplete := Option.some.inj htxn
    rcases completeWriterTransition_ok hcomplete with ⟨current, -, rfl⟩ |
      ⟨current, -, -, -, -, -, -, -, rfl⟩
    · cases hwrites
    · exact hstored hcomplete rfl
  | abort uid owner expected now =>
    have habort := Option.some.inj htxn
    rcases abortWriterTransition_ok habort with ⟨current, -, rfl⟩ |
      ⟨current, -, -, -, -, -, -, rfl⟩
    · cases hwrites
    · exact hstored habort rfl
  | admission => cases htxn

end Replay

theorem admitWriter_open {s : WriterStore} {control : MemoryControlState}
    (hcontrol : s.control = some control) (hopen : control.writerMode.transitioning = true)
    {requested : MemoryWriterClass} (hwriter : requested ≠ .ledger) (allow : Bool)
    (commit : Option (String × ℤ)) :
    (writerStep s (.admission requested allow commit)).1 = s := by
  have hrefused := requireWriterAdmitted_transitioning hopen hwriter allow
  simp only [writerStep, admitWriter, hcontrol]
  cases hadmitted : requireWriterAdmitted control requested allow with
  | error message => rfl
  | ok u => exact absurd hadmitted hrefused

/-- Writer transitions are safe in every run, from any documents. Epoch and source generation
move on an effective begin only; another stable mode is reached only by a begin and a later
complete under the exact fence that begin opened; an open transition admits no user or
compatibility write and ignores every call that does not own it; an effective call never takes
effect twice, and returns its control state again while that is still the current one. -/
theorem writerTransitions (s : WriterStore) (calls : List WriterCall) :
    let t := writers.state s calls
    (∀ call old, t.control = some old →
      ∃ new, (writerStep t call).1.control = some new ∧
        new.writerEpoch =
          old.writerEpoch + (if call.isBegin && call.effective t then 1 else 0) ∧
        new.sourceGeneration =
          old.sourceGeneration + (if call.isBegin && call.effective t then 1 else 0)) ∧
    (∀ first last, s.control = some first → t.control = some last →
      first.writerMode.transitioning = false → last.writerMode.transitioning = false →
      last.writerMode ≠ first.writerMode →
      ∃ before complete after control opening between opened,
        calls = before ++ opening :: between ++ complete :: after ∧
        opening.isBegin = true ∧ opening.effective (writers.state s before) = true ∧
        (writers.state s (before ++ [opening])).control = some opened ∧
        completes (writers.state s (before ++ opening :: between)) complete ∧
        (writers.state s (before ++ opening :: between)).control = some control ∧
        opened.transition = control.transition) ∧
    (∀ control requested allow commit, t.control = some control →
      control.writerMode.transitioning = true → requested ≠ .ledger →
      requireWriterAdmitted control requested allow ≠ .ok () ∧
        (writerStep t (.admission requested allow commit)).1 = t) ∧
    (∀ call control owner expected, t.control = some control →
      control.writerMode.transitioning = true → call.presents = some (owner, expected) →
      control.writerTransitionOwner ≠ some owner ∨
        MemoryWriterFence.fromControl control ≠ .fromControl expected →
      (writerStep t call).1 = t) ∧
    (∀ call between, call.effective t = true →
      let next := (writerStep t call).1
      let later := writers.state next between
      (writerStep later call).1 = later ∧
        (later = next → ∃ control, later.control = some control ∧
          (writerStep later call).2 = .transition (.ok control))) := by
  intro t
  refine ⟨fun call old hold => (writerStep_effect t call).epochs hold, ?_, ?_, ?_, ?_⟩
  · intro first last hfirst hlast hfirstStable hlastStable hne
    have hprior : priorStableMode last.writerMode ≠ priorStableMode first.writerMode := by
      rw [priorStableMode_eq_self hlastStable, priorStableMode_eq_self hfirstStable]
      exact hne
    obtain ⟨whole, complete, after, rfl, hcompletes⟩ :=
      completes_of_priorStableMode_ne calls hfirst hlast hprior
    obtain ⟨-, -, -, -, -, control, -, -, hcontrol, hopen, -⟩ := id hcompletes
    obtain ⟨before, opening, between, opened, rfl, hbegin, heffective, hopened, hsame⟩ :=
      begin_of_open whole hfirst hfirstStable hcontrol hopen
    exact ⟨before, complete, after, control, opening, between, opened, rfl, hbegin, heffective,
      hopened, hcompletes, hcontrol, hsame⟩
  · intro control requested allow commit hcontrol hopen hwriter
    exact ⟨requireWriterAdmitted_transitioning hopen hwriter allow,
      admitWriter_open hcontrol hopen hwriter allow commit⟩
  · intro call control owner expected hcontrol hopen hcall hforeign
    exact (writerStep_effect t call).eq_of_not_owner hcontrol hopen hcall hforeign
  · intro call between heffective next later
    refine ⟨effective_never_again heffective between, fun hsame => ?_⟩
    obtain ⟨control, hcontrol, hreply⟩ := effective_reply heffective
    rw [hsame]
    refine ⟨control, hcontrol, ?_⟩
    rw [effective_replay heffective]
    exact hreply

/-- A begin repeated after its transition was completed conflicts instead of returning. -/
theorem not_replayReturns :
    ¬ ∀ (s : WriterStore) (call : WriterCall) (between : List WriterCall),
      call.effective s = true → ∃ control,
        (writerStep (writers.state (writerStep s call).1 between) call).2 =
          .transition (.ok control) := by
  intro hreturns
  let stable : MemoryControlState :=
    { uid := "u", headCommitId := "c0", accountGeneration := 0, sourceGeneration := 0,
      updatedAt := 0 }
  let opened := stable.begun .ledger "o" 1
  let receipt : CompleteUnionProofReceipt :=
    { uid := "u", transitionOwner := "o", writerMode := .transitioningToLedger,
      targetMode := .ledger, writerEpoch := 1, headCommitId := "c0", accountGeneration := 0,
      sourceGeneration := 1, commitSequence := 0,
      completeUnionDigest := String.ofList (List.replicate 64 'a'), completeUnionCount := 0,
      generatedAt := 2 }
  let call : WriterCall := .begin "u" .ledger "o" stable 1
  let between : List WriterCall := [.complete "u" "o" opened receipt 2]
  have heffective : call.effective ⟨some stable, none⟩ = true := by decide +kernel
  obtain ⟨control, hreply⟩ := hreturns ⟨some stable, none⟩ call between heffective
  have hconflict : (writerStep
      (writers.state (writerStep ⟨some stable, none⟩ call).1 between) call).2 =
      .transition (.error (.conflict .staleFence "writer transition fence is stale")) := by
    decide +kernel
  rw [hconflict] at hreply
  cases hreply

end Omi.Memory
