import Mathlib
import Omi.Frames.Lifecycle

/-! The objects that were uploaded for one request: each stays referenced or receipted until the
permanent copy replaces it. -/
namespace Omi.Frames
open Omi.Foundation

variable {owner : String} {a next : FrameAccount} {requestId object : String} {row : FrameRequest}

/-- The row has the object, under its id as the validators store it. -/
def FrameAccount.References (a : FrameAccount) (requestId object : String) : Prop :=
  ∃ row, a.requests.get requestId = some row ∧ row.storageId = some (strip object)

/-- The object is the row's, or has a cleanup receipt. -/
def FrameAccount.Knows (a : FrameAccount) (requestId object : String) : Prop :=
  a.References requestId object ∨ (a.receipts.get object).isSome = true

/-- The row had the object, and the attach left it the permanent copy. -/
def ReplacedBy (requestId object : String) (before : FrameAccount) (action : FrameAction owner)
    (after : FrameAccount) : Prop :=
  ∃ caller call, action = .attach caller call ∧ before.References requestId object ∧
    after.References requestId call.permanentStorageId

/-- The object of a successful upload, or of a reconciliation. -/
def passed : FrameAction owner × Bool → Option String
  | (.transition _ call, true) => if call.nextState = .uploaded then call.storageId else none
  | (.reconcile _ call, _) => some call.storageId
  | _ => none

/-! ### Receipts -/

theorem isSome_deleteReceipt {storageId : String} (hne : object ≠ storageId)
    (h : (a.receipts.get object).isSome = true) :
    ((a.deleteReceipt storageId).receipts.get object).isSome = true := by
  simpa [FrameAccount.deleteReceipt, hne] using h

theorem isSome_setReceipt {receipt : Receipt}
    (h : object = receipt.storageId ∨ (a.receipts.get object).isSome = true) :
    ((a.setReceipt receipt).receipts.get object).isSome = true := by
  unfold FrameAccount.setReceipt
  by_cases hsame : object = receipt.storageId
  · cases a.receipts.get receipt.storageId <;> simp [hsame]
  · have hold := h.resolve_left hsame
    cases a.receipts.get receipt.storageId <;> simpa [hsame] using hold

theorem isSome_ensureReceipt {call : ReconcileCall}
    (h : object = call.storageId ∨ (a.receipts.get object).isSome = true) :
    ((a.ensureReceipt requestId call).receipts.get object).isSome = true := by
  unfold FrameAccount.ensureReceipt
  cases hreceipt : a.receipts.get call.storageId with
  | none => exact isSome_setReceipt h
  | some receipt =>
    rcases h with rfl | hold
    · simp [hreceipt]
    · exact hold

/-! ### One operation -/

theorem strip_eq_of_stored (hvalid : row.Valid) (hstorage : row.storageId = some object) :
    strip object = object := by
  have hnormal : stripOptional row.storageId = row.storageId :=
    congrArg FrameRequest.storageId hvalid.normalise_eq
  rw [hstorage] at hnormal
  by_cases hblank : strip object = ""
  · simp [stripOptional, hblank] at hnormal
  · simpa [stripOptional, hblank] using hnormal

/-- A candidate with the row's own object leaves it. -/
theorem storageId_updatedBy {candidate : FrameRequest}
    (hstorage : candidate.storageId = row.storageId) :
    (row.updatedBy candidate).storageId = row.storageId := by
  show (candidate.storageId <|> row.storageId) = row.storageId
  rw [hstorage]
  cases row.storageId <;> rfl

theorem claimed_of_uploaded {state : FrameRequestState} (h : .uploaded ∈ allowed state) :
    state = .claimed := by
  cases state <;> simp [allowed] at h ⊢

/-- Writing a candidate with the row's own object keeps what is known. -/
theorem FrameAccount.Knows.update {candidate : FrameRequest} (h : a.Knows requestId object)
    (hrow : a.requests.get requestId = some row) (hstorage : candidate.storageId = row.storageId) :
    (a.update requestId candidate).Knows requestId object := by
  rcases h with ⟨stored, hstored, hobject⟩ | hreceipt
  · obtain rfl : row = stored := Option.some.inj (hrow.symm.trans hstored)
    exact .inl ⟨_, update_requests hrow, (storageId_updatedBy hstorage).trans hobject⟩
  · exact .inr (by rwa [update_receipts])

theorem FrameAccount.Knows.ensureReceipt {call : ReconcileCall} (h : a.Knows requestId object) :
    (a.ensureReceipt requestId call).Knows requestId object := by
  rcases h with ⟨row, hrow, hobject⟩ | hreceipt
  · exact .inl ⟨row, by rw [ensureReceipt_requests, hrow], hobject⟩
  · exact .inr (isSome_ensureReceipt (.inr hreceipt))

/-- An attached row has the permanent copy. -/
theorem references_attached {call : AttachCall} {candidate : FrameRequest}
    {written : FrameAccount} (hpermanent : isBlank call.permanentStorageId = false)
    (hparse : (attachPayload row call).parse = .ok candidate)
    (hwritten : written.requests.get requestId = some row) :
    ((written.update requestId candidate).deleteReceipt call.permanentStorageId).References
      requestId call.permanentStorageId := by
  have hname : strip call.permanentStorageId ≠ "" := by
    rw [ne_eq, strip_eq_empty_iff, hpermanent]
    exact Bool.false_ne_true
  have hstorage : candidate.storageId = some (strip call.permanentStorageId) := by
    rw [parse_eq_normalise hparse]
    exact if_neg hname
  refine ⟨row.updatedBy candidate, update_requests hwritten, ?_⟩
  show (candidate.storageId <|> row.storageId) = some (strip call.permanentStorageId)
  rw [hstorage]
  rfl

/-- What the queue knows it goes on knowing, or the permanent copy takes its place. -/
theorem Acts.knows {action : FrameAction owner} (h : Acts a requestId row action next)
    (hrow : a.requests.get requestId = some row) (hsound : row.Sound)
    (hknows : a.Knows requestId object) :
    next.Knows requestId object ∨ ReplacedBy requestId object a action next := by
  have hnormal : stripOptional row.storageId = row.storageId :=
    congrArg FrameRequest.storageId hsound.valid.normalise_eq
  cases h with
  | transitioned caller call hallowed hreason hparse =>
    refine .inl ?_
    have hcandidate := parse_eq_normalise hparse
    by_cases hupload : call.nextState = .uploaded
    · -- a claimed row has no object yet
      rw [hupload] at hallowed
      have hempty := hsound.unstored (.inr (claimed_of_uploaded hallowed))
      refine .inr ?_
      rw [update_receipts]
      refine hknows.resolve_left ?_
      rintro ⟨stored, hstored, hobject⟩
      obtain rfl : row = stored := Option.some.inj (hrow.symm.trans hstored)
      rw [hempty] at hobject
      cases hobject
    · refine hknows.update hrow ?_
      rw [hcandidate]
      show stripOptional (transitionPayload row call).storageId = row.storageId
      rw [transitionPayload_storageId, if_neg hupload, hnormal]
  | reattached caller call hstorage =>
    refine .inl ?_
    rcases hknows with hreferences | hreceipt
    · exact .inl hreferences
    · by_cases hsame : object = call.permanentStorageId
      · refine .inl ⟨row, hrow, ?_⟩
        rw [hsame, strip_eq_of_stored hsound.valid hstorage, hstorage]
      · exact .inr (isSome_deleteReceipt hsame hreceipt)
  | attached caller call hstate hpermanent hconversation hbudget hphotos hparse hrequests
      hreceipts =>
    have hreferences := references_attached hpermanent hparse
      (show _ = some row by rw [hrequests, hrow])
    rcases hknows with hold | hreceipt
    · exact .inr ⟨caller, call, rfl, hold, hreferences⟩
    · refine .inl ?_
      by_cases hsame : object = call.permanentStorageId
      · rw [hsame]
        exact .inl hreferences
      · refine .inr (isSome_deleteReceipt hsame ?_)
        rw [update_receipts, hreceipts]
        exact hreceipt
  | unexpired now => exact .inl hknows
  | pruned now hopen hparse =>
    refine .inl (hknows.update hrow ?_)
    rw [parse_eq_normalise hparse]
    exact hnormal
  | known caller call => exact .inl hknows
  | receipted caller call => exact .inl hknows.ensureReceipt
  | failed caller call hopen hstored hparse =>
    refine .inl (hknows.ensureReceipt.update (by rw [ensureReceipt_requests, hrow]) ?_)
    rw [parse_eq_normalise hparse]
    exact hnormal

/-- An object that was passed is known at once. -/
theorem Acts.knows_passed {action : FrameAction owner} (h : Acts a requestId row action next)
    (hrow : a.requests.get requestId = some row) (hsound : row.Sound)
    (hpassed : passed (action, true) = some object) : next.Knows requestId object := by
  cases h with
  | transitioned caller call hallowed hreason hparse =>
    have hupload : call.nextState = .uploaded ∧ call.storageId = some object := by
      simpa [passed] using hpassed
    have hvalid := FrameRequest.valid_of_parse hparse
    rw [parse_eq_normalise hparse] at hvalid
    obtain ⟨-, -, hlifecycle⟩ := FrameRequest.valid_iff.mp hvalid
    have hstate : (transitionPayload row call).normalise.state = .uploaded :=
      (transitionPayload_state row call).trans hupload.1
    have hstored := (FrameRequest.lifecycleValid_iff.mp hlifecycle).2.2.2 hstate
    have hstorage : (transitionPayload row call).normalise.storageId =
        stripOptional (some object) := by
      show stripOptional (transitionPayload row call).storageId = stripOptional (some object)
      rw [transitionPayload_storageId, if_pos hupload.1, hupload.2]
    refine .inl ⟨_, update_requests hrow, ?_⟩
    rw [hstorage] at hstored
    rw [parse_eq_normalise hparse]
    show ((transitionPayload row call).normalise.storageId <|> row.storageId) = _
    rw [hstorage]
    by_cases hblank : strip object = ""
    · simp [stripOptional, hblank, truthy] at hstored
    · simp [stripOptional, hblank]
  | reattached | attached | unexpired | pruned => cases hpassed
  | known caller call hstorage =>
    obtain rfl : call.storageId = object := Option.some.inj hpassed
    exact .inl ⟨row, hrow, by rw [strip_eq_of_stored hsound.valid hstorage, hstorage]⟩
  | receipted caller call =>
    obtain rfl : call.storageId = object := Option.some.inj hpassed
    exact .inr (isSome_ensureReceipt (.inl rfl))
  | failed caller call hopen hstored hparse =>
    obtain rfl : call.storageId = object := Option.some.inj hpassed
    refine .inr ?_
    rw [update_receipts]
    exact isSome_ensureReceipt (.inl rfl)

/-! ### Every run -/

/-- An operation raises, and then passed no object, or it returned. -/
theorem frameRequest_step (action : FrameAction owner)
    (hrow : a.requests.get requestId = some row) (hsound : row.Sound) :
    (((frameRequest owner requestId).step a action).1 = a ∧
      passed (action, ((frameRequest owner requestId).step a action).2) = none) ∨
    (((frameRequest owner requestId).step a action).2 = true ∧
      Acts a requestId row action ((frameRequest owner requestId).step a action).1) := by
  cases hact : a.act requestId action with
  | ok next =>
    have hstep : (frameRequest owner requestId).step a action = (next, true) := by
      simp only [frameRequest, hact]
    rw [hstep]
    exact .inr ⟨rfl, act_acts hrow hsound.valid hact⟩
  | error error =>
    have hstep : (frameRequest owner requestId).step a action = (a, false) := by
      simp only [frameRequest, hact]
    rw [hstep]
    refine .inl ⟨rfl, ?_⟩
    cases action with
    | reconcile caller call =>
      obtain ⟨next, hreturns⟩ := reconcile_returns caller call hrow hsound.valid
      exact absurd (hact.symm.trans hreturns) (by simp)
    | transition | attach | prune => rfl

/-- The row that an operation leaves. -/
theorem frameRequest_sound (action : FrameAction owner)
    (hrow : a.requests.get requestId = some row) (hsound : row.Sound) :
    ∃ after, ((frameRequest owner requestId).step a action).1.requests.get requestId = some after ∧
      after.Sound ∧ (after.state = row.state ∨ after.state ∈ allowed row.state) := by
  rcases frameRequest_step action hrow hsound with ⟨hsame, -⟩ | ⟨-, hacts⟩
  · exact ⟨row, by rw [hsame, hrow], hsound, .inl rfl⟩
  · exact hacts.sound hrow hsound

/-- After every run the row is sound, and each object that was passed is known or was replaced. -/
theorem frameRequest_run {start : FrameAccount} (hrow : start.requests.get requestId = some row)
    (hsound : row.Sound) (actions : List (FrameAction owner)) :
    (∃ after, ((frameRequest owner requestId).state start actions).requests.get requestId =
      some after ∧ after.Sound) ∧
    ∀ object ∈ ((frameRequest owner requestId).trace start actions).filterMap passed,
      ((frameRequest owner requestId).state start actions).Knows requestId object ∨
        ∃ before action rest, actions = before ++ action :: rest ∧
          ReplacedBy requestId object ((frameRequest owner requestId).state start before) action
            ((frameRequest owner requestId).state start (before ++ [action])) := by
  induction actions using List.reverseRecOn with
  | nil => exact ⟨⟨row, hrow, hsound⟩, fun object hobject => absurd hobject List.not_mem_nil⟩
  | append_singleton actions action ih =>
    obtain ⟨⟨current, hcurrent, hsoundCurrent⟩, hobjects⟩ := ih
    have hstate : (frameRequest owner requestId).state start (actions ++ [action]) =
        ((frameRequest owner requestId).step
          ((frameRequest owner requestId).state start actions) action).1 := by
      rw [Machine.state_append]
      rfl
    rw [hstate]
    refine ⟨?_, fun object hobject => ?_⟩
    · obtain ⟨after, hafter, hsoundAfter, -⟩ := frameRequest_sound action hcurrent hsoundCurrent
      exact ⟨after, hafter, hsoundAfter⟩
    · rw [Machine.trace_append, List.filterMap_append, List.mem_append] at hobject
      have hstep := frameRequest_step action hcurrent hsoundCurrent
      rcases hobject with hold | hnew
      · rcases hobjects object hold with hknows | ⟨before, attach, rest, rfl, hreplaced⟩
        · rcases hstep with ⟨hsame, -⟩ | ⟨-, hacts⟩
          · exact .inl (by rwa [hsame])
          · refine (hacts.knows hcurrent hsoundCurrent hknows).imp id fun hreplaced => ?_
            exact ⟨actions, action, [], rfl, by rwa [hstate]⟩
        · exact .inr ⟨before, attach, rest ++ [action], by simp, hreplaced⟩
      · obtain ⟨event, hevent, hpassed⟩ := List.mem_filterMap.mp hnew
        obtain rfl := List.mem_singleton.mp hevent
        rcases hstep with ⟨-, hnone⟩ | ⟨hreturned, hacts⟩
        · rw [hnone] at hpassed
          cases hpassed
        · rw [hreturned] at hpassed
          exact .inl (hacts.knows_passed hcurrent hsoundCurrent hpassed)

/-! ### Requests that were enqueued -/

theorem newRequest_ok {digest : String → String} {uid : String} {call : EnqueueCall}
    {attemptNumber expiresAt : ℤ} {created : FrameRequest}
    (h : newRequest digest uid call attemptNumber expiresAt = .ok created) :
    created.attemptNumber = attemptNumber ∧ created.Sound := by
  have hvalid := FrameRequest.valid_of_parse h
  have hcreated := parse_eq_normalise h
  refine ⟨by rw [hcreated]; rfl, hvalid, fun _ => ?_, fun _ => ?_⟩
  · rw [hcreated]
    rfl
  · rw [hcreated]
    rfl

/-- The row that an enqueue creates is sound. -/
theorem enqueue_created {digest : String → String} {uid : String} {call : EnqueueCall}
    {start : FrameAccount} {created : FrameRequest}
    (h : a.enqueue digest uid call = .ok ((created, false), start)) :
    start.requests.get (newRequestId digest call created.attemptNumber) = some created ∧
      created.Sound := by
  obtain ⟨_, -, h⟩ := bind_eq_ok_iff.mp h
  obtain ⟨_, -, h⟩ := bind_eq_ok_iff.mp h
  obtain ⟨expiresAt, -, h⟩ := bind_eq_ok_iff.mp h
  obtain ⟨attempts, -, h⟩ := bind_eq_ok_iff.mp h
  split at h
  next existing hfound => cases h
  next hnone =>
    obtain ⟨⟨request, account⟩, hcreate, h⟩ := bind_eq_ok_iff.mp h
    cases h
    obtain ⟨_, -, hcreate⟩ := bind_eq_ok_iff.mp hcreate
    obtain ⟨request', hrequest, hcreate⟩ := bind_eq_ok_iff.mp hcreate
    obtain ⟨_, -, hcreate⟩ := bind_eq_ok_iff.mp hcreate
    obtain ⟨_, -, hcreate⟩ := bind_eq_ok_iff.mp hcreate
    obtain ⟨_, -, hcreate⟩ := bind_eq_ok_iff.mp hcreate
    cases hcreate
    obtain ⟨hattempt, hsound⟩ := newRequest_ok hrequest
    rw [hattempt]
    exact ⟨by simp, hsound⟩

/-- In every run of operations on an enqueued request the row stays valid and moves along the
allowed transitions, out of no terminal state; and each object that was passed is the row's, or
has a cleanup receipt, or was replaced by the permanent copy. -/
theorem frameRequestLifecycle {digest : String → String} {uid : String} {call : EnqueueCall}
    {start : FrameAccount} {created : FrameRequest}
    (hcreated : a.enqueue digest uid call = .ok ((created, false), start))
    (actions : List (FrameAction (strip uid))) :
    let requestId := newRequestId digest call created.attemptNumber
    let run := frameRequest (strip uid) requestId
    (∀ action, ∃ before after,
      (run.state start actions).requests.get requestId = some before ∧
      (run.step (run.state start actions) action).1.requests.get requestId = some after ∧
      before.Valid ∧ after.Valid ∧
      (after.state = before.state ∨ after.state ∈ allowed before.state) ∧
      (before.state.terminal = true → after.state = before.state)) ∧
    ∀ object ∈ (run.trace start actions).filterMap passed,
      (run.state start actions).Knows requestId object ∨
        ∃ before action rest, actions = before ++ action :: rest ∧
          ReplacedBy requestId object (run.state start before) action
            (run.state start (before ++ [action])) := by
  intro requestId run
  obtain ⟨hrow, hsound⟩ := enqueue_created hcreated
  obtain ⟨⟨before, hbefore, hsoundBefore⟩, hobjects⟩ := frameRequest_run hrow hsound actions
  refine ⟨fun action => ?_, hobjects⟩
  obtain ⟨after, hafter, hsoundAfter, hmoves⟩ := frameRequest_sound action hbefore hsoundBefore
  refine ⟨before, after, hbefore, hafter, hsoundBefore.valid, hsoundAfter.valid, hmoves,
    fun hterminal => ?_⟩
  rw [allowed_of_terminal hterminal] at hmoves
  exact hmoves.resolve_right List.not_mem_nil

def enqueuedCall : EnqueueCall where
  deviceId := "mac"
  dedupeKey := "intent"
  conversationId := some "c"
  now := 0

def enqueuedRow : FrameRequest where
  requestId := "frame-d"
  uid := "u"
  deviceId := "mac"
  dedupeKey := "d"
  conversationId := some "c"
  createdAt := 0
  expiresAt := seconds frameRequestMaxTtlSeconds

def enqueuedAccount : FrameAccount where
  requests := [("frame-d", enqueuedRow)]
  conversations := [("c", {})]

theorem strip_u : strip "u" = strip "u" := rfl

/-- The frame is claimed, uploaded and attached to its conversation. -/
def promotion : List (FrameAction (strip "u")) :=
  [.transition ⟨"u", strip_u⟩
      { nextState := .claimed, deviceId := "mac", accountGeneration := 0, now := 1 },
    .transition ⟨"u", strip_u⟩
      { nextState := .uploaded
        deviceId := "mac"
        accountGeneration := 0
        storageId := some "temporary-1"
        byteCount := 1000
        contentType := some "image/jpeg"
        now := 2 },
    .attach ⟨"u", strip_u⟩
      { deviceId := "mac"
        accountGeneration := 0
        conversationId := "c"
        permanentStorageId := "permanent-d"
        now := 3 }]

theorem frameRequestLifecycle_promotion :
    let run := frameRequest (strip "u") "frame-d"
    (run.trace enqueuedAccount promotion).filterMap passed = ["temporary-1"] ∧
      ((run.state enqueuedAccount promotion).Knows "frame-d" "temporary-1" ∨
        ∃ before action rest, promotion = before ++ action :: rest ∧
          ReplacedBy "frame-d" "temporary-1" (run.state enqueuedAccount before) action
            (run.state enqueuedAccount (before ++ [action]))) := by
  intro run
  have hcreated : ({ conversations := [("c", {})] } : FrameAccount).enqueue (fun _ => "d") "u"
      enqueuedCall = .ok ((enqueuedRow, false), enqueuedAccount) := rfl
  have hpassed : (run.trace enqueuedAccount promotion).filterMap passed = ["temporary-1"] := rfl
  have hobjects := (frameRequestLifecycle hcreated promotion).2
  refine ⟨hpassed, hobjects "temporary-1" ?_⟩
  show "temporary-1" ∈ (run.trace enqueuedAccount promotion).filterMap passed
  rw [hpassed]
  exact List.mem_cons_self

end Omi.Frames
