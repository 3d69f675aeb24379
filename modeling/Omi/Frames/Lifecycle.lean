import Mathlib
import Omi.Foundation.Machine
import Omi.Frames.Queue

/-! The life of one frame request: its row stays valid and only moves forward, and the objects
uploaded for it stay known. -/
namespace Omi.Frames
open Omi.Foundation

/-- A uid as a caller gives it, whose documents are the owner's. -/
structure Caller (owner : String) where
  uid : String
  addresses : strip uid = owner

inductive FrameAction (owner : String) where
  | transition (caller : Caller owner) (call : TransitionCall)
  | attach (caller : Caller owner) (call : AttachCall)
  | prune (now : ℤ)
  | reconcile (caller : Caller owner) (call : ReconcileCall)

variable {owner : String}

def FrameAccount.act (a : FrameAccount) (requestId : String) :
    FrameAction owner → Except FrameError FrameAccount
  | .transition caller call => (a.transition caller.uid requestId call).map Prod.snd
  | .attach caller call => (a.attach caller.uid requestId call).map Prod.snd
  | .prune now => (a.pruneOne requestId now).map Prod.snd
  | .reconcile caller call => (a.reconcile caller.uid requestId call).map Prod.snd

/-- The operations on one request. Each answers whether it returned; one that raised has written
nothing. -/
def frameRequest (owner requestId : String) : Machine FrameAccount (FrameAction owner) Bool where
  step a action :=
    match a.act requestId action with
    | .ok next => (next, true)
    | .error _ => (a, false)

/-! ### The row -/

/-- What holds of a row that was enqueued: it is valid, an active one has no reason to have ended,
and one that waits for its upload has no object. -/
structure FrameRequest.Sound (row : FrameRequest) : Prop where
  valid : row.Valid
  reason : row.state.terminal = false → row.terminalReason = none
  unstored : row.state = .requested ∨ row.state = .claimed → row.storageId = none

theorem FrameRequest.Valid.normalise_eq {row : FrameRequest} (h : row.Valid) :
    row.normalise = row :=
  (FrameRequest.valid_iff.mp h).1

theorem FrameRequest.Valid.parse {row : FrameRequest} (h : row.Valid) : row.parse = .ok row := h

theorem stripOptional_orElse {first second : Option String} (hfirst : stripOptional first = first)
    (hsecond : stripOptional second = second) :
    stripOptional (first <|> second) = (first <|> second) := by
  cases first with
  | none => exact hsecond
  | some text => exact hfirst

theorem all_orElse {condition : String → Bool} {first second : Option String}
    (hfirst : first.all condition = true) (hsecond : second.all condition = true) :
    (first <|> second).all condition = true := by
  cases first with
  | none => exact hsecond
  | some text => exact hfirst

/-- The texts of a normal row are stripped. -/
theorem FrameRequest.updatedBy_normal {row candidate : FrameRequest} (hrow : row.normalise = row)
    (hcandidate : candidate.normalise = candidate) :
    (row.updatedBy candidate).normalise = row.updatedBy candidate := by
  have hid : strip candidate.requestId = candidate.requestId :=
    congrArg FrameRequest.requestId hcandidate
  have huid : strip candidate.uid = candidate.uid := congrArg FrameRequest.uid hcandidate
  have hdevice : strip candidate.deviceId = candidate.deviceId :=
    congrArg FrameRequest.deviceId hcandidate
  have hdedupe : strip candidate.dedupeKey = candidate.dedupeKey :=
    congrArg FrameRequest.dedupeKey hcandidate
  have hconversation := stripOptional_orElse (congrArg FrameRequest.conversationId hcandidate)
    (congrArg FrameRequest.conversationId hrow)
  have hscreenshot := stripOptional_orElse (congrArg FrameRequest.screenshotId hcandidate)
    (congrArg FrameRequest.screenshotId hrow)
  have hterminal := stripOptional_orElse (congrArg FrameRequest.terminalReason hcandidate)
    (congrArg FrameRequest.terminalReason hrow)
  have hcontent := stripOptional_orElse (congrArg FrameRequest.contentType hcandidate)
    (congrArg FrameRequest.contentType hrow)
  have hstorage := stripOptional_orElse (congrArg FrameRequest.storageId hcandidate)
    (congrArg FrameRequest.storageId hrow)
  simp only [FrameRequest.normalise, FrameRequest.updatedBy, hid, huid, hdevice, hdedupe,
    hconversation, hscreenshot, hterminal, hcontent, hstorage]

theorem FrameRequest.updatedBy_fieldsValid {row candidate : FrameRequest}
    (hrow : row.fieldsValid = true) (hcandidate : candidate.fieldsValid = true) :
    (row.updatedBy candidate).fieldsValid = true := by
  simp only [FrameRequest.fieldsValid, optionalText, Bool.and_eq_true, and_assoc]
    at hrow hcandidate ⊢
  obtain ⟨-, -, -, -, -, -, -, -, hconversation, hscreenshot, hterminal, -, -, hcontent, hlength,
    hstorage, -⟩ := hrow
  obtain ⟨hid, hsegment, huid, hdevice, hgeneration, hdedupe, hwindow, hattempt, hconversation',
    hscreenshot', hterminal', hbytes, hbytes', hcontent', hlength', hstorage', hattempts⟩ :=
    hcandidate
  exact ⟨hid, hsegment, huid, hdevice, hgeneration, hdedupe, hwindow, hattempt,
    all_orElse hconversation' hconversation, all_orElse hscreenshot' hscreenshot,
    all_orElse hterminal' hterminal, hbytes, hbytes', all_orElse hcontent' hcontent,
    all_orElse hlength' hlength, all_orElse hstorage' hstorage, hattempts⟩

theorem FrameRequest.lifecycleValid_iff {row : FrameRequest} :
    row.lifecycleValid = true ↔
      row.createdAt ≤ row.expiresAt ∧
      (row.state = .attached → truthy row.conversationId = true ∧ row.expiresAt = row.createdAt ∧
        truthy row.terminalReason = false) ∧
      (row.state.terminal = true → row.state ≠ .attached → truthy row.terminalReason = true) ∧
      (row.state = .uploaded → truthy row.storageId = true) := by
  unfold FrameRequest.lifecycleValid
  cases row.state <;> simp [FrameRequestState.terminal, and_assoc]

theorem truthy_orElse {first second : Option String} (h : truthy first = true) :
    truthy (first <|> second) = true := by
  cases first with
  | none => cases h
  | some text => exact h

/-- A row written over a valid one is valid, where no reason is left on an attached row. -/
theorem FrameRequest.Valid.updatedBy {row candidate : FrameRequest} (hrow : row.Valid)
    (hcandidate : candidate.Valid)
    (hreason : candidate.state = .attached → row.terminalReason = none) :
    (row.updatedBy candidate).Valid := by
  obtain ⟨hnormal, hfields, -⟩ := FrameRequest.valid_iff.mp hrow
  obtain ⟨hnormal', hfields', hlifecycle⟩ := FrameRequest.valid_iff.mp hcandidate
  obtain ⟨hexpiry, hattached, hended, huploaded⟩ := FrameRequest.lifecycleValid_iff.mp hlifecycle
  refine FrameRequest.valid_iff.mpr ⟨FrameRequest.updatedBy_normal hnormal hnormal',
    FrameRequest.updatedBy_fieldsValid hfields hfields', ?_⟩
  refine FrameRequest.lifecycleValid_iff.mpr ⟨hexpiry, fun hstate => ?_, fun hstate hne => ?_,
    fun hstate => truthy_orElse (huploaded hstate)⟩
  · obtain ⟨hconversation, hlifetime, hunreasoned⟩ := hattached hstate
    refine ⟨truthy_orElse hconversation, hlifetime, ?_⟩
    show truthy (candidate.terminalReason <|> row.terminalReason) = false
    rw [hreason hstate]
    cases hterminal : candidate.terminalReason with
    | none => rfl
    | some text => rwa [hterminal] at hunreasoned
  · exact truthy_orElse (hended hstate hne)

/-! ### What an operation does -/

/-- What an operation that returned has done to an account whose row was valid. -/
inductive Acts (a : FrameAccount) (requestId : String) (row : FrameRequest) :
    FrameAction owner → FrameAccount → Prop
  | transitioned (caller : Caller owner) (call : TransitionCall) {candidate : FrameRequest}
    (hallowed : call.nextState ∈ allowed row.state)
    (hreason : call.nextState.terminal = false → truthy call.terminalReason = false)
    (hparse : (transitionPayload row call).parse = .ok candidate) :
    Acts a requestId row (.transition caller call) (a.update requestId candidate)
  | reattached (caller : Caller owner) (call : AttachCall)
    (hstorage : row.storageId = some call.permanentStorageId) :
    Acts a requestId row (.attach caller call) (a.deleteReceipt call.permanentStorageId)
  | attached (caller : Caller owner) (call : AttachCall) {candidate : FrameRequest}
    {written : FrameAccount} {conversation : Conversation} (hstate : row.state = .uploaded)
    (hpermanent : isBlank call.permanentStorageId = false)
    (hconversation : row.conversationId = some call.conversationId)
    (hbudget : a.checkAttachBudget requestId row call.conversationId = .ok ())
    (hphotos : a.photosWith requestId row conversation call = .ok written.photos)
    (hparse : (attachPayload row call).parse = .ok candidate)
    (hrequests : written.requests = a.requests) (hreceipts : written.receipts = a.receipts) :
    Acts a requestId row (.attach caller call)
      ((written.update requestId candidate).deleteReceipt call.permanentStorageId)
  | unexpired (now : ℤ) : Acts a requestId row (.prune now) a
  | pruned (now : ℤ) {candidate : FrameRequest} (hopen : row.state.terminal = false)
    (hparse : (prunePayload row now).parse = .ok candidate) :
    Acts a requestId row (.prune now) (a.update requestId candidate)
  | known (caller : Caller owner) (call : ReconcileCall)
    (hstorage : row.storageId = some call.storageId) :
    Acts a requestId row (.reconcile caller call) a
  | receipted (caller : Caller owner) (call : ReconcileCall) :
    Acts a requestId row (.reconcile caller call) (a.ensureReceipt requestId call)
  | failed (caller : Caller owner) (call : ReconcileCall) {candidate : FrameRequest}
    (hopen : row.state.terminal = false) (hstorage : truthy row.storageId = false)
    (hparse : (reconcilePayload row).parse = .ok candidate) :
    Acts a requestId row (.reconcile caller call)
      ((a.ensureReceipt requestId call).update requestId candidate)

section acts
variable {a next : FrameAccount} {requestId : String} {row : FrameRequest}

theorem read_eq (hrow : a.requests.get requestId = some row) (hvalid : row.Valid) :
    a.read requestId = .ok row := by
  simp only [FrameAccount.read, hrow]
  exact hvalid

theorem checkTransitionArguments_ok {call : TransitionCall} {u : Unit}
    (h : checkTransitionArguments row call = .ok u) (hactive : call.nextState.terminal = false) :
    truthy call.terminalReason = false := by
  obtain ⟨_, -, h⟩ := bind_eq_ok_iff.mp h
  obtain ⟨_, -, h⟩ := bind_eq_ok_iff.mp h
  obtain ⟨_, -, h⟩ := bind_eq_ok_iff.mp h
  obtain ⟨_, -, h⟩ := bind_eq_ok_iff.mp h
  obtain ⟨_, -, h⟩ := bind_eq_ok_iff.mp h
  obtain ⟨_, hreason, -⟩ := bind_eq_ok_iff.mp h
  simpa [check_eq_ok_iff, hactive] using hreason

theorem transition_acts {caller : Caller owner} {call : TransitionCall} {candidate : FrameRequest}
    (hrow : a.requests.get requestId = some row) (hvalid : row.Valid)
    (h : a.transition caller.uid requestId call = .ok (candidate, next)) :
    Acts a requestId row (.transition caller call) next := by
  obtain ⟨request, hread, h⟩ := bind_eq_ok_iff.mp h
  obtain rfl : row = request := Except.ok.inj ((read_eq hrow hvalid).symm.trans hread)
  obtain ⟨_, hvalidate, h⟩ := bind_eq_ok_iff.mp h
  obtain ⟨_, harguments, h⟩ := bind_eq_ok_iff.mp h
  obtain ⟨_, -, h⟩ := bind_eq_ok_iff.mp h
  obtain ⟨candidate', hparse, h⟩ := bind_eq_ok_iff.mp h
  cases h
  exact .transitioned caller call (validateTransition_ok hvalidate).2.2
    (checkTransitionArguments_ok harguments) hparse

theorem attach_acts {caller : Caller owner} {call : AttachCall} {candidate : FrameRequest}
    (hrow : a.requests.get requestId = some row) (hvalid : row.Valid)
    (h : a.attach caller.uid requestId call = .ok (candidate, next)) :
    Acts a requestId row (.attach caller call) next := by
  obtain ⟨_, hblank, h⟩ := bind_eq_ok_iff.mp h
  obtain ⟨request, hread, h⟩ := bind_eq_ok_iff.mp h
  obtain rfl : row = request := Except.ok.inj ((read_eq hrow hvalid).symm.trans hread)
  obtain ⟨_, -, h⟩ := bind_eq_ok_iff.mp h
  obtain ⟨_, hconversation, h⟩ := bind_eq_ok_iff.mp h
  rw [check_eq_ok_iff, decide_eq_true_eq] at hconversation
  have hpermanent : isBlank call.permanentStorageId = false := by
    rw [check_eq_ok_iff, Bool.and_eq_true] at hblank
    simpa using hblank.2
  cases hattached : decide (row.state = .attached) with
  | true =>
    rw [hattached, cond_true] at h
    obtain ⟨_, hstorage, h⟩ := bind_eq_ok_iff.mp h
    cases h
    rw [check_eq_ok_iff, decide_eq_true_eq] at hstorage
    exact .reattached caller call hstorage
  | false =>
    rw [hattached, cond_false] at h
    obtain ⟨_, hstate, h⟩ := bind_eq_ok_iff.mp h
    obtain ⟨conversation, -, h⟩ := bind_eq_ok_iff.mp h
    obtain ⟨_, hbudget, h⟩ := bind_eq_ok_iff.mp h
    obtain ⟨photos, hphotos, h⟩ := bind_eq_ok_iff.mp h
    obtain ⟨candidate', hparse, h⟩ := bind_eq_ok_iff.mp h
    cases h
    rw [check_eq_ok_iff, Bool.and_eq_true, decide_eq_true_eq] at hstate
    exact .attached caller call hstate.1 hpermanent hconversation hbudget hphotos hparse rfl rfl

theorem pruneOne_acts {now : ℤ} {pruned : Bool}
    (hrow : a.requests.get requestId = some row) (hvalid : row.Valid)
    (h : a.pruneOne requestId now = .ok (pruned, next)) :
    Acts a requestId row (.prune now : FrameAction owner) next := by
  simp only [FrameAccount.pruneOne, hrow] at h
  obtain ⟨request, hread, h⟩ := bind_eq_ok_iff.mp h
  obtain rfl : row = request := Except.ok.inj (hvalid.parse.symm.trans hread)
  cases hskip : decide (row.state = .attached) || !isExpired row now with
  | true =>
    rw [hskip, cond_true] at h
    cases h
    exact .unexpired now
  | false =>
    rw [hskip, cond_false] at h
    obtain ⟨candidate, hparse, h⟩ := bind_eq_ok_iff.mp h
    cases h
    have hexpired : isExpired row now = true := by simpa using (Bool.or_eq_false_iff.mp hskip).2
    exact .pruned now (active_of_isExpired hexpired) hparse

theorem reconcile_acts {caller : Caller owner} {call : ReconcileCall}
    {answer : Option FrameRequest}
    (hrow : a.requests.get requestId = some row) (hvalid : row.Valid)
    (h : a.reconcile caller.uid requestId call = .ok (answer, next)) :
    Acts a requestId row (.reconcile caller call) next := by
  simp only [FrameAccount.reconcile, hrow] at h
  obtain ⟨request, hread, h⟩ := bind_eq_ok_iff.mp h
  obtain rfl : row = request := Except.ok.inj (hvalid.parse.symm.trans hread)
  cases howned : !row.ownedBy caller.uid call.deviceId call.accountGeneration with
  | true =>
    rw [howned, cond_true] at h
    cases h
    exact .receipted caller call
  | false =>
    rw [howned, cond_false] at h
    cases hsame : decide (row.storageId = some call.storageId) with
    | true =>
      rw [hsame, cond_true] at h
      cases h
      exact .known caller call (decide_eq_true_eq.mp hsame)
    | false =>
      rw [hsame, cond_false] at h
      cases hclosed : row.state.terminal || truthy row.storageId with
      | true =>
        rw [hclosed, cond_true] at h
        cases h
        exact .receipted caller call
      | false =>
        rw [hclosed, cond_false] at h
        obtain ⟨candidate, hparse, h⟩ := bind_eq_ok_iff.mp h
        cases h
        obtain ⟨hopen, hstorage⟩ := Bool.or_eq_false_iff.mp hclosed
        exact .failed caller call hopen hstorage hparse

theorem exists_reply {α : Type} {result : Except FrameError (α × FrameAccount)}
    (h : result.map Prod.snd = .ok next) : ∃ reply, result = .ok (reply, next) := by
  cases result with
  | error error => cases h
  | ok reply =>
    cases h
    exact ⟨reply.1, rfl⟩

/-- Whatever operation returned did one of these. -/
theorem act_acts {action : FrameAction owner} (hrow : a.requests.get requestId = some row)
    (hvalid : row.Valid) (h : a.act requestId action = .ok next) :
    Acts a requestId row action next := by
  cases action with
  | transition caller call =>
    obtain ⟨_, htransition⟩ := exists_reply h
    exact transition_acts hrow hvalid htransition
  | attach caller call =>
    obtain ⟨_, hattach⟩ := exists_reply h
    exact attach_acts hrow hvalid hattach
  | prune now =>
    obtain ⟨_, hprune⟩ := exists_reply h
    exact pruneOne_acts hrow hvalid hprune
  | reconcile caller call =>
    obtain ⟨_, hreconcile⟩ := exists_reply h
    exact reconcile_acts hrow hvalid hreconcile

theorem reconcilePayload_valid (hvalid : row.Valid) : (reconcilePayload row).Valid := by
  obtain ⟨hnormal, hfields, hlifecycle⟩ := FrameRequest.valid_iff.mp hvalid
  have hexpiry := (FrameRequest.lifecycleValid_iff.mp hlifecycle).1
  have hreason : stripOptional (some "upload_commit_ambiguous") =
      some "upload_commit_ambiguous" := by decide
  refine FrameRequest.valid_iff.mpr ⟨?_, ?_, ?_⟩
  · have hparts : (reconcilePayload row).normalise =
        { row.normalise with
          state := .failed
          terminalReason := stripOptional (some "upload_commit_ambiguous") } := rfl
    rw [hparts, hnormal, hreason]
    rfl
  · simp only [FrameRequest.fieldsValid, Bool.and_eq_true, and_assoc] at hfields ⊢
    obtain ⟨hid, hsegment, huid, hdevice, hgeneration, hdedupe, hwindow, hattempt, hconversation,
      hscreenshot, -, hrest⟩ := hfields
    exact ⟨hid, hsegment, huid, hdevice, hgeneration, hdedupe, hwindow, hattempt, hconversation,
      hscreenshot, rfl, hrest⟩
  · refine FrameRequest.lifecycleValid_iff.mpr ⟨hexpiry, ?_, fun _ _ => rfl, ?_⟩
    · intro hstate
      cases hstate
    · intro hstate
      cases hstate

/-- A reconciliation of a valid row does not raise. -/
theorem reconcile_returns (caller : Caller owner) (call : ReconcileCall)
    (hrow : a.requests.get requestId = some row) (hvalid : row.Valid) :
    ∃ next, a.act requestId (.reconcile caller call) = .ok next := by
  have hcandidate := (reconcilePayload_valid hvalid).parse
  have hreturns : ∃ reply, a.reconcile caller.uid requestId call = .ok reply := by
    simp only [FrameAccount.reconcile, hrow, hvalid.parse, bind, Except.bind, hcandidate]
    cases !row.ownedBy caller.uid call.deviceId call.accountGeneration <;>
      cases decide (row.storageId = some call.storageId) <;>
        cases row.state.terminal || truthy row.storageId <;> exact ⟨_, rfl⟩
  obtain ⟨reply, hreply⟩ := hreturns
  exact ⟨reply.2, by rw [FrameAccount.act, hreply]; rfl⟩

/-! ### The row after an operation -/

@[simp] theorem update_receipts (a : FrameAccount) (requestId : String) (candidate : FrameRequest) :
    (a.update requestId candidate).receipts = a.receipts := by
  unfold FrameAccount.update
  cases a.requests.get requestId <;> rfl

theorem update_table {candidate : FrameRequest} (hrow : a.requests.get requestId = some row) :
    (a.update requestId candidate).requests =
      a.requests.set requestId (row.updatedBy candidate) := by
  simp [FrameAccount.update, hrow]

theorem update_requests {candidate : FrameRequest} (hrow : a.requests.get requestId = some row) :
    (a.update requestId candidate).requests.get requestId = some (row.updatedBy candidate) := by
  simp [update_table hrow]

@[simp] theorem deleteReceipt_requests (a : FrameAccount) (storageId : String) :
    (a.deleteReceipt storageId).requests = a.requests := rfl

@[simp] theorem setReceipt_requests (a : FrameAccount) (receipt : Receipt) :
    (a.setReceipt receipt).requests = a.requests := by
  unfold FrameAccount.setReceipt
  cases a.receipts.get receipt.storageId <;> rfl

@[simp] theorem ensureReceipt_requests (a : FrameAccount) (requestId : String)
    (call : ReconcileCall) : (a.ensureReceipt requestId call).requests = a.requests := by
  unfold FrameAccount.ensureReceipt
  cases a.receipts.get call.storageId <;> simp

theorem parse_eq_normalise {row candidate : FrameRequest} (h : row.parse = .ok candidate) :
    candidate = row.normalise :=
  (FrameRequest.parse_ok_iff.mp h).1

theorem stripOptional_of_not_truthy {value : Option String} (h : truthy value = false) :
    stripOptional value = none := by
  cases value with
  | none => rfl
  | some text =>
    have hempty : text = "" := by simpa [truthy] using h
    rw [hempty]
    rfl

@[simp] theorem transitionPayload_state (row : FrameRequest) (call : TransitionCall) :
    (transitionPayload row call).state = call.nextState := by
  unfold transitionPayload
  cases call.nextState <;> cases truthy row.storageId <;> rfl

@[simp] theorem transitionPayload_terminalReason (row : FrameRequest) (call : TransitionCall) :
    (transitionPayload row call).terminalReason = call.terminalReason := by
  unfold transitionPayload
  cases call.nextState <;> cases truthy row.storageId <;> rfl

/-- Only an upload names another object. -/
theorem transitionPayload_storageId (row : FrameRequest) (call : TransitionCall) :
    (transitionPayload row call).storageId =
      if call.nextState = .uploaded then call.storageId else row.storageId := by
  unfold transitionPayload
  cases call.nextState <;> cases truthy row.storageId <;> rfl

@[simp] theorem transitionPayload_requestId (row : FrameRequest) (call : TransitionCall) :
    (transitionPayload row call).requestId = row.requestId := by
  unfold transitionPayload
  cases call.nextState <;> cases truthy row.storageId <;> rfl

@[simp] theorem transitionPayload_conversationId (row : FrameRequest) (call : TransitionCall) :
    (transitionPayload row call).conversationId = row.conversationId := by
  unfold transitionPayload
  cases call.nextState <;> cases truthy row.storageId <;> rfl

/-- What a candidate written over a row keeps to. -/
structure Candidate (row candidate : FrameRequest) : Prop where
  valid : candidate.Valid
  requestId : candidate.requestId = row.requestId
  conversationId : candidate.conversationId = row.conversationId
  allowed : candidate.state ∈ allowed row.state
  reason : candidate.state.terminal = false → candidate.terminalReason = none
  unstored : candidate.state = .claimed → candidate.storageId = row.storageId

/-- A payload keeps the names of a valid row. -/
theorem kept_of_parse {payload candidate : FrameRequest} (hvalid : row.Valid)
    (hparse : payload.parse = .ok candidate) (hid : payload.requestId = row.requestId)
    (hconversation : payload.conversationId = row.conversationId) :
    candidate.requestId = row.requestId ∧ candidate.conversationId = row.conversationId := by
  have hcandidate := parse_eq_normalise hparse
  constructor
  · rw [hcandidate]
    show strip payload.requestId = row.requestId
    rw [hid]
    exact congrArg FrameRequest.requestId hvalid.normalise_eq
  · rw [hcandidate]
    show stripOptional payload.conversationId = row.conversationId
    rw [hconversation]
    exact congrArg FrameRequest.conversationId hvalid.normalise_eq

/-- A payload in a terminal state. -/
theorem Candidate.of_closed {payload candidate : FrameRequest} (hvalid : row.Valid)
    (hparse : payload.parse = .ok candidate) (hid : payload.requestId = row.requestId)
    (hconversation : payload.conversationId = row.conversationId)
    (hallowed : payload.state ∈ Frames.allowed row.state)
    (hclosed : payload.state.terminal = true) : Candidate row candidate := by
  have hstate : candidate.state = payload.state := by
    rw [parse_eq_normalise hparse]
    rfl
  obtain ⟨hcandidateId, hcandidateConversation⟩ := kept_of_parse hvalid hparse hid hconversation
  refine ⟨FrameRequest.valid_of_parse hparse, hcandidateId, hcandidateConversation,
    hstate ▸ hallowed, fun hactive => ?_, fun hclaimed => ?_⟩
  · rw [hstate, hclosed] at hactive
    cases hactive
  · rw [← hstate, hclaimed] at hclosed
    cases hclosed

theorem closes_of_open {state : FrameRequestState} (h : state.terminal = false) :
    .pruned ∈ allowed state ∧ .failed ∈ allowed state := by
  cases state <;> first | exact ⟨by decide, by decide⟩ | cases h

/-- An operation leaves the rows, or writes a candidate over its own. -/
theorem Acts.row_cases {action : FrameAction owner} (h : Acts a requestId row action next)
    (hrow : a.requests.get requestId = some row) (hvalid : row.Valid) :
    next.requests = a.requests ∨
      ∃ candidate, Candidate row candidate ∧
        next.requests = a.requests.set requestId (row.updatedBy candidate) := by
  cases h with
  | transitioned caller call hallowed hreason hparse =>
    refine .inr ⟨_, ?_, update_table hrow⟩
    have hcandidate := parse_eq_normalise hparse
    have hstate := transitionPayload_state row call
    obtain ⟨hid, hconversation⟩ := kept_of_parse hvalid hparse
      (transitionPayload_requestId row call) (transitionPayload_conversationId row call)
    refine ⟨FrameRequest.valid_of_parse hparse, hid, hconversation, ?_, fun hactive => ?_,
      fun hclaimed => ?_⟩
    · rw [hcandidate]
      exact hstate ▸ hallowed
    · rw [hcandidate] at hactive ⊢
      show stripOptional (transitionPayload row call).terminalReason = none
      rw [transitionPayload_terminalReason]
      exact stripOptional_of_not_truthy (hreason (hstate ▸ hactive))
    · rw [hcandidate] at hclaimed ⊢
      have hnext : call.nextState = .claimed := hstate.symm.trans hclaimed
      show stripOptional (transitionPayload row call).storageId = row.storageId
      rw [transitionPayload_storageId, if_neg (by rw [hnext]; decide)]
      exact congrArg FrameRequest.storageId hvalid.normalise_eq
  | reattached caller call => exact .inl rfl
  | attached caller call hstate hpermanent hconversation hbudget hphotos hparse hrequests =>
    refine .inr ⟨_, .of_closed hvalid hparse rfl rfl ?_ rfl, ?_⟩
    · rw [hstate]
      exact List.mem_cons_self
    rw [deleteReceipt_requests, update_table (by rw [hrequests, hrow]), hrequests]
  | unexpired now => exact .inl rfl
  | pruned now hopen hparse =>
    exact .inr ⟨_, .of_closed hvalid hparse rfl rfl (closes_of_open hopen).1 rfl,
      update_table hrow⟩
  | known caller call => exact .inl rfl
  | receipted caller call => exact .inl (ensureReceipt_requests a requestId call)
  | failed caller call hopen hstored hparse =>
    refine .inr ⟨_, .of_closed hvalid hparse rfl rfl (closes_of_open hopen).2 rfl, ?_⟩
    rw [update_table (by rw [ensureReceipt_requests, hrow]), ensureReceipt_requests]

/-- Only an open row is written. -/
theorem Candidate.open {candidate : FrameRequest} (h : Candidate row candidate) :
    row.state.terminal = false := by
  cases hclosed : row.state.terminal with
  | false => rfl
  | true =>
    have hallowed := h.allowed
    rw [allowed_of_terminal hclosed] at hallowed
    cases hallowed

/-- A candidate leaves a sound row sound. -/
theorem FrameRequest.Sound.updatedBy {candidate : FrameRequest} (hrow : row.Sound)
    (hcandidate : Candidate row candidate) : (row.updatedBy candidate).Sound := by
  have hreason := hrow.reason hcandidate.open
  refine ⟨hrow.valid.updatedBy hcandidate.valid fun _ => hreason, fun hactive => ?_,
    fun hwaits => ?_⟩
  · show (candidate.terminalReason <|> row.terminalReason) = none
    rw [hcandidate.reason hactive, hreason]
    rfl
  · show (candidate.storageId <|> row.storageId) = none
    have hallowed := hcandidate.allowed
    rcases hwaits with hrequested | hclaimed
    · have hrequested : candidate.state = .requested := hrequested
      rw [hrequested] at hallowed
      cases hstate : row.state <;> rw [hstate] at hallowed <;> simp [Frames.allowed] at hallowed
    · have hclaimed : candidate.state = .claimed := hclaimed
      rw [hclaimed] at hallowed
      have hrequested : row.state = .requested := by
        cases hstate : row.state <;> rw [hstate] at hallowed <;> simp [Frames.allowed] at hallowed ⊢
      rw [hcandidate.unstored hclaimed, hrow.unstored (.inl hrequested)]
      rfl

/-- Every operation leaves a sound row, in the same state or in one that the table allows. -/
theorem Acts.sound {action : FrameAction owner} (h : Acts a requestId row action next)
    (hrow : a.requests.get requestId = some row) (hsound : row.Sound) :
    ∃ after, next.requests.get requestId = some after ∧ after.Sound ∧
      (after.state = row.state ∨ after.state ∈ allowed row.state) := by
  rcases h.row_cases hrow hsound.valid with hsame | ⟨candidate, hcandidate, hwritten⟩
  · exact ⟨row, by rw [hsame, hrow], hsound, .inl rfl⟩
  · exact ⟨_, by simp [hwritten], hsound.updatedBy hcandidate, .inr hcandidate.allowed⟩

end acts

end Omi.Frames
