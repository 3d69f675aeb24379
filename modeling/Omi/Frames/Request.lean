import Mathlib
import Omi.Foundation.Checks
import Omi.Foundation.PyText

/-! Frame requests: the row with its validators, and the policy on expiry, transitions and
quotas. Times are microseconds since the epoch in UTC. -/
namespace Omi.Frames
open Omi.Foundation

inductive FrameRequestState where
  | requested
  | claimed
  | uploaded
  | attached
  | offline
  | pruned
  | failed
  | expired
  | cancelled
deriving DecidableEq, Repr

inductive FrameRequestCleanupState where
  | notRequired
  | pending
  | failed
  | deleted
  | permanent
deriving DecidableEq, Repr

/-- `self in TERMINAL_FRAME_REQUEST_STATES`. -/
def FrameRequestState.terminal : FrameRequestState → Bool
  | .requested | .claimed | .uploaded => false
  | .attached | .offline | .pruned | .failed | .expired | .cancelled => true

structure FrameRequest where
  requestId : String
  uid : String
  deviceId : String
  accountGeneration : ℤ := 0
  dedupeKey : String
  dedupeWindow : ℤ := 0
  attemptNumber : ℤ := 0
  conversationId : Option String := none
  screenshotId : Option String := none
  state : FrameRequestState := .requested
  createdAt : ℤ
  expiresAt : ℤ
  claimedAt : Option ℤ := none
  uploadedAt : Option ℤ := none
  attachedAt : Option ℤ := none
  terminalReason : Option String := none
  byteCount : ℤ := 0
  contentType : Option String := none
  storageId : Option String := none
  cleanupState : FrameRequestCleanupState := .notRequired
  cleanupAttempts : ℤ := 0
  cleanupNextAttemptAt : Option ℤ := none
deriving DecidableEq

/-- What the adapter raises: `KeyError`, `PermissionError`, `ValueError`, the store's
`AlreadyExists` and the boundary's `MalformedDocError`. -/
inductive FrameError where
  | key (message : String)
  | permission (message : String)
  | value (message : String)
  | alreadyExists
  | malformedDoc
deriving DecidableEq, Repr

/-! ### The validators of a row -/

/-- `if value:` on an optional text. -/
def truthy (value : Option String) : Bool := value.any (· ≠ "")

def stripOptional (value : Option String) : Option String :=
  value.bind fun text => if strip text = "" then none else some (strip text)

/-- The two `mode="before"` validators, on every field they name. -/
def FrameRequest.normalise (r : FrameRequest) : FrameRequest :=
  { r with
    requestId := strip r.requestId
    uid := strip r.uid
    deviceId := strip r.deviceId
    dedupeKey := strip r.dedupeKey
    conversationId := stripOptional r.conversationId
    screenshotId := stripOptional r.screenshotId
    terminalReason := stripOptional r.terminalReason
    contentType := stripOptional r.contentType
    storageId := stripOptional r.storageId }

def requiredText (bound : ℕ) (text : String) : Bool := text ≠ "" && text.length ≤ bound

def optionalText (bound : ℕ) (value : Option String) : Bool := value.all (·.length ≤ bound)

/-- One path segment: neither `/` nor `\` in it. -/
def isSegment (text : String) : Bool := !text.toList.contains '/' && !text.toList.contains '\\'

/-- `_validate_storage_id`. -/
def opaqueStorage (storageId : String) : Bool :=
  isSegment storageId && !"http:".toList.isPrefixOf storageId.toList &&
    !"https:".toList.isPrefixOf storageId.toList

/-- The bounds of the fields and their `mode="after"` validators. -/
def FrameRequest.fieldsValid (r : FrameRequest) : Bool :=
  requiredText 128 r.requestId && isSegment r.requestId && requiredText 256 r.uid &&
    requiredText 256 r.deviceId && 0 ≤ r.accountGeneration && requiredText 256 r.dedupeKey &&
    0 ≤ r.dedupeWindow && 0 ≤ r.attemptNumber && optionalText 256 r.conversationId &&
    optionalText 256 r.screenshotId && optionalText 240 r.terminalReason &&
    0 ≤ r.byteCount && r.byteCount ≤ 10 * 1024 * 1024 && optionalText 100 r.contentType &&
    optionalText 256 r.storageId && r.storageId.all opaqueStorage &&
    0 ≤ r.cleanupAttempts && r.cleanupAttempts ≤ 1000

/-- `_validate_lifecycle`. -/
def FrameRequest.lifecycleValid (r : FrameRequest) : Bool :=
  r.createdAt ≤ r.expiresAt &&
    !(r.state = .attached && !truthy r.conversationId) &&
    !(r.state = .attached && r.expiresAt ≠ r.createdAt) &&
    !(r.state = .attached && truthy r.terminalReason) &&
    !(r.state.terminal && r.state ≠ .attached && !truthy r.terminalReason) &&
    !(r.state = .uploaded && !truthy r.storageId)

/-- `FrameRequest.model_validate` behind the read boundary. -/
def FrameRequest.parse (r : FrameRequest) : Except FrameError FrameRequest :=
  if r.normalise.fieldsValid && r.normalise.lifecycleValid then .ok r.normalise
  else .error .malformedDoc

/-- The validators accept the row as it is. -/
def FrameRequest.Valid (r : FrameRequest) : Prop := r.parse = .ok r

/-! ### Policy -/

def frameRequestMaxTtlSeconds : ℤ := 6 * 24 * 60 * 60
def frameRequestMaxBytes : ℤ := 10 * 1024 * 1024
def frameRequestMaxBatch : ℕ := 32
def frameRequestMaxPendingPerDevice : ℕ := 8
def frameRequestMaxBytesPerDevice : ℤ := 50 * 1024 * 1024
def frameRequestDedupeWindowSeconds : ℤ := 60
def frameRequestMaxAttachedPerConversation : ℕ := 1
def frameRequestMaxBytesPerConversation : ℤ := 10 * 1024 * 1024

/-- `timedelta(seconds=n)`. -/
def seconds (n : ℤ) : ℤ := n * 1000000

def requestExpiry (createdAt : ℤ) (requestedTtlSeconds deviceRetentionSeconds : Option ℤ) :
    Except FrameError ℤ := do
  let requested := requestedTtlSeconds.getD frameRequestMaxTtlSeconds
  check (1 ≤ requested) (.value "requested_ttl_seconds must be positive")
  let ttl := min requested frameRequestMaxTtlSeconds
  match deviceRetentionSeconds with
  | none => .ok (createdAt + seconds ttl)
  | some retention => do
    check (1 ≤ retention) (.value "device_retention_seconds must be positive")
    .ok (createdAt + seconds (min ttl retention))

def isExpired (r : FrameRequest) (now : ℤ) : Bool :=
  !(truthy r.conversationId && r.state = .attached) && r.expiresAt ≤ now && !r.state.terminal

/-- The table `allowed` of `validate_transition`. -/
def allowed : FrameRequestState → List FrameRequestState
  | .requested => [.claimed, .offline, .pruned, .failed, .expired, .cancelled]
  | .claimed => [.uploaded, .offline, .pruned, .failed, .expired, .cancelled]
  | .uploaded => [.attached, .failed, .pruned]
  | _ => []

/-- The `.value` of a state. -/
def FrameRequestState.value : FrameRequestState → String
  | .requested => "requested"
  | .claimed => "claimed"
  | .uploaded => "uploaded"
  | .attached => "attached"
  | .offline => "offline"
  | .pruned => "pruned"
  | .failed => "failed"
  | .expired => "expired"
  | .cancelled => "cancelled"

/-- The owner, the device and the account generation are those of the row. -/
def FrameRequest.ownedBy (r : FrameRequest) (uid deviceId : String) (accountGeneration : ℤ) :
    Bool :=
  r.uid = uid && r.deviceId = deviceId && r.accountGeneration = accountGeneration

def validateTransition (r : FrameRequest) (nextState : FrameRequestState)
    (uid deviceId : String) (accountGeneration now : ℤ) : Except FrameError Unit := do
  check (r.ownedBy uid deviceId accountGeneration)
    (.permission "frame request owner or account generation mismatch")
  check (!r.state.terminal) (.value "frame request is already terminal")
  check (!isExpired r now) (.value "frame request has expired")
  check ((allowed r.state).contains nextState)
    (.value s!"invalid frame request transition {r.state.value}->{nextState.value}")
  check (!(nextState = .attached && !truthy r.conversationId))
    (.value "only conversation-bound requests may be attached")

structure QuotaDecision where
  allowed : Bool
  reason : String
  pendingCount : ℕ
  pendingBytes : ℤ
deriving DecidableEq

def checkDeviceQuota (requests : List FrameRequest) (uid deviceId : String)
    (now additionalBytes : ℤ) : QuotaDecision :=
  if additionalBytes < 0 ∨ frameRequestMaxBytes < additionalBytes then
    ⟨false, "invalid_bytes", 0, 0⟩
  else
    let live := requests.filter fun r =>
      r.uid = uid && r.deviceId = deviceId && !r.state.terminal && !isExpired r now
    let pendingCount := live.length
    let pendingBytes := (live.map FrameRequest.byteCount).sum
    if frameRequestMaxPendingPerDevice ≤ pendingCount then
      ⟨false, "pending_count", pendingCount, pendingBytes⟩
    else if frameRequestMaxBytesPerDevice < pendingBytes + additionalBytes then
      ⟨false, "pending_bytes", pendingCount, pendingBytes⟩
    else ⟨true, "ok", pendingCount, pendingBytes⟩

/-! ### What validation and the policy give -/

@[simp] theorem stripOptional_none : stripOptional none = none := rfl

theorem stripOptional_stripOptional (value : Option String) :
    stripOptional (stripOptional value) = stripOptional value := by
  cases value with
  | none => rfl
  | some text =>
    by_cases hblank : strip text = ""
    · simp [stripOptional, hblank]
    · simp [stripOptional, hblank, strip_strip]

theorem FrameRequest.normalise_normalise (r : FrameRequest) :
    r.normalise.normalise = r.normalise := by
  simp [FrameRequest.normalise, strip_strip, stripOptional_stripOptional]

theorem FrameRequest.parse_ok_iff {r row : FrameRequest} :
    r.parse = .ok row ↔
      row = r.normalise ∧ row.fieldsValid = true ∧ row.lifecycleValid = true := by
  unfold FrameRequest.parse
  by_cases h : (r.normalise.fieldsValid && r.normalise.lifecycleValid) = true
  · rw [if_pos h]
    rw [Bool.and_eq_true] at h
    constructor
    · intro hrow
      obtain rfl := Except.ok.inj hrow
      exact ⟨rfl, h⟩
    · rintro ⟨rfl, -⟩
      rfl
  · rw [if_neg h]
    constructor
    · intro hrow
      cases hrow
    · rintro ⟨rfl, hfields, hlifecycle⟩
      exact absurd (by rw [hfields, hlifecycle]; rfl) h

theorem FrameRequest.valid_iff {r : FrameRequest} :
    r.Valid ↔ r.normalise = r ∧ r.fieldsValid = true ∧ r.lifecycleValid = true := by
  unfold FrameRequest.Valid
  rw [FrameRequest.parse_ok_iff]
  constructor
  · rintro ⟨hnormal, h⟩
    exact ⟨hnormal.symm, h⟩
  · rintro ⟨hnormal, h⟩
    exact ⟨hnormal.symm, h⟩

/-- What the validators return they accept. -/
theorem FrameRequest.valid_of_parse {r row : FrameRequest} (h : r.parse = .ok row) :
    row.Valid := by
  obtain ⟨rfl, hchecks⟩ := FrameRequest.parse_ok_iff.mp h
  exact FrameRequest.valid_iff.mpr ⟨r.normalise_normalise, hchecks⟩

/-- A transition that passes is by the owner, from a state that is not terminal to one that the
table allows. -/
theorem validateTransition_ok {r : FrameRequest} {nextState : FrameRequestState}
    {uid deviceId : String} {accountGeneration now : ℤ} {u : Unit}
    (h : validateTransition r nextState uid deviceId accountGeneration now = .ok u) :
    r.ownedBy uid deviceId accountGeneration = true ∧ r.state.terminal = false ∧
      nextState ∈ allowed r.state := by
  obtain ⟨_, howner, h⟩ := bind_eq_ok_iff.mp h
  obtain ⟨_, hactive, h⟩ := bind_eq_ok_iff.mp h
  obtain ⟨_, -, h⟩ := bind_eq_ok_iff.mp h
  obtain ⟨_, hallowed, -⟩ := bind_eq_ok_iff.mp h
  rw [check_eq_ok_iff] at howner hactive hallowed
  refine ⟨howner, by simpa using hactive, by simpa using hallowed⟩

theorem active_of_isExpired {r : FrameRequest} {now : ℤ} (h : isExpired r now = true) :
    r.state.terminal = false := by
  unfold isExpired at h
  simp only [Bool.and_eq_true, Bool.not_eq_true'] at h
  exact h.2

/-- Nothing follows a terminal state. -/
theorem allowed_of_terminal {state : FrameRequestState} (h : state.terminal = true) :
    allowed state = [] := by
  cases state <;> first | rfl | cases h

end Omi.Frames
