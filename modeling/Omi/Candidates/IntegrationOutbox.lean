import Mathlib
import Omi.Foundation.Machine
import Omi.Foundation.Runs

/-! The outbox row of an accepted candidate: its side effect is claimed under a lease, delivered
by the worker that holds the token, and completed. Each call is one transaction, so a serial
order of calls stands for every interleaving. -/
namespace Omi.Candidates
open Omi.Foundation

inductive OutboxStatus where
  | pending | processing | completed | failed | suppressed
deriving DecidableEq, Repr

/-- The row, with the fields that dispatching reads or writes. -/
structure OutboxRow where
  accountGeneration : Option ℤ
  status : OutboxStatus := .pending
  attemptCount : ℕ := 0
  leaseToken : Option String := none
  claimedAt : Option ℚ := none
  completedAt : Option ℚ := none
  resolutionReason : Option String := none
  updatedAt : ℚ
deriving DecidableEq, Repr

/-- The row and the user's control document, each of which may be missing. -/
structure OutboxWorld where
  row : Option OutboxRow
  control : Option ℤ
deriving DecidableEq, Repr

inductive OutboxCall where
  | claim (accountGeneration : ℤ) (now : ℚ) (leaseSeconds : ℤ) (token : String)
  | complete (accountGeneration : ℤ) (now : ℚ) (leaseToken : String) (succeeded : Bool)
  | changeGeneration (control : Option ℤ)
deriving DecidableEq, Repr

inductive OutboxReply where
  | claimed (token : Option String)
  | completed (applied : Bool)
  | changed
deriving DecidableEq, Repr

namespace OutboxWorld

/-- `TaskWorkflowControl().account_generation` where there is no document. -/
def controlGeneration (world : OutboxWorld) : ℤ := world.control.getD 0

/-- The generation of the row and that of the account are the caller's. -/
def Matches (world : OutboxWorld) (row : OutboxRow) (accountGeneration : ℤ) : Prop :=
  row.accountGeneration = some accountGeneration ∧ world.controlGeneration = accountGeneration

instance (world : OutboxWorld) (row : OutboxRow) (accountGeneration : ℤ) :
    Decidable (world.Matches row accountGeneration) :=
  inferInstanceAs (Decidable (_ ∧ _))

end OutboxWorld

namespace OutboxRow

def suppress (row : OutboxRow) (now : ℚ) : OutboxRow :=
  { row with
    status := .suppressed
    resolutionReason := some "account_generation_mismatch"
    updatedAt := now }

/-- A worker holds the row, and its lease has not run out. -/
def leased (row : OutboxRow) (now : ℚ) (leaseSeconds : ℤ) : Bool :=
  row.status == .processing && row.claimedAt.any fun claimedAt => now < claimedAt + leaseSeconds

def lease (row : OutboxRow) (now : ℚ) (token : String) : OutboxRow :=
  { row with
    status := .processing
    attemptCount := row.attemptCount + 1
    leaseToken := some token
    claimedAt := some now
    updatedAt := now }

def settle (row : OutboxRow) (now : ℚ) (succeeded : Bool) : OutboxRow :=
  { row with
    status := if succeeded then .completed else .failed
    completedAt := if succeeded then some now else none
    leaseToken := none
    updatedAt := now }

end OutboxRow

/-- The transaction of `claim_candidate_integration_dispatch`, with the token that `uuid4` would
give it. -/
def claimCandidateIntegrationDispatch (world : OutboxWorld) (accountGeneration : ℤ) (now : ℚ)
    (leaseSeconds : ℤ) (token : String) : OutboxWorld × Option String :=
  match world.row with
  | none => (world, none)
  | some row =>
    if ¬ world.Matches row accountGeneration then
      ({ world with row := some (row.suppress now) }, none)
    else if row.status = .completed ∨ row.status = .suppressed then (world, none)
    else if row.leased now leaseSeconds then (world, none)
    else ({ world with row := some (row.lease now token) }, some token)

/-- The transaction of `complete_candidate_integration_dispatch`. -/
def completeCandidateIntegrationDispatch (world : OutboxWorld) (accountGeneration : ℤ) (now : ℚ)
    (leaseToken : String) (succeeded : Bool) : OutboxWorld × Bool :=
  match world.row with
  | none => (world, false)
  | some row =>
    if ¬ world.Matches row accountGeneration then
      ({ world with row := some (row.suppress now) }, false)
    else if row.status ≠ .processing ∨ row.leaseToken ≠ some leaseToken then (world, false)
    else ({ world with row := some (row.settle now succeeded) }, true)

/-- The workers' calls and the changes of the account's generation. -/
def integrationOutbox : Machine OutboxWorld OutboxCall OutboxReply where
  step world call :=
    match call with
    | .claim accountGeneration now leaseSeconds token =>
      let answer := claimCandidateIntegrationDispatch world accountGeneration now leaseSeconds token
      (answer.1, .claimed answer.2)
    | .complete accountGeneration now leaseToken succeeded =>
      let answer := completeCandidateIntegrationDispatch world accountGeneration now leaseToken
        succeeded
      (answer.1, .completed answer.2)
    | .changeGeneration control => ({ world with control }, .changed)

/-- The outbox as the acceptance of a candidate creates it. -/
def acceptedOutbox (accountGeneration : ℤ) (resolvedAt : ℚ) : OutboxWorld :=
  { row := some { accountGeneration := some accountGeneration, updatedAt := resolvedAt }
    control := some accountGeneration }

/-! ### What a step does to the row -/

/-- What a call does to the row: nothing, suppress it, lease it to a token, or settle the lease
of a token. -/
inductive RowEffect (row : OutboxRow) : OutboxCall → OutboxReply → OutboxRow → Prop where
  | stay (call : OutboxCall) (reply : OutboxReply) (hclaim : ∀ token, reply ≠ .claimed (some token))
      (hcomplete : reply ≠ .completed true) : RowEffect row call reply row
  | suppress (call : OutboxCall) (reply : OutboxReply) (now : ℚ)
      (hclaim : ∀ token, reply ≠ .claimed (some token)) (hcomplete : reply ≠ .completed true) :
      RowEffect row call reply (row.suppress now)
  | lease (accountGeneration : ℤ) (now : ℚ) (leaseSeconds : ℤ) (token : String)
      (hcompleted : row.status ≠ .completed) (hsuppressed : row.status ≠ .suppressed)
      (hfree : row.leased now leaseSeconds = false) :
      RowEffect row (.claim accountGeneration now leaseSeconds token) (.claimed (some token))
        (row.lease now token)
  | settle (accountGeneration : ℤ) (now : ℚ) (leaseToken : String) (succeeded : Bool)
      (hprocessing : row.status = .processing) (htoken : row.leaseToken = some leaseToken) :
      RowEffect row (.complete accountGeneration now leaseToken succeeded) (.completed true)
        (row.settle now succeeded)

theorem row_step {world : OutboxWorld} {row : OutboxRow} (hrow : world.row = some row)
    (call : OutboxCall) :
    ∃ next, (integrationOutbox.step world call).1.row = some next ∧
      RowEffect row call (integrationOutbox.step world call).2 next := by
  cases call with
  | claim accountGeneration now leaseSeconds token =>
    simp only [integrationOutbox, claimCandidateIntegrationDispatch, hrow]
    split_ifs with hmatches hterminal hleased
    · exact ⟨row, hrow, .stay _ _ (by simp) (by simp)⟩
    · exact ⟨row, hrow, .stay _ _ (by simp) (by simp)⟩
    · rw [not_or] at hterminal
      exact ⟨_, rfl, .lease _ now leaseSeconds token hterminal.1 hterminal.2 (by simpa using hleased)⟩
    · exact ⟨_, rfl, .suppress _ _ now (by simp) (by simp)⟩
  | complete accountGeneration now leaseToken succeeded =>
    simp only [integrationOutbox, completeCandidateIntegrationDispatch, hrow]
    split_ifs with hmatches hother
    · exact ⟨row, hrow, .stay _ _ (by simp) (by simp)⟩
    · rw [not_or, not_ne_iff, not_ne_iff] at hother
      exact ⟨_, rfl, .settle _ now leaseToken succeeded hother.1 hother.2⟩
    · exact ⟨_, rfl, .suppress _ _ now (by simp) (by simp)⟩
  | changeGeneration control => exact ⟨row, hrow, .stay _ .changed (by simp) (by simp)⟩

/-! ### Leases -/

/-- A call that took or settled a lease. -/
def Effective (event : OutboxCall × OutboxReply) : Prop :=
  (∃ token, event.2 = .claimed (some token)) ∨ event.2 = .completed true

/-- The last effective call of the log is a claim that returned the token. -/
def LatestClaim (log : List (OutboxCall × OutboxReply)) (token : String) : Prop :=
  ∃ before claim after, log = before ++ claim :: after ∧ claim.2 = .claimed (some token) ∧
    ∀ event ∈ after, ¬ Effective event

/-- A completion that takes effect is for the token of the latest claim, and no other has taken
effect since that claim. -/
def CompletesLatestClaim (log : List (OutboxCall × OutboxReply))
    (event : OutboxCall × OutboxReply) : Prop :=
  event.2 = .completed true → ∃ accountGeneration now leaseToken succeeded,
    event.1 = .complete accountGeneration now leaseToken succeeded ∧ LatestClaim log leaseToken

theorem LatestClaim.concat {log : List (OutboxCall × OutboxReply)} {token : String}
    (h : LatestClaim log token) {event : OutboxCall × OutboxReply} (hevent : ¬ Effective event) :
    LatestClaim (log ++ [event]) token := by
  obtain ⟨before, claim, after, rfl, hclaim, hafter⟩ := h
  refine ⟨before, claim, after ++ [event], by simp, hclaim, ?_⟩
  intro other hother
  rcases List.mem_append.mp hother with hother | hother
  · exact hafter other hother
  · rw [List.mem_singleton.mp hother]
    exact hevent

/-- After a log: the row is there, a row in processing bears the token of the latest claim, and
every completion was for the latest claim. -/
structure LeaseSound (world : OutboxWorld) (log : List (OutboxCall × OutboxReply)) : Prop where
  present : ∃ row, world.row = some row
  leased : ∀ row, world.row = some row → row.status = .processing →
    ∃ token, row.leaseToken = some token ∧ LatestClaim log token
  lawful : Lawful CompletesLatestClaim log

theorem LeaseSound.step {world : OutboxWorld} {log : List (OutboxCall × OutboxReply)}
    (h : LeaseSound world log) (call : OutboxCall) :
    LeaseSound (integrationOutbox.step world call).1
      (log ++ [(call, (integrationOutbox.step world call).2)]) := by
  obtain ⟨row, hrow⟩ := h.present
  obtain ⟨next, hnext, heffect⟩ := row_step hrow call
  generalize (integrationOutbox.step world call).2 = reply at heffect ⊢
  refine ⟨⟨next, hnext⟩, ?_, ?_⟩
  · intro other hother hprocessing
    obtain rfl : next = other := Option.some.inj (hnext.symm.trans hother)
    cases heffect with
    | stay _ _ hclaim hcomplete =>
      obtain ⟨token, htoken, hlatest⟩ := h.leased row hrow hprocessing
      refine ⟨token, htoken, hlatest.concat ?_⟩
      rintro (⟨other, hother⟩ | hother)
      · exact hclaim other hother
      · exact hcomplete hother
    | suppress => cases hprocessing
    | lease _ now _ token => exact ⟨token, rfl, log, _, [], rfl, rfl, by simp⟩
    | settle _ now leaseToken succeeded =>
      cases succeeded <;> cases hprocessing
  · refine h.lawful.concat ?_
    intro hcompleted
    cases heffect with
    | stay _ _ _ hcomplete => exact absurd hcompleted hcomplete
    | suppress _ _ _ _ hcomplete => exact absurd hcompleted hcomplete
    | lease => cases hcompleted
    | settle accountGeneration now leaseToken succeeded hprocessing htoken =>
      obtain ⟨token, hlease, hlatest⟩ := h.leased row hrow hprocessing
      obtain rfl : token = leaseToken := Option.some.inj (hlease.symm.trans htoken)
      exact ⟨accountGeneration, now, token, succeeded, rfl, hlatest⟩

theorem leaseSound_run {world : OutboxWorld} (hstart : LeaseSound world [])
    (calls : List OutboxCall) :
    LeaseSound (integrationOutbox.state world calls) (integrationOutbox.trace world calls) := by
  induction calls using List.reverseRecOn with
  | nil => exact hstart
  | append_singleton calls call ih =>
    rw [integrationOutbox.state_append, integrationOutbox.trace_append]
    exact ih.step call

theorem leaseSound_accepted (accountGeneration : ℤ) (resolvedAt : ℚ) :
    LeaseSound (acceptedOutbox accountGeneration resolvedAt) [] := by
  refine ⟨⟨_, rfl⟩, ?_, lawful_nil⟩
  rintro row ⟨⟩ hprocessing
  cases hprocessing

/-! ### Final states -/

/-- The row is completed or suppressed. -/
def Final (world : OutboxWorld) : Prop :=
  ∃ row, world.row = some row ∧ (row.status = .completed ∨ row.status = .suppressed)

def Completed (world : OutboxWorld) : Prop :=
  ∃ row, world.row = some row ∧ row.status = .completed

theorem final_step {world : OutboxWorld} (h : Final world) (call : OutboxCall) :
    Final (integrationOutbox.step world call).1 ∧
      ¬ Effective (call, (integrationOutbox.step world call).2) := by
  obtain ⟨row, hrow, hstatus⟩ := h
  obtain ⟨next, hnext, heffect⟩ := row_step hrow call
  have hquiet : ∀ reply : OutboxReply, (∀ token, reply ≠ .claimed (some token)) →
      reply ≠ .completed true → ¬ Effective (call, reply) := by
    rintro reply hclaim hcomplete (⟨token, htoken⟩ | hdone)
    · exact hclaim token htoken
    · exact hcomplete hdone
  generalize (integrationOutbox.step world call).2 = reply at heffect ⊢
  cases heffect with
  | stay _ _ hclaim hcomplete => exact ⟨⟨row, hnext, hstatus⟩, hquiet _ hclaim hcomplete⟩
  | suppress _ _ now hclaim hcomplete =>
    exact ⟨⟨_, hnext, .inr rfl⟩, hquiet _ hclaim hcomplete⟩
  | lease _ _ _ _ hcompleted hsuppressed =>
    rcases hstatus with hstatus | hstatus
    · exact absurd hstatus hcompleted
    · exact absurd hstatus hsuppressed
  | settle _ _ _ _ hprocessing =>
    rw [hprocessing] at hstatus
    rcases hstatus with hstatus | hstatus <;> cases hstatus

theorem final_run {world : OutboxWorld} (h : Final world) (calls : List OutboxCall) :
    ∀ event ∈ integrationOutbox.trace world calls, ¬ Effective event := by
  induction calls generalizing world with
  | nil => simp
  | cons call calls ih =>
    obtain ⟨hfinal, hquiet⟩ := final_step h call
    rw [Machine.trace_cons, List.forall_mem_cons]
    exact ⟨hquiet, ih hfinal⟩

/-- The call is no claim or completion, or its generation is the row's and the account's. -/
def CallMatches (world : OutboxWorld) : OutboxCall → Prop
  | .claim accountGeneration _ _ _ | .complete accountGeneration _ _ _ =>
    ∀ row, world.row = some row → world.Matches row accountGeneration
  | .changeGeneration _ => True

/-- A completed row stays completed under a call exactly when the call's generation matches. -/
theorem completed_step_iff {world : OutboxWorld} (h : Completed world) (call : OutboxCall) :
    Completed (integrationOutbox.step world call).1 ↔ CallMatches world call := by
  obtain ⟨row, hrow, hstatus⟩ := h
  have hsuppressed (now : ℚ) : ¬ Completed { world with row := some (row.suppress now) } := by
    rintro ⟨other, ⟨⟩, hother⟩
    cases hother
  have hkept : Completed world := ⟨row, hrow, hstatus⟩
  cases call with
  | claim accountGeneration now leaseSeconds token =>
    have hmatches : CallMatches world (.claim accountGeneration now leaseSeconds token) ↔
        world.Matches row accountGeneration := by simp [CallMatches, hrow]
    rw [hmatches]
    simp only [integrationOutbox, claimCandidateIntegrationDispatch, hrow, hstatus, true_or, if_true]
    by_cases hmatch : world.Matches row accountGeneration
    · simp [hmatch, hkept]
    · simp [hmatch, hsuppressed]
  | complete accountGeneration now leaseToken succeeded =>
    have hmatches : CallMatches world (.complete accountGeneration now leaseToken succeeded) ↔
        world.Matches row accountGeneration := by simp [CallMatches, hrow]
    rw [hmatches]
    simp only [integrationOutbox, completeCandidateIntegrationDispatch, hrow, hstatus]
    by_cases hmatch : world.Matches row accountGeneration
    · simp [hmatch, hkept]
    · simp [hmatch, hsuppressed]
  | changeGeneration control => exact iff_of_true ⟨row, hrow, hstatus⟩ trivial

/-- In every state of the run from which a call is made, a completed row stays completed. -/
def CompletedStays (world : OutboxWorld) (calls : List OutboxCall) : Prop :=
  ∀ before call after, calls = before ++ call :: after →
    Completed (integrationOutbox.state world before) →
      Completed (integrationOutbox.state world (before ++ [call]))

/-- What each call of a run does, with its reply, and what the calls behind it do, if it completed
or suppressed the row. -/
def SettlesOnce (world : OutboxWorld) (calls : List OutboxCall) : Prop :=
  ∀ before call after, calls = before ++ call :: after →
    ((∃ accountGeneration now leaseToken,
        call = .complete accountGeneration now leaseToken true ∧
          (integrationOutbox.step (integrationOutbox.state world before) call).2 =
            .completed true) ∨
      ∃ row, (integrationOutbox.state world (before ++ [call])).row = some row ∧
        row.status = .suppressed) →
    ∀ event ∈ integrationOutbox.trace (integrationOutbox.state world (before ++ [call])) after,
      ∀ token, event.2 ≠ .claimed (some token)

theorem settlesOnce {world : OutboxWorld} (hstart : LeaseSound world []) (calls : List OutboxCall) :
    SettlesOnce world calls := by
  intro before call after _ hsettled event hevent token htoken
  have hfinal : Final (integrationOutbox.state world (before ++ [call])) := by
    rcases hsettled with ⟨accountGeneration, now, leaseToken, rfl, hreply⟩ | ⟨row, hrow, hstatus⟩
    · obtain ⟨row, hrow⟩ := (leaseSound_run hstart before).present
      obtain ⟨next, hnext, heffect⟩ := row_step hrow
        (.complete accountGeneration now leaseToken true)
      rw [integrationOutbox.state_append]
      generalize (integrationOutbox.step (integrationOutbox.state world before)
        (.complete accountGeneration now leaseToken true)).2 = reply at heffect hreply
      cases heffect with
      | stay _ _ _ hcomplete => exact absurd hreply hcomplete
      | suppress _ _ _ _ hcomplete => exact absurd hreply hcomplete
      | settle => exact ⟨_, hnext, .inl rfl⟩
    · exact ⟨row, hrow, .inr hstatus⟩
  exact final_run hfinal after event hevent (.inl ⟨token, htoken⟩)

/-- From the acceptance of the candidate on: every completion that takes effect is for the latest
claim, the first since it; after a successful one, or a suppression, no claim returns a token; and
a completed row stays completed exactly when the calls that meet it carry the generation of the
row and of the account. -/
theorem dispatchLeased (accountGeneration : ℤ) (resolvedAt : ℚ) (calls : List OutboxCall) :
    Lawful CompletesLatestClaim
        (integrationOutbox.trace (acceptedOutbox accountGeneration resolvedAt) calls) ∧
      SettlesOnce (acceptedOutbox accountGeneration resolvedAt) calls ∧
      (CompletedStays (acceptedOutbox accountGeneration resolvedAt) calls ↔
        ∀ before call after, calls = before ++ call :: after →
          Completed (integrationOutbox.state (acceptedOutbox accountGeneration resolvedAt) before) →
            CallMatches
              (integrationOutbox.state (acceptedOutbox accountGeneration resolvedAt) before)
              call) := by
  have hstart := leaseSound_accepted accountGeneration resolvedAt
  refine ⟨(leaseSound_run hstart calls).lawful, settlesOnce hstart calls, ?_⟩
  have hstep : ∀ before call, integrationOutbox.state
      (acceptedOutbox accountGeneration resolvedAt) (before ++ [call]) =
        (integrationOutbox.step (integrationOutbox.state
          (acceptedOutbox accountGeneration resolvedAt) before) call).1 := by
    intro before call
    rw [integrationOutbox.state_append]
    rfl
  constructor
  · intro hstays before call after hsplit hcompleted
    have hnext := hstays before call after hsplit hcompleted
    rw [hstep] at hnext
    exact (completed_step_iff hcompleted call).mp hnext
  · intro hmatches before call after hsplit hcompleted
    rw [hstep]
    exact (completed_step_iff hcompleted call).mpr (hmatches before call after hsplit hcompleted)

/-- A worker with the generation of before a change suppresses the row that was completed. -/
theorem not_dispatchLeased : ¬ ∀ (accountGeneration : ℤ) (resolvedAt : ℚ)
    (calls : List OutboxCall),
    CompletedStays (acceptedOutbox accountGeneration resolvedAt) calls := by
  intro hstays
  obtain ⟨row, hrow, hstatus⟩ := hstays 3 0
    [.claim 3 1 300 "t", .complete 3 2 "t" true, .changeGeneration (some 4), .claim 3 3 300 "u"]
    [.claim 3 1 300 "t", .complete 3 2 "t" true, .changeGeneration (some 4)]
    (.claim 3 3 300 "u") [] rfl ⟨_, rfl, rfl⟩
  have hsuppressed : some row.status = some .suppressed := by
    rw [← Option.map_some, ← hrow]
    rfl
  rw [hstatus] at hsuppressed
  cases hsuppressed

end Omi.Candidates
