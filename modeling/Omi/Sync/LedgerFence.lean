import Omi.Sync.Ledger

/-! A bound run token fences the content ledger: until the binding is released,
completed, taken over or superseded, no other `(job_id, run_token, run_epoch)` moves the
document. -/
namespace Omi.Sync
open Omi.Foundation

/-- What an owner finds in the document. -/
theorem ownedFields_of_owns {caller : LedgerCaller} {doc : LedgerDoc}
    (h : caller.owns doc = true) :
    doc.status = some .processing ∧ doc.jobId = some caller.jobId ∧
      ∀ token, caller.runToken = some token → doc.ledgerRunToken = some token := by
  simp only [LedgerCaller.owns, ledgerOwnerMatches] at h
  split_ifs at h with hother
  push Not at hother
  refine ⟨hother.1, hother.2, fun token htoken => ?_⟩
  simp only [htoken, Bool.and_eq_true, beq_iff_eq] at h
  exact h.1

/-- The document is being processed under exactly this binding. -/
structure BoundTo (jobId runToken : String) (runEpoch : ℤ) (ref : LedgerRef) : Prop where
  status : ref.existing.status = some .processing
  jobId : ref.existing.jobId = some jobId
  runToken : ref.existing.ledgerRunToken = some runToken
  runEpoch : ref.existing.ledgerRunEpoch = .int runEpoch

/-- The events that end a binding of `jobId` at `runEpoch`: a release, a completion, a
claim that another job won, and a bind at a greater epoch. -/
def displaces (jobId : String) (runEpoch : ℤ) : LedgerCall → LedgerReply → Bool
  | .releaseClaim .., .flag true => true
  | .releaseClaimAfterJobRetired .., .flag true => true
  | .markCompleted .., .flag true => true
  | .claim other .., .claim .owned => other != jobId
  | .bindRunToken _ _ epoch _, .binding .bound => runEpoch < epoch
  | _, _ => false

section Binding
variable {jobId runToken : String} {runEpoch : ℤ} {ref : LedgerRef}

theorem BoundTo.owns_iff (h : BoundTo jobId runToken runEpoch ref) (caller : LedgerCaller) :
    caller.owns ref.existing = true ↔ caller = ⟨jobId, some runToken, some runEpoch⟩ := by
  obtain ⟨job, token, epoch⟩ := caller
  cases token with
  | none => simp [LedgerCaller.owns, ledgerOwnerMatches, h.runToken]
  | some token =>
    cases epoch with
    | none => simp [LedgerCaller.owns, ledgerOwnerMatches, h.runEpoch]
    | some epoch =>
      simp only [LedgerCaller.owns, ledgerOwnerMatches, h.status, h.jobId, h.runToken, h.runEpoch]
      grind [PyVal.pyEq_int]

/-- A bind that answers `BOUND` leaves the document under its binding. -/
theorem boundTo_of_bound {now : ℤ}
    (h : (bindRunTokenTransaction ref jobId runToken runEpoch now).2 = .binding .bound) :
    BoundTo jobId runToken runEpoch
      (bindRunTokenTransaction ref jobId runToken runEpoch now).1 := by
  obtain ⟨heq, -⟩ | ⟨e, heq, -⟩ | heq | ⟨heq, hstatus, hjob, htoken, hepoch⟩ |
    ⟨heq, hstatus, hjob, -⟩ | ⟨heq, -⟩ :=
      bindRunTokenTransaction_cases ref jobId runToken runEpoch now
  · simp [heq] at h
  · simp [heq] at h
  · simp [heq] at h
  · rw [heq]; exact ⟨hstatus, hjob, htoken, hepoch⟩
  · rw [heq]; exact ⟨hstatus, hjob, rfl, rfl⟩
  · rw [heq]; exact ⟨rfl, rfl, rfl, rfl⟩

theorem BoundTo.congr {ref' : LedgerRef} (h : BoundTo jobId runToken runEpoch ref)
    (hbinding : ref'.existing.binding = ref.existing.binding) :
    BoundTo jobId runToken runEpoch ref' := by
  simp only [LedgerDoc.binding, Prod.mk.injEq] at hbinding
  obtain ⟨hstatus, hjob, htoken, hepoch⟩ := hbinding
  exact ⟨hstatus.trans h.status, hjob.trans h.jobId, htoken.trans h.runToken,
    hepoch.trans h.runEpoch⟩

theorem displaces_of_closes {call : LedgerCall} (h : call.closes = true) :
    displaces jobId runEpoch call (.flag true) = true := by
  cases call <;> simp_all [LedgerCall.closes, displaces]

theorem ownedWrite_of_not_owns {caller : LedgerCaller} {write : LedgerDoc → LedgerDoc}
    (h : caller.owns ref.existing = false) : ownedWrite ref caller write = (ref, .flag false) := by
  simp [ownedWrite, h]

/-- A caller that does not own the document changes nothing and is told so. -/
theorem ledgerStep_of_not_owns {call : LedgerCall} {caller : LedgerCaller}
    (hcall : call.caller? = some caller) (h : caller.owns ref.existing = false) :
    ledgerStep ref call = (ref, .flag false) := by
  cases call with
  | claim | bindRunToken | releaseClaimAfterJobRetired => simp [LedgerCall.caller?] at hcall
  | sideEffect | checkpointPartialResult | processedSegment | releaseClaim =>
    obtain rfl : _ = caller := by simpa [LedgerCall.caller?] using hcall
    simp [ledgerStep, sideEffectTransaction, checkpointPartialResultTransaction,
      processedSegmentTransaction, releaseClaimTransaction, ownedWrite_of_not_owns h]
  | markCompleted _ result now =>
    obtain rfl : _ = caller := by simpa [LedgerCall.caller?] using hcall
    obtain ⟨valid, hvalid⟩ := result.valid_isOk
    cases valid <;>
      simp [ledgerStep, markCompletedTransaction, hvalid, ownedWrite_of_not_owns h]

theorem BoundTo.reject (h : BoundTo jobId runToken runEpoch ref) {call : LedgerCall}
    {caller : LedgerCaller} (hcall : call.caller? = some caller)
    (hne : caller ≠ ⟨jobId, some runToken, some runEpoch⟩) :
    ledgerStep ref call = (ref, .flag false) :=
  ledgerStep_of_not_owns hcall (by simpa using (h.owns_iff caller).not.mpr hne)

theorem BoundTo.bind_lost (h : BoundTo jobId runToken runEpoch ref) {token : String} {epoch : ℤ}
    (hstale : epoch < runEpoch ∨ epoch = runEpoch ∧ token ≠ runToken) (now : ℤ) :
    bindRunTokenTransaction ref jobId token epoch now = (ref, .binding .lost) := by
  rcases hstale with hlt | ⟨rfl, hne⟩
  · simp [bindRunTokenTransaction, h.status, h.jobId, h.runEpoch, hlt]
  · simp [bindRunTokenTransaction, h.status, h.jobId, h.runEpoch, h.runToken, Ne.symm hne]

theorem BoundTo.bind_again (h : BoundTo jobId runToken runEpoch ref) (now : ℤ) :
    bindRunTokenTransaction ref jobId runToken runEpoch now = (ref, .binding .bound) := by
  simp [bindRunTokenTransaction, h.status, h.jobId, h.runEpoch, h.runToken]

/-- The binding outlives every call that does not displace it. -/
theorem BoundTo.step (h : BoundTo jobId runToken runEpoch ref) (call : LedgerCall)
    (hkeep : displaces jobId runEpoch call (ledgerStep ref call).2 = false) :
    BoundTo jobId runToken runEpoch (ledgerStep ref call).1 := by
  have hworker := ledgerStep_cases ref call
  cases call with
  | claim other lane now =>
    obtain ⟨heq, -⟩ | ⟨e, heq, -⟩ | ⟨heq, -⟩ | heq | ⟨clear, heq, -, -, hjob⟩ :=
      claimTransaction_cases ref other lane now
    all_goals simp only [ledgerStep, heq] at hkeep ⊢
    all_goals try exact h
    -- only the owner's own claim could take over without displacing, and it does not
    obtain rfl : other = jobId := by simpa [displaces] using hkeep
    simp [h.status] at hjob
    exact absurd h.jobId hjob
  | bindRunToken other token epoch now =>
    obtain ⟨heq, -⟩ | ⟨e, heq, -⟩ | heq | ⟨heq, -⟩ | ⟨heq, -, -, hlt⟩ | ⟨-, hcompleted, -⟩ :=
      bindRunTokenTransaction_cases ref other token epoch now
    · simpa only [ledgerStep, heq] using h
    · simpa only [ledgerStep, heq] using h
    · simpa only [ledgerStep, heq] using h
    · simpa only [ledgerStep, heq] using h
    · have hgreater := hlt runEpoch h.runEpoch
      simp [ledgerStep, heq, displaces] at hkeep
      omega
    · simp [h.status] at hcompleted
  | _ =>
    obtain heq | ⟨doc, heq, hbinding | ⟨hcloses, -⟩⟩ :=
      hworker (by simp) (by simp)
    · simpa only [heq] using h
    · rw [heq]
      exact h.congr hbinding
    · rw [heq, displaces_of_closes hcloses] at hkeep
      simp at hkeep

end Binding

/-- The fence over whole runs: from the moment a bind answers `BOUND`, through any calls
that do not displace it, every other owner is refused, every stale bind loses, and the
owner's own bind repeats, none of them touching the document. -/
theorem boundFence (ref : LedgerRef) (jobId runToken : String) (runEpoch now : ℤ)
    (hbound : (ledger.step ref (.bindRunToken jobId runToken runEpoch now)).2 = .binding .bound)
    (calls : List LedgerCall)
    (hkept : ∀ e ∈ ledger.trace (ledger.step ref (.bindRunToken jobId runToken runEpoch now)).1
      calls, displaces jobId runEpoch e.1 e.2 = false) :
    let later := ledger.state (ledger.step ref (.bindRunToken jobId runToken runEpoch now)).1 calls
    (∀ call caller, call.caller? = some caller → caller ≠ ⟨jobId, some runToken, some runEpoch⟩ →
      ledger.step later call = (later, .flag false)) ∧
    (∀ token epoch now', epoch < runEpoch ∨ epoch = runEpoch ∧ token ≠ runToken →
      ledger.step later (.bindRunToken jobId token epoch now') = (later, .binding .lost)) ∧
    ∀ now', ledger.step later (.bindRunToken jobId runToken runEpoch now') =
      (later, .binding .bound) := by
  intro later
  have hlater : BoundTo jobId runToken runEpoch later :=
    Machine.invariant_of_trace (fun call reply => displaces jobId runEpoch call reply = false)
      (fun _ call h hok => h.step call hok) (boundTo_of_bound hbound) calls hkept
  exact ⟨fun call caller hcall hne => hlater.reject hcall hne,
    fun token epoch now' hstale => hlater.bind_lost hstale now', fun now' => hlater.bind_again now'⟩

/-- A replacement worker binds over a crashed one; the old worker's mark is refused and
its bind lost. -/
theorem boundFence_replacement :
    let claimed : LedgerRef := some
      { status := some .processing
        jobId := some "job"
        ledgerRunToken := some "1:a"
        ledgerRunEpoch := .int 1 }
    let bound := (ledger.step claimed (.bindRunToken "job" "2:b" 2 10)).1
    ledger.step bound (.sideEffect ⟨"job", some "1:a", some 1⟩ .usage 5 20) =
        (bound, .flag false) ∧
      ledger.step bound (.bindRunToken "job" "1:a" 1 20) = (bound, .binding .lost) := by
  intro claimed bound
  obtain ⟨hreject, hlost, -⟩ := boundFence claimed "job" "2:b" 2 10 (by decide) [] (by simp)
  exact ⟨hreject _ _ rfl (by decide), hlost "1:a" 1 20 (by decide)⟩

end Omi.Sync
