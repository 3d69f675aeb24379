import Omi.ChatFirst.Effects

/-! That an intent is delivered at most once and handed out boundedly often, exactly in the runs
that write no intent anew whose dead letter is there. -/
namespace Omi.ChatFirst
open Omi.Foundation

namespace IntentStore
variable {ids : IntentIds} {store next : IntentStore} {call : IntentCall} {reply : IntentReply}

/-- No id is one of an intent and of a dead letter. -/
def Exclusive (store : IntentStore) : Prop :=
  ∀ intentId, store.intents.get intentId = none ∨ store.deadLetters.get intentId = none

/-- The intent is there, delivered under that receipt. -/
def Delivered (store : IntentStore) (intentId : String) (receiptId : Option String) : Prop :=
  ∃ intent, store.intents.get intentId = some intent ∧ intent.deliveryState = .delivered ∧
    intent.materializationReceiptId = receiptId

theorem Exclusive.dead_eq_none (h : store.Exclusive) {intentId : String} {intent : ProactiveIntent}
    (hintent : store.intents.get intentId = some intent) :
    store.deadLetters.get intentId = none := by
  rcases h intentId with hnone | hnone
  · rw [hintent] at hnone
    cases hnone
  · exact hnone

/-! ### One step -/

theorem Counts.counted (hsound : Sound store) {intentId : String}
    {attempts : Table DeliveryAttempt} (h : store.Counts intentId attempts) :
    ∀ otherId attempt, attempts.get otherId = some attempt → attempt.valid = true := by
  rcases h with rfl | ⟨counted, rfl, hvalid, -⟩
  · exact hsound.counted
  · intro otherId attempt hattempt
    rw [Table.get_set] at hattempt
    split_ifs at hattempt
    · cases hattempt
      exact hvalid
    · exact hsound.counted otherId attempt hattempt

theorem Sound.stored_set (hsound : Sound store) {intentId : String} {intent : ProactiveIntent}
    (hstate : intent.deliveryState ≠ .deadLetter) (hplain : intent.attempt = {}) :
    ∀ otherId other, (store.intents.set intentId intent).get otherId = some other →
      other.deliveryState ≠ .deadLetter ∧ other.attempt = {} := by
  intro otherId other hother
  rw [Table.get_set] at hother
  split_ifs at hother
  · cases hother
    exact ⟨hstate, hplain⟩
  · exact hsound.stored otherId other hother

theorem Sound.stored_erase (hsound : Sound store) (intentId : String) :
    ∀ otherId other, (store.intents.erase intentId).get otherId = some other →
      other.deliveryState ≠ .deadLetter ∧ other.attempt = {} := by
  intro otherId other hother
  rw [Table.get_erase] at hother
  split_ifs at hother
  exact hsound.stored otherId other hother

theorem valid_requeued (attempt : DeliveryAttempt) : attempt.requeued.valid = true := by
  rw [DeliveryAttempt.valid_iff]
  exact ⟨le_rfl, zero_le_one, le_rfl, le_rfl, rfl⟩

theorem Effect.sound (h : Effect ids store call reply next) (hsound : Sound store) :
    Sound next := by
  cases h with
  | rest => exact ⟨hsound.counted, hsound.stored⟩
  | create _ _ _ _ _ _ hactive hplain =>
    exact ⟨hsound.counted,
      hsound.stored_set (ProactiveIntent.active_ne_deadLetter hactive) hplain⟩
  | count _ hcounts => exact ⟨hcounts.counted hsound, hsound.stored⟩
  | handOut _ hvalid hrequeue hfetch =>
    have hcounts := Counts.counted hsound (.inr ⟨_, rfl, hvalid, hrequeue, by omega⟩)
    exact ⟨hcounts, hsound.stored⟩
  | bury _ _ _ hcounts => exact ⟨hcounts.counted hsound, hsound.stored_erase _⟩
  | deliver _ _ _ _ hdelivered hplain hcounts =>
    exact ⟨hcounts.counted hsound, hsound.stored_set (by simp [hdelivered]) hplain⟩
  | requeue _ _ _ _ hactive hplain =>
    refine ⟨fun otherId attempt hattempt => ?_,
      hsound.stored_set (ProactiveIntent.active_ne_deadLetter hactive) hplain⟩
    simp only [mergeAttempt, Table.get_set] at hattempt
    split_ifs at hattempt
    · cases hattempt
      exact valid_requeued _
    · exact hsound.counted otherId attempt hattempt
  | annotate _ _ hdelivered hstate _ hplain =>
    exact ⟨hsound.counted, hsound.stored_set (by simp [hstate, hdelivered]) hplain⟩

theorem Exclusive.set (h : store.Exclusive) {intentId : String} (intent : ProactiveIntent)
    (hdead : store.deadLetters.get intentId = none) (otherId : String) :
    (store.intents.set intentId intent).get otherId = none ∨
      store.deadLetters.get otherId = none := by
  rw [Table.get_set]
  split_ifs with heq
  · exact .inr (heq ▸ hdead)
  · exact h otherId

theorem Effect.exclusive (h : Effect ids store call reply next) (hexclusive : store.Exclusive)
    (hnew : ¬ Recreates ids store call) : next.Exclusive := by
  intro otherId
  cases h with
  | rest | count | handOut => exact hexclusive otherId
  | create _ _ _ _ _ _ _ _ hdead =>
    exact hexclusive.set _ (hdead.resolve_right hnew) otherId
  | bury =>
    simp only [Table.get_erase, Table.get_set]
    split_ifs
    · exact .inl rfl
    · exact hexclusive otherId
  | deliver _ _ hintent | annotate _ hintent =>
    exact hexclusive.set _ (hexclusive.dead_eq_none hintent) otherId
  | requeue =>
    simp only [Table.get_erase, Table.get_set]
    split_ifs
    · exact .inr rfl
    · exact hexclusive otherId

theorem Delivered.set {intentId otherId : String} {receiptId : Option String}
    (h : store.Delivered intentId receiptId) (intent : ProactiveIntent) (hne : intentId ≠ otherId) :
    ∃ kept, (store.intents.set otherId intent).get intentId = some kept ∧
      kept.deliveryState = .delivered ∧ kept.materializationReceiptId = receiptId := by
  rw [Table.get_set, if_neg hne]
  exact h

/-- A delivered intent is not one that is there and active. -/
theorem Delivered.ne {intentId otherId : String} {receiptId : Option String}
    {intent : ProactiveIntent} (h : store.Delivered intentId receiptId)
    (hintent : store.intents.get otherId = some intent) (hactive : intent.active = true) :
    intentId ≠ otherId := by
  rintro rfl
  obtain ⟨delivered, hget, hstate, -⟩ := h
  rw [hintent] at hget
  cases hget
  simp [ProactiveIntent.active, hstate] at hactive

/-- The delivery of an intent is final: its state and its receipt stay. -/
theorem Effect.delivered (h : Effect ids store call reply next) (hexclusive : store.Exclusive)
    {intentId : String} {receiptId : Option String}
    (hdelivered : store.Delivered intentId receiptId) : next.Delivered intentId receiptId := by
  cases h with
  | rest | count | handOut => exact hdelivered
  | create _ _ _ _ _ hnew =>
    refine hdelivered.set _ ?_
    rintro rfl
    obtain ⟨_, hget, -⟩ := hdelivered
    rw [hnew] at hget
    cases hget
  | bury _ hintent hactive =>
    have hne := hdelivered.ne hintent hactive
    obtain ⟨intent, hget, hkept⟩ := hdelivered
    exact ⟨intent, by rw [Table.get_erase, if_neg hne, hget], hkept⟩
  | deliver _ _ hintent hactive => exact hdelivered.set _ (hdelivered.ne hintent hactive)
  | requeue _ _ hdead =>
    refine hdelivered.set _ ?_
    rintro rfl
    obtain ⟨_, hget, -⟩ := hdelivered
    rw [hexclusive.dead_eq_none hget] at hdead
    cases hdead
  | @annotate annotatedId intent annotated _ hintent _ hstate hreceipt =>
    by_cases heq : intentId = annotatedId
    · subst heq
      obtain ⟨_, hget, hkept⟩ := hdelivered
      rw [hintent] at hget
      cases hget
      exact ⟨annotated, by rw [Table.get_set, if_pos rfl], by rw [hstate, hreceipt]; exact hkept⟩
    · exact hdelivered.set _ heq

/-- A dead letter stays until a repair makes it ready again. -/
theorem Effect.dead (h : Effect ids store call reply next) (hexclusive : store.Exclusive)
    {intentId : String} {dead : ProactiveIntent}
    (hdead : store.deadLetters.get intentId = some dead) :
    requeues intentId (call, reply) = true ∨ next.deadLetters.get intentId = some dead := by
  cases h with
  | rest | create | count | handOut | deliver | annotate => exact .inr hdead
  | @bury buriedId _ _ _ _ hintent =>
    have hne : intentId ≠ buriedId := by
      rintro rfl
      rw [hexclusive.dead_eq_none hintent] at hdead
      cases hdead
    exact .inr (by rw [Table.get_set, if_neg hne, hdead])
  | @requeue requeuedId _ _ _ _ hcall hreply =>
    by_cases heq : intentId = requeuedId
    · obtain ⟨_, rfl⟩ := hreply
      subst heq hcall
      exact .inl (by simp [requeues])
    · exact .inr (by rw [Table.get_erase, if_neg heq, hdead])

/-- A turn is added only by the delivery of an intent that was active. -/
theorem Effect.turns (h : Effect ids store call reply next) :
    next.turns.Sublist store.turns ∨ ∃ intentId intent receiptId,
      call.delivers = some intentId ∧ store.intents.get intentId = some intent ∧
        intent.active = true ∧ intent.consumesTurnBudget = true ∧
        next.Delivered intentId receiptId := by
  cases h with
  | rest _ _ _ hturns => exact .inl hturns
  | create _ _ _ hturns => exact .inl hturns
  | count | handOut | bury | requeue | annotate => exact .inl (List.Sublist.refl _)
  | deliver _ hcall hintent hactive hdelivered _ _ hbudget =>
    rcases hbudget with hconsumes | rfl
    · exact .inr ⟨_, _, _, hcall, hintent, hactive, hconsumes, _,
        by rw [Table.get_set, if_pos rfl], hdelivered, rfl⟩
    · exact .inl (List.Sublist.refl _)

theorem Counts.attemptOf {countedId : String} {attempts : Table DeliveryAttempt}
    (h : store.Counts countedId attempts) (intentId : String) :
    ((attempts.get intentId).getD {}).requeueCount = (store.attemptOf intentId).requeueCount ∧
      (store.attemptOf intentId).fetchCount ≤ ((attempts.get intentId).getD {}).fetchCount := by
  rcases h with rfl | ⟨counted, rfl, -, hrequeue, hfetch⟩
  · exact ⟨rfl, le_rfl⟩
  · rw [Table.get_set]
    split_ifs with heq
    · rw [heq]
      exact ⟨hrequeue, hfetch⟩
    · exact ⟨rfl, le_rfl⟩

/-- What a step does to the counters of an intent: at most raise the fetches, hand it out within
the budget, or begin anew after the one repair. -/
theorem Effect.attempts (h : Effect ids store call reply next) (intentId : String) :
    (Quiet (call, reply) ∧
      (next.attemptOf intentId).requeueCount = (store.attemptOf intentId).requeueCount ∧
      (store.attemptOf intentId).fetchCount ≤ (next.attemptOf intentId).fetchCount) ∨
    (requeues intentId (call, reply) = false ∧
      (next.attemptOf intentId).requeueCount = (store.attemptOf intentId).requeueCount ∧
      (next.attemptOf intentId).fetchCount = (store.attemptOf intentId).fetchCount + 1 ∧
      (next.attemptOf intentId).fetchCount < unacknowledgedFetchBudget) ∨
    (handsOut intentId (call, reply) = false ∧ (store.attemptOf intentId).requeueCount = 0 ∧
      (next.attemptOf intentId).requeueCount = 1 ∧ (next.attemptOf intentId).fetchCount = 0) ∨
    (handsOut intentId (call, reply) = false ∧ requeues intentId (call, reply) = false ∧
      next.attemptOf intentId = store.attemptOf intentId) := by
  cases h with
  | rest _ _ hquiet => exact .inl ⟨hquiet, rfl, le_rfl⟩
  | create _ _ hquiet => exact .inl ⟨hquiet, rfl, le_rfl⟩
  | count hquiet hcounts => exact .inl ⟨hquiet, hcounts.attemptOf intentId⟩
  | @handOut fetchedId attempt _ _ _ hcall _ hrequeue hfetch hbudget =>
    subst hcall
    by_cases heq : intentId = fetchedId
    · subst heq
      refine .inr (.inl ⟨rfl, ?_⟩)
      simp only [IntentStore.attemptOf, Table.get_set, if_true, Option.getD_some]
      exact ⟨hrequeue, hfetch, hbudget⟩
    · refine .inr (.inr (.inr ⟨?_, rfl, ?_⟩))
      · unfold handsOut
        split
        · rename_i hevent
          cases hevent
          exact beq_eq_false_iff_ne.mpr (Ne.symm heq)
        · rfl
      · simp only [IntentStore.attemptOf, Table.get_set, if_neg heq]
  | bury hquiet _ _ hcounts => exact .inl ⟨hquiet, hcounts.attemptOf intentId⟩
  | deliver hquiet _ _ _ _ _ hcounts => exact .inl ⟨hquiet, hcounts.attemptOf intentId⟩
  | @requeue requeuedId _ _ _ _ hcall hreply _ hfirst =>
    obtain ⟨requeued, rfl⟩ := hreply
    subst hcall
    by_cases heq : intentId = requeuedId
    · subst heq
      refine .inr (.inr (.inl ⟨rfl, hfirst, ?_⟩))
      simp only [IntentStore.attemptOf, mergeAttempt, Table.get_set, if_true, Option.getD_some]
      exact ⟨rfl, rfl⟩
    · refine .inr (.inr (.inr ⟨rfl, beq_eq_false_iff_ne.mpr (Ne.symm heq), ?_⟩))
      simp only [IntentStore.attemptOf, mergeAttempt, Table.get_set, if_neg heq]
  | annotate hquiet => exact .inl ⟨hquiet, rfl, le_rfl⟩

/-! ### What is left to happen -/

/-- What every step keeps that writes no intent anew whose dead letter is there. -/
structure Kept (store : IntentStore) : Prop where
  sound : Sound store
  exclusive : store.Exclusive

theorem Kept.step (h : Kept store) (hnew : ¬ Recreates ids store call) :
    Kept ((intentStore ids).step store call).1 :=
  let heffect := effect_step ids h.sound call
  ⟨heffect.sound h.sound, heffect.exclusive h.exclusive hnew⟩

/-- The repairs that the intent has left. -/
def repairsLeft (intentId : String) (store : IntentStore) : ℕ :=
  (1 - (store.attemptOf intentId).requeueCount).toNat

/-- The fetches that may still hand the intent out, the repairs it has left included. -/
def fetchesLeft (intentId : String) (store : IntentStore) : ℕ :=
  19 * repairsLeft intentId store + (19 - (store.attemptOf intentId).fetchCount).toNat

/-- The releases that the deferral has left. -/
def releasesLeft (deferralId : String) (store : IntentStore) : ℕ :=
  if (store.deferrals.get deferralId).any (·.state == .released) then 0 else 1

theorem repairsLeft_step (hsound : Sound store) (intentId : String) :
    (requeues intentId (call, ((intentStore ids).step store call).2)).toNat +
      repairsLeft intentId ((intentStore ids).step store call).1 ≤ repairsLeft intentId store := by
  unfold repairsLeft
  rcases (effect_step ids hsound call).attempts intentId with
    ⟨hquiet, hrequeue, -⟩ | ⟨hnone, hrequeue, -⟩ | ⟨-, hbefore, hafter, -⟩ | ⟨-, hnone, heq⟩
  · rw [(hquiet intentId).2, hrequeue, Bool.toNat_false, zero_add]
  · rw [hnone, hrequeue, Bool.toNat_false, zero_add]
  · have hone := Bool.toNat_le (requeues intentId (call, ((intentStore ids).step store call).2))
    rw [hbefore, hafter]
    omega
  · rw [hnone, heq, Bool.toNat_false, zero_add]

theorem fetchesLeft_step (hsound : Sound store) (intentId : String) :
    (handsOut intentId (call, ((intentStore ids).step store call).2)).toNat +
      fetchesLeft intentId ((intentStore ids).step store call).1 ≤ fetchesLeft intentId store := by
  unfold fetchesLeft repairsLeft
  rcases (effect_step ids hsound call).attempts intentId with
    ⟨hquiet, hrequeue, hfetch⟩ | ⟨-, hrequeue, hfetch, hbudget⟩ | ⟨hnone, hbefore, hafter, hfetch⟩ |
      ⟨hnone, -, heq⟩
  · rw [(hquiet intentId).1, hrequeue, Bool.toNat_false]
    omega
  · have hone := Bool.toNat_le (handsOut intentId (call, ((intentStore ids).step store call).2))
    rw [hrequeue]
    simp only [unacknowledgedFetchBudget] at hbudget
    omega
  · rw [hnone, hbefore, hafter, hfetch, Bool.toNat_false]
    omega
  · rw [hnone, heq, Bool.toNat_false, zero_add]

/-- A call that is not on deferrals leaves them all. -/
theorem Effect.deferrals (h : Effect ids store call reply next) (hcall : call.onDeferral = false) :
    next.deferrals = store.deferrals := by
  cases h with
  | rest _ _ _ _ hdeferrals => exact hdeferrals hcall
  | create _ _ _ _ hdeferrals => exact hdeferrals hcall
  | count | handOut | bury | deliver | requeue | annotate => rfl

theorem recordDeferral_releasesLeft {continuityKey : String} {subject : ChatFirstSubject}
    {question : QuestionCardSpec} {accountGeneration : ℤ} {now : ℚ}
    {result : DeferralReceipt × Bool} (deferralId : String)
    (h : store.recordDeferral ids continuityKey subject question accountGeneration now =
      .ok (next, result)) : releasesLeft deferralId next = releasesLeft deferralId store := by
  obtain rfl | ⟨hdeferral, deferral, hpending, rfl⟩ := recordDeferral_ok h
  · rfl
  · unfold releasesLeft
    rw [Table.get_set]
    by_cases heq : deferralId = ids.proactiveDeferralId accountGeneration continuityKey
    · simp [heq, hdeferral, hpending]
    · rw [if_neg heq]

/-- A release takes the only one that its deferral has, and answers with nothing otherwise. -/
theorem releaseDeferral_releasesLeft {deferred : ProactiveDeferral} {accountGeneration : ℤ} {now : ℚ}
    {intent : Option ProactiveIntent} (deferralId : String)
    (h : store.releaseDeferral ids deferred accountGeneration now = .ok (next, intent)) :
    (intent.isSome && deferred.deferralId == deferralId).toNat + releasesLeft deferralId next ≤
      releasesLeft deferralId store := by
  have htaken : ∀ {current released : ProactiveDeferral} {intents : Table ProactiveIntent},
      store.deferrals.get deferred.deferralId = some current → current.state = .pending →
      released.state = .released →
      (deferred.deferralId == deferralId).toNat + releasesLeft deferralId
        { store with intents, deferrals := store.deferrals.set deferred.deferralId released } ≤
          releasesLeft deferralId store := by
    intro current released intents hcurrent hpending hreleased
    simp only [releasesLeft, Table.get_set]
    by_cases heq : deferralId = deferred.deferralId
    · subst heq
      simp [hcurrent, hpending, hreleased]
    · rw [if_neg heq, beq_eq_false_iff_ne.mpr (Ne.symm heq), Bool.toNat_false, zero_add]
  obtain ⟨rfl, rfl⟩ | ⟨-, current, released, hcurrent, -, hpending, hreleased, hnext⟩ :=
    releaseDeferral_ok h
  · simp
  · have hfirst : (intent.isSome && deferred.deferralId == deferralId).toNat ≤
        (deferred.deferralId == deferralId).toNat := by
      cases intent <;> simp
    obtain rfl | ⟨-, rfl⟩ := hnext
    · exact (Nat.add_le_add_right hfirst _).trans (htaken hcurrent hpending hreleased)
    · exact (Nat.add_le_add_right hfirst _).trans (htaken hcurrent hpending hreleased)

theorem releasesLeft_step (hsound : Sound store) (deferralId : String) :
    (releases deferralId (call, ((intentStore ids).step store call).2)).toNat +
      releasesLeft deferralId ((intentStore ids).step store call).1 ≤
        releasesLeft deferralId store := by
  have heffect := effect_step ids hsound call
  have hother : call.onDeferral = false → releasesLeft deferralId
      ((intentStore ids).step store call).1 = releasesLeft deferralId store := fun hcall => by
    unfold releasesLeft
    rw [heffect.deferrals hcall]
  cases call with
  | recordDeferral continuityKey subject question accountGeneration now =>
    cases hresult : store.recordDeferral ids continuityKey subject question accountGeneration
        now with
    | error error => simp [intentStore, commit, hresult, releases]
    | ok answer =>
      have hleft := recordDeferral_releasesLeft deferralId hresult
      simp [intentStore, commit, hresult, releases, hleft]
  | release deferred accountGeneration now =>
    cases hresult : store.releaseDeferral ids deferred accountGeneration now with
    | error error => simp [intentStore, commit, hresult, releases]
    | ok answer =>
      have hleft := releaseDeferral_releasesLeft deferralId hresult
      cases hintent : answer.2 with
      | none => simpa [intentStore, commit, hresult, releases, hintent] using hleft
      | some intent => simpa [intentStore, commit, hresult, releases, hintent] using hleft
  | _ =>
    rw [hother rfl]
    simp [releases]

/-! ### Runs -/

/-- The intents to which the turns belong that a run adds, in their order. -/
def turnTakers (ids : IntentIds) (store : IntentStore) : List IntentCall → List (Option String)
  | [] => []
  | call :: rest =>
    let next := ((intentStore ids).step store call).1
    if next.turns.Sublist store.turns then turnTakers ids next rest
    else call.delivers :: turnTakers ids next rest

/-- No call of the run writes an intent anew whose dead letter is there. -/
def NoneRecreated (ids : IntentIds) (store : IntentStore) (calls : List IntentCall) : Prop :=
  EveryStep (fun store call => ((intentStore ids).step store call).1)
    (fun store call => ¬ Recreates ids store call) store calls

theorem Kept.state (h : Kept store) {calls : List IntentCall}
    (hnew : NoneRecreated ids store calls) : Kept ((intentStore ids).state store calls) :=
  Machine.invariant_of_everyStep hnew (fun _ _ hkept hcall => hkept.step hcall) h

theorem NoneRecreated.kept (h : Kept store) {calls : List IntentCall}
    (hnew : NoneRecreated ids store calls) :
    EveryStep (fun store call => ((intentStore ids).step store call).1)
      (fun store call => Kept store ∧ ¬ Recreates ids store call) store calls :=
  EveryStep.guarded hnew h fun _ _ hkept hcall => hkept.step hcall

/-- Each intent takes one turn at most, and none once it is delivered. -/
theorem turnTakers_nodup (h : Kept store) {calls : List IntentCall}
    (hnew : NoneRecreated ids store calls) :
    none ∉ turnTakers ids store calls ∧ (turnTakers ids store calls).Nodup ∧
      ∀ intentId receiptId, store.Delivered intentId receiptId →
        some intentId ∉ turnTakers ids store calls := by
  induction calls generalizing store with
  | nil => exact ⟨List.not_mem_nil, List.nodup_nil, fun _ _ _ => List.not_mem_nil⟩
  | cons call rest ih =>
    have heffect := effect_step ids h.sound call
    obtain ⟨hnone, hnodup, hdone⟩ := ih (h.step hnew.1) hnew.2
    have hstays : ∀ intentId receiptId, store.Delivered intentId receiptId →
        some intentId ∉ turnTakers ids ((intentStore ids).step store call).1 rest :=
      fun intentId receiptId hdelivered =>
        hdone intentId receiptId (heffect.delivered h.exclusive hdelivered)
    rw [turnTakers]
    split_ifs with hturns
    · exact ⟨hnone, hnodup, hstays⟩
    · obtain ⟨takerId, intent, receiptId, hcall, hintent, hactive, -, htaken⟩ :=
        heffect.turns.resolve_left hturns
      rw [hcall]
      refine ⟨?_, List.nodup_cons.mpr ⟨hdone takerId receiptId htaken, hnodup⟩, ?_⟩
      · simp [hnone]
      · intro intentId otherReceipt hdelivered hmem
        rcases List.mem_cons.mp hmem with heq | hrest
        · exact hdelivered.ne hintent hactive (Option.some.inj heq)
        · exact hstays intentId otherReceipt hdelivered hrest

/-- A cold start that finds no intent writes one, whether or not its dead letter is there. -/
theorem getOrCreateColdStartIntent_new {source : IntentSource} {continuityKey : String}
    {subject : Option ChatFirstSubject} {blocks : List ChatFirstBlockSpec} {accountGeneration : ℤ}
    {now : ℚ} (hsource : isColdStart source = true)
    (hvalid : (coldStartIntent ids source continuityKey subject blocks accountGeneration
      now).valid = true)
    (hcontrol : store.controlGeneration = accountGeneration)
    (hnone : store.intents.get (coldStartIntent ids source continuityKey subject blocks
      accountGeneration now).intentId = none) :
    let intent := coldStartIntent ids source continuityKey subject blocks accountGeneration now
    store.getOrCreateColdStartIntent ids source continuityKey subject blocks accountGeneration
      now = .ok ({ store with intents := store.intents.set intent.intentId intent.payload },
        intent, true) := by
  intro intent
  unfold getOrCreateColdStartIntent
  refine bind_eq_ok_iff.mpr ⟨(), check_eq_ok_iff.mpr hsource, ?_⟩
  refine bind_eq_ok_iff.mpr ⟨(), check_eq_ok_iff.mpr hvalid, ?_⟩
  refine bind_eq_ok_iff.mpr ⟨(), check_eq_ok_iff.mpr (beq_iff_eq.mpr hcontrol), ?_⟩
  rw [hnone]
  rfl

theorem releaseDeferral_new {deferred current : ProactiveDeferral} {accountGeneration : ℤ} {now : ℚ}
    (hcontrol : store.controlGeneration = accountGeneration)
    (hcurrent : store.deferrals.get deferred.deferralId = some current)
    (hgeneration : current.accountGeneration = accountGeneration)
    (hpending : current.state = .pending)
    (hnone : store.intents.get (reraisedIntent ids deferred accountGeneration now).intentId = none) :
    let intent := reraisedIntent ids deferred accountGeneration now
    ∃ deferrals, store.releaseDeferral ids deferred accountGeneration now =
      .ok ({ store with
        intents := store.intents.set intent.intentId intent.payload
        deferrals }, some intent) := by
  subst hgeneration
  intro intent
  let released : ProactiveDeferral :=
    { current with state := .released, releasedIntentId := some intent.intentId }
  refine ⟨store.deferrals.set deferred.deferralId released, ?_⟩
  unfold releaseDeferral
  refine bind_eq_ok_iff.mpr ⟨(), check_eq_ok_iff.mpr (beq_iff_eq.mpr hcontrol), ?_⟩
  simp only [hcurrent, hpending, hnone, ne_eq, not_true_eq_false, or_self, if_false]
  rfl

/-- Where an intent is written anew, its id is that of a dead letter too. -/
theorem not_exclusive_of_recreates (h : Recreates ids store call) :
    ¬ ((intentStore ids).step store call).1.Exclusive := by
  cases call with
  | coldStart source continuityKey subject blocks accountGeneration now =>
    obtain ⟨hsource, hvalid, hcontrol, hnone, hdead⟩ := h
    intro hexclusive
    rcases hexclusive (coldStartIntent ids source continuityKey subject blocks accountGeneration
      now).intentId with hnot | hnot
    all_goals
      simp only [intentStore, commit, getOrCreateColdStartIntent_new hsource hvalid hcontrol
        hnone] at hnot
    · simp at hnot
    · exact hdead hnot
  | release deferred accountGeneration now =>
    obtain ⟨hcontrol, ⟨current, hcurrent, hgeneration, hpending⟩, hnone, hdead⟩ := h
    obtain ⟨deferrals, hresult⟩ := releaseDeferral_new hcontrol hcurrent hgeneration hpending hnone
    intro hexclusive
    rcases hexclusive (reraisedIntent ids deferred accountGeneration now).intentId with hnot | hnot
    all_goals simp only [intentStore, commit, hresult] at hnot
    · simp at hnot
    · exact hdead hnot
  | _ => exact h.elim

theorem noneRecreated_of_exclusive {calls : List IntentCall}
    (h : ∀ before after, calls = before ++ after →
      ((intentStore ids).state store before).Exclusive) : NoneRecreated ids store calls := by
  induction calls generalizing store with
  | nil => trivial
  | cons call rest ih =>
    refine ⟨fun hrecreates => ?_, ih fun before after hsplit => ?_⟩
    · exact not_exclusive_of_recreates hrecreates (h [call] rest rfl)
    · exact h (call :: before) after (by rw [hsplit, List.cons_append])

end IntentStore

open IntentStore

/-- What is promised of the runs of the intents of a user. -/
structure DeliversOnce (ids : IntentIds) (start : IntentStore) (calls : List IntentCall) :
    Prop where
  neverBoth : ∀ before after, calls = before ++ after →
    ((intentStore ids).state start before).Exclusive
  deliveredStays : ∀ before between after, calls = before ++ between ++ after →
    ∀ intentId receiptId, ((intentStore ids).state start before).Delivered intentId receiptId →
      ((intentStore ids).state start (before ++ between)).Delivered intentId receiptId
  deadStays : ∀ before call after, calls = before ++ call :: after →
    ∀ intentId dead,
      ((intentStore ids).state start before).deadLetters.get intentId = some dead →
        let answer := (intentStore ids).step ((intentStore ids).state start before) call
        requeues intentId (call, answer.2) = true ∨
          answer.1.deadLetters.get intentId = some dead
  readyOnce : ∀ intentId, ((intentStore ids).trace start calls).countP (requeues intentId) ≤ 1
  handedOut : ∀ intentId, ((intentStore ids).trace start calls).countP (handsOut intentId) < 40
  oneTurn : none ∉ turnTakers ids start calls ∧ (turnTakers ids start calls).Nodup
  releasedOnce : ∀ deferralId,
    ((intentStore ids).trace start calls).countP (releases deferralId) ≤ 1

/-- Before there are any intents. -/
def IntentStore.empty (accountGeneration : ℤ) : IntentStore := { control := some accountGeneration }

theorem kept_empty (accountGeneration : ℤ) : Kept (IntentStore.empty accountGeneration) where
  sound := ⟨fun _ _ hattempt => (nomatch hattempt), fun _ _ hintent => (nomatch hintent)⟩
  exclusive := fun _ => .inl rfl

theorem deliversOnce_of_noneRecreated {ids : IntentIds} {accountGeneration : ℤ}
    {calls : List IntentCall}
    (h : NoneRecreated ids (IntentStore.empty accountGeneration) calls) :
    DeliversOnce ids (IntentStore.empty accountGeneration) calls := by
  have hkept := kept_empty accountGeneration
  have hguarded := h.kept hkept
  have hparts : ∀ before after, calls = before ++ after →
      NoneRecreated ids (IntentStore.empty accountGeneration) before ∧
        NoneRecreated ids
          ((intentStore ids).state (IntentStore.empty accountGeneration) before) after := by
    rintro before after rfl
    exact Machine.everyStep_append.mp h
  refine ⟨fun before after hsplit => (hkept.state (hparts before after hsplit).1).exclusive,
    ?_, ?_, fun intentId => ?_, fun intentId => ?_, ?_, fun deferralId => ?_⟩
  · intro before between after hsplit intentId receiptId hdelivered
    rw [List.append_assoc] at hsplit
    obtain ⟨hbefore, hrest⟩ := hparts before (between ++ after) hsplit
    have hbetween := (Machine.everyStep_append.mp hrest).1
    rw [Machine.state_append]
    exact (Machine.invariant_of_everyStep
      (I := fun store => Kept store ∧ store.Delivered intentId receiptId) hbetween
      (fun _ call hstore hcall => ⟨hstore.1.step hcall,
        (effect_step ids hstore.1.sound call).delivered hstore.1.exclusive hstore.2⟩)
      ⟨hkept.state hbefore, hdelivered⟩).2
  · intro before call after hsplit intentId dead hdead
    have hstore := hkept.state (hparts before _ hsplit).1
    exact (effect_step ids hstore.sound call).dead hstore.exclusive hdead
  · exact Machine.countP_trace_le (repairsLeft intentId)
      (fun _ _ hstore => repairsLeft_step hstore.1.sound intentId) hguarded
  · have hcount := Machine.countP_trace_le (fetchesLeft intentId)
      (fun _ _ hstore => fetchesLeft_step hstore.1.sound intentId) hguarded
    have hleft : fetchesLeft intentId (IntentStore.empty accountGeneration) = 38 := rfl
    omega
  · obtain ⟨hnone, hnodup, -⟩ := turnTakers_nodup hkept h
    exact ⟨hnone, hnodup⟩
  · exact Machine.countP_trace_le (releasesLeft deferralId)
      (fun _ _ hstore => releasesLeft_step hstore.1.sound deferralId) hguarded

/-- The intents of a user are delivered at most once, and handed out boundedly often, in exactly
the runs in which no cold start and no release of a deferral writes an intent anew whose dead
letter is there. -/
theorem deliversOnce_iff (ids : IntentIds) (accountGeneration : ℤ) (calls : List IntentCall) :
    DeliversOnce ids (IntentStore.empty accountGeneration) calls ↔
      NoneRecreated ids (IntentStore.empty accountGeneration) calls :=
  ⟨fun h => noneRecreated_of_exclusive h.neverBoth, deliversOnce_of_noneRecreated⟩

/-- A cold start whose intent died of three rejections, asked for again. -/
def coldStartTwice : List IntentCall :=
  let coldStart : IntentCall :=
    .coldStart .coldStartRich "opener" none [.taskCard "t1"] 3 0
  let reject : IntentCall := .reject "cfi_d1" "invalid_intent" 3 1
  [coldStart, reject, reject, reject, coldStart]

/-- The second cold start does not look at the dead letters. -/
theorem not_deliversOnce_coldStartTwice :
    ¬ DeliversOnce ⟨"u", fun _ => "d1"⟩ (IntentStore.empty 3) coldStartTwice := by
  intro h
  have hboth := h.neverBoth coldStartTwice [] rfl "cfi_d1"
  revert hboth
  decide

end Omi.ChatFirst
