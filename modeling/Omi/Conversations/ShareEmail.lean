import Mathlib
import Omi.Foundation.Runs

/-! The two ledgers of the share e-mails of one conversation, and the requests that claim
recipients, send to them, and confirm or release their claims at any later time. -/
namespace Omi.Conversations
open Omi.Foundation

/-! ### The ledgers -/

def shareEmailClaimTtlSeconds : ℚ := 180

structure ShareLedger where
  shareEmailSentTo : List String := []
  shareEmailInFlight : String → Option ℚ := fun _ => none

namespace ShareLedger

/-- A claim that is younger than its lifetime. -/
def fresh (ledger : ShareLedger) (stamp : ℚ) (email : String) : Bool :=
  (ledger.shareEmailInFlight email).any fun claimedAt =>
    stamp - claimedAt < shareEmailClaimTtlSeconds

structure Reservation where
  toDispatch : List String := []
  alreadySent : List String := []
  inFlightElsewhere : List String := []

/-- The round of the reservation for one address. -/
def classify (ledger : ShareLedger) (stamp : ℚ) (reservation : Reservation) (email : String) :
    Reservation :=
  if email ∈ ledger.shareEmailSentTo then
    { reservation with alreadySent := reservation.alreadySent ++ [email] }
  else if ledger.fresh stamp email then
    { reservation with inFlightElsewhere := reservation.inFlightElsewhere ++ [email] }
  else { reservation with toDispatch := reservation.toDispatch ++ [email] }

/-- The transaction: what it answers, and the claims it writes. -/
def reserveShareEmailRecipients (ledger : ShareLedger) (emails : List String) (stamp : ℚ) :
    ShareLedger × Reservation :=
  let reservation := emails.foldl (ledger.classify stamp) {}
  ({ ledger with
      shareEmailInFlight := fun email =>
        if email ∈ reservation.toDispatch then some stamp
        else ledger.shareEmailInFlight email },
    reservation)

/-- The claims go, whoever wrote them. -/
def releaseShareEmailRecipients (ledger : ShareLedger) (emails : List String) : ShareLedger :=
  { ledger with
    shareEmailInFlight := fun email =>
      if email ∈ emails then none else ledger.shareEmailInFlight email }

/-- `ArrayUnion`: each of the added values that the array does not have yet, in turn. -/
def arrayUnion (array added : List String) : List String :=
  added.foldl (fun array value => if value ∈ array then array else array ++ [value]) array

@[simp] theorem mem_arrayUnion {array added : List String} {value : String} :
    value ∈ arrayUnion array added ↔ value ∈ array ∨ value ∈ added := by
  induction added generalizing array with
  | nil => simp [arrayUnion]
  | cons first rest ih =>
    have hunion : arrayUnion array (first :: rest) =
        arrayUnion (if first ∈ array then array else array ++ [first]) rest := rfl
    rw [hunion, ih, List.mem_cons]
    by_cases hfirst : first ∈ array
    · rw [if_pos hfirst]
      grind
    · rw [if_neg hfirst, List.mem_append, List.mem_singleton, or_assoc]

def confirmShareEmailRecipients (ledger : ShareLedger) (emails : List String) : ShareLedger :=
  { ledger.releaseShareEmailRecipients emails with
    shareEmailSentTo := arrayUnion ledger.shareEmailSentTo emails }

section classify
variable {ledger : ShareLedger} {stamp : ℚ} {emails : List String} {email : String}

theorem mem_foldl_classify {reservation : Reservation} :
    email ∈ (emails.foldl (ledger.classify stamp) reservation).toDispatch ↔
      email ∈ reservation.toDispatch ∨
        (email ∈ emails ∧ email ∉ ledger.shareEmailSentTo ∧ ledger.fresh stamp email = false) := by
  induction emails generalizing reservation with
  | nil => simp
  | cons head rest ih =>
    have hhead : email ∈ (ledger.classify stamp reservation head).toDispatch ↔
        email ∈ reservation.toDispatch ∨ (email = head ∧ head ∉ ledger.shareEmailSentTo ∧
          ledger.fresh stamp head = false) := by
      unfold classify
      by_cases hsent : head ∈ ledger.shareEmailSentTo
      · simp [hsent]
      · cases hfresh : ledger.fresh stamp head with
        | true => simp [hsent]
        | false => simp [hsent]
    rw [List.foldl_cons, ih, hhead, List.mem_cons]
    constructor
    · rintro ((hold | ⟨rfl, hunsent, hstale⟩) | ⟨hrest, hunsent, hstale⟩)
      · exact .inl hold
      · exact .inr ⟨.inl rfl, hunsent, hstale⟩
      · exact .inr ⟨.inr hrest, hunsent, hstale⟩
    · rintro (hold | ⟨rfl | hrest, hunsent, hstale⟩)
      · exact .inl (.inl hold)
      · exact .inl (.inr ⟨rfl, hunsent, hstale⟩)
      · exact .inr ⟨hrest, hunsent, hstale⟩

/-- An address is handed out exactly when it was asked for, was not sent to and has no claim
that is fresh. -/
theorem mem_toDispatch :
    email ∈ (ledger.reserveShareEmailRecipients emails stamp).2.toDispatch ↔
      email ∈ emails ∧ email ∉ ledger.shareEmailSentTo ∧ ledger.fresh stamp email = false := by
  rw [reserveShareEmailRecipients, mem_foldl_classify]
  simp

end classify

theorem mem_sentTo_confirm {ledger : ShareLedger} {emails : List String} {email : String} :
    email ∈ (ledger.confirmShareEmailRecipients emails).shareEmailSentTo ↔
      email ∈ ledger.shareEmailSentTo ∨ email ∈ emails := by
  rw [confirmShareEmailRecipients, mem_arrayUnion]

end ShareLedger

/-! ### The requests -/

/-- A request with the stamp of its claims, the recipients it was handed, and those of them
that it has confirmed or released. -/
structure ShareRequest where
  stamp : ℚ
  toDispatch : List String
  settled : List String := []
deriving DecidableEq

/-- What happens to a recipient: `dropped` names the request that had written the claim. -/
inductive ShareEvent where
  | confirmed (request : ℕ) (email : String)
  | dropped (request : ℕ) (email : String) (taker : ℕ)
deriving DecidableEq, Repr

/-- The conversation's ledgers, the requests so far in the order of their reservations, and
what the ledgers do not say: whose claim each one is, and what happened. -/
structure ShareWorld where
  clock : ℚ
  ledger : ShareLedger
  requests : List ShareRequest := []
  takers : String → Option ℕ := fun _ => none
  log : List ShareEvent := []

/-- The stamp of a reservation is read `lag` before its transaction commits. -/
inductive ShareAction where
  | wait (elapsed : ℚ)
  | reserve (emails : List String) (lag : ℚ)
  | confirm (request : ℕ) (emails : List String)
  | release (request : ℕ) (emails : List String)

namespace ShareWorld

/-- A request may settle recipients that it was handed and has not settled. -/
def MaySettle (request : ShareRequest) (emails : List String) : Prop :=
  ∀ email ∈ emails, email ∈ request.toDispatch ∧ email ∉ request.settled

instance (request : ShareRequest) (emails : List String) :
    Decidable (MaySettle request emails) :=
  inferInstanceAs (Decidable (∀ _ ∈ _, _))

def stamp (world : ShareWorld) (lag : ℚ) : ℚ :=
  world.clock - max 0 lag

/-- The world after a reservation with its result. -/
def reserve (world : ShareWorld) (reserved : ShareLedger × ShareLedger.Reservation) (lag : ℚ) :
    ShareWorld :=
  { world with
    ledger := reserved.1
    requests := world.requests ++ [ShareRequest.mk (world.stamp lag) reserved.2.toDispatch []]
    takers := fun email =>
      if email ∈ reserved.2.toDispatch then some world.requests.length
      else world.takers email }

/-- The claims that are there, with their writers, as the update of `request` drops them. -/
def drops (world : ShareWorld) (request : ℕ) (emails : List String) : List ShareEvent :=
  emails.filterMap fun email =>
    if (world.ledger.shareEmailInFlight email).isSome then
      (world.takers email).map (ShareEvent.dropped request email)
    else none

/-- The world after an update that settles recipients of a request. -/
def settle (world : ShareWorld) (number : ℕ) (request : ShareRequest) (emails : List String)
    (ledger : ShareLedger) (events : List ShareEvent) : ShareWorld :=
  { world with
    ledger := ledger
    requests := world.requests.set number { request with settled := request.settled ++ emails }
    takers := fun email => if email ∈ emails then none else world.takers email
    log := world.log ++ world.drops number emails ++ events }

def step (world : ShareWorld) : ShareAction → ShareWorld
  | .wait elapsed => { world with clock := world.clock + max 0 elapsed }
  | .reserve emails lag =>
    world.reserve (world.ledger.reserveShareEmailRecipients emails (world.stamp lag)) lag
  | .confirm number emails =>
    match world.requests[number]? with
    | some request =>
      if MaySettle request emails then
        world.settle number request emails (world.ledger.confirmShareEmailRecipients emails)
          (emails.map (ShareEvent.confirmed number))
      else world
    | none => world
  | .release number emails =>
    match world.requests[number]? with
    | some request =>
      if MaySettle request emails then
        world.settle number request emails (world.ledger.releaseShareEmailRecipients emails) []
      else world
    | none => world

/-- A confirmation settles recipients of its request, or does nothing. -/
theorem confirm_cases (world : ShareWorld) (number : ℕ) (emails : List String) :
    world.step (.confirm number emails) = world ∨
      ∃ request, world.requests[number]? = some request ∧ MaySettle request emails ∧
        world.step (.confirm number emails) =
          world.settle number request emails (world.ledger.confirmShareEmailRecipients emails)
            (emails.map (ShareEvent.confirmed number)) := by
  simp only [step]
  cases world.requests[number]? with
  | none => exact .inl rfl
  | some request =>
    by_cases hmay : MaySettle request emails
    · exact .inr ⟨request, rfl, hmay, if_pos hmay⟩
    · exact .inl (if_neg hmay)

/-- So does a release. -/
theorem release_cases (world : ShareWorld) (number : ℕ) (emails : List String) :
    world.step (.release number emails) = world ∨
      ∃ request, world.requests[number]? = some request ∧ MaySettle request emails ∧
        world.step (.release number emails) =
          world.settle number request emails (world.ledger.releaseShareEmailRecipients emails)
            [] := by
  simp only [step]
  cases world.requests[number]? with
  | none => exact .inl rfl
  | some request =>
    by_cases hmay : MaySettle request emails
    · exact .inr ⟨request, rfl, hmay, if_pos hmay⟩
    · exact .inl (if_neg hmay)

/-! ### What the claim says -/

/-- No reservation hands out a recipient whose send was confirmed. -/
def NotAgain (world : ShareWorld) : Prop :=
  ∀ emails stamp, ∀ email ∈ (world.ledger.reserveShareEmailRecipients emails stamp).2.toDispatch,
    ∀ request, ShareEvent.confirmed request email ∉ world.log

/-- No confirmation or release removed the claim of another request. -/
def OwnDrops (world : ShareWorld) : Prop :=
  ∀ request email taker, ShareEvent.dropped request email taker ∈ world.log → taker = request

/-- The request has a claim on the recipient that is younger than the lifetime. -/
def Dispatching (world : ShareWorld) (number : ℕ) (email : String) : Prop :=
  ∃ request, world.requests[number]? = some request ∧ email ∈ request.toDispatch ∧
    email ∉ request.settled ∧ world.clock - request.stamp < shareEmailClaimTtlSeconds

def OneDispatcher (world : ShareWorld) : Prop :=
  ∀ email first second, world.Dispatching first email → world.Dispatching second email →
    first = second

/-- Each recipient is found without a claim or with the stamp of the request itself. -/
def OwnClaims (world : ShareWorld) (number : ℕ) (emails : List String) : Prop :=
  ∀ request, world.requests[number]? = some request →
    ∀ email ∈ emails, ∀ stamp, world.ledger.shareEmailInFlight email = some stamp →
      stamp = request.stamp

instance (world : ShareWorld) (number : ℕ) (emails : List String) :
    Decidable (world.OwnClaims number emails) :=
  inferInstanceAs (Decidable (∀ request ∈ world.requests[number]?, ∀ email ∈ emails,
    ∀ stamp ∈ world.ledger.shareEmailInFlight email, stamp = request.stamp))

/-- A request that confirms or releases finds no stamp but its own, and a reservation commits
within the lifetime of the stamp it writes. -/
def OwnStamp (world : ShareWorld) : ShareAction → Prop
  | .wait _ => True
  | .reserve _ lag => lag < shareEmailClaimTtlSeconds
  | .confirm number emails => world.OwnClaims number emails
  | .release number emails => world.OwnClaims number emails

instance (world : ShareWorld) (action : ShareAction) : Decidable (world.OwnStamp action) :=
  match action with
  | .wait _ => isTrue trivial
  | .reserve _ lag => inferInstanceAs (Decidable (lag < shareEmailClaimTtlSeconds))
  | .confirm number emails => inferInstanceAs (Decidable (world.OwnClaims number emails))
  | .release number emails => inferInstanceAs (Decidable (world.OwnClaims number emails))

/-- The request was handed the recipient and has not settled it. -/
def Holds (world : ShareWorld) (number : ℕ) (request : ShareRequest) (email : String) : Prop :=
  world.requests[number]? = some request ∧ email ∈ request.toDispatch ∧ email ∉ request.settled

/-- What every step of an honest run keeps: a claim that is young is in the document, and a
stamp in the document that a request wrote is that request's claim. -/
structure Sound (world : ShareWorld) : Prop where
  live : ∀ number request email, world.Holds number request email →
    world.clock - request.stamp < shareEmailClaimTtlSeconds →
    world.ledger.shareEmailInFlight email = some request.stamp
  taken : ∀ number request email, world.Holds number request email →
    world.ledger.shareEmailInFlight email = some request.stamp →
    world.takers email = some number
  drops : world.OwnDrops

namespace Sound
variable {world : ShareWorld}

theorem oneDispatcher (h : world.Sound) : world.OneDispatcher := by
  rintro email first second ⟨one, hone, hgot, hopen, hyoung⟩ ⟨two, htwo, hgot', hopen', hyoung'⟩
  have hfirst : world.takers email = some first :=
    h.taken first one email ⟨hone, hgot, hopen⟩ (h.live _ _ _ ⟨hone, hgot, hopen⟩ hyoung)
  have hsecond : world.takers email = some second :=
    h.taken second two email ⟨htwo, hgot', hopen'⟩ (h.live _ _ _ ⟨htwo, hgot', hopen'⟩ hyoung')
  exact Option.some.inj (hfirst.symm.trans hsecond)

theorem wait (h : world.Sound) (elapsed : ℚ) : (world.step (.wait elapsed)).Sound where
  live := by
    intro number request email hholds hyoung
    refine h.live number request email hholds ?_
    have hlater : world.clock ≤ world.clock + max 0 elapsed := by
      linarith [le_max_left 0 elapsed]
    simp only [step] at hyoung
    linarith
  taken := h.taken
  drops := h.drops

/-- Nothing that a reservation hands out is held by a request whose claim is young. -/
theorem not_young_of_mem (h : world.Sound) {emails : List String} {lag : ℚ} {number : ℕ}
    {request : ShareRequest} {email : String}
    (hmem : email ∈
      (world.ledger.reserveShareEmailRecipients emails (world.stamp lag)).2.toDispatch)
    (hholds : world.Holds number request email) :
    shareEmailClaimTtlSeconds ≤ world.clock - request.stamp := by
  by_contra hyoung
  have hclaim := h.live number request email hholds (not_le.mp hyoung)
  obtain ⟨-, -, hstale⟩ := ShareLedger.mem_toDispatch.mp hmem
  have hearlier : world.stamp lag ≤ world.clock := by
    unfold stamp
    linarith [le_max_left 0 lag]
  have hfresh : world.stamp lag - request.stamp < shareEmailClaimTtlSeconds := by
    linarith [not_le.mp hyoung]
  simp [ShareLedger.fresh, hclaim, hfresh] at hstale

/-- After a reservation a recipient is held by an earlier request, or by the new one. -/
theorem holds_reserve {emails : List String} {lag : ℚ} {number : ℕ} {request : ShareRequest}
    {email : String} (h : (world.step (.reserve emails lag)).Holds number request email) :
    world.Holds number request email ∨
      (number = world.requests.length ∧ request.stamp = world.stamp lag ∧ email ∈
        (world.ledger.reserveShareEmailRecipients emails (world.stamp lag)).2.toDispatch) := by
  obtain ⟨hget, hgot, hopen⟩ := h
  simp only [step, ShareWorld.reserve] at hget
  by_cases hlt : number < world.requests.length
  · rw [List.getElem?_append_left hlt] at hget
    exact .inl ⟨hget, hgot, hopen⟩
  · rw [List.getElem?_append_right (not_lt.mp hlt), List.getElem?_singleton] at hget
    split_ifs at hget with hlast
    cases hget
    exact .inr ⟨by omega, rfl, hgot⟩

theorem reserve (h : world.Sound) (emails : List String) {lag : ℚ}
    (hlag : lag < shareEmailClaimTtlSeconds) : (world.step (.reserve emails lag)).Sound := by
  have hyoung : world.clock - world.stamp lag < shareEmailClaimTtlSeconds := by
    have hpos : (0 : ℚ) < shareEmailClaimTtlSeconds := by norm_num [shareEmailClaimTtlSeconds]
    have hmax : max 0 lag < shareEmailClaimTtlSeconds := max_lt hpos hlag
    unfold stamp
    linarith
  constructor
  · intro number request email hholds hage
    have hclock : world.clock - request.stamp < shareEmailClaimTtlSeconds := hage
    show (if email ∈ (world.ledger.reserveShareEmailRecipients emails
        (world.stamp lag)).2.toDispatch then some (world.stamp lag)
        else world.ledger.shareEmailInFlight email) = some request.stamp
    rcases holds_reserve hholds with hold | ⟨-, hstamp, hmem⟩
    · rw [if_neg fun hmem => absurd (h.not_young_of_mem hmem hold) (not_le.mpr hclock)]
      exact h.live number request email hold hclock
    · rw [if_pos hmem, hstamp]
  · intro number request email hholds hclaim
    have hclaim' : (if email ∈ (world.ledger.reserveShareEmailRecipients emails
        (world.stamp lag)).2.toDispatch then some (world.stamp lag)
        else world.ledger.shareEmailInFlight email) = some request.stamp := hclaim
    show (if email ∈ (world.ledger.reserveShareEmailRecipients emails
        (world.stamp lag)).2.toDispatch then some world.requests.length
        else world.takers email) = some number
    rcases holds_reserve hholds with hold | ⟨hnumber, -, hmem⟩
    · by_cases hmem : email ∈
          (world.ledger.reserveShareEmailRecipients emails (world.stamp lag)).2.toDispatch
      · -- the new stamp is young, so no earlier request can have written the same one
        rw [if_pos hmem] at hclaim'
        have hstamp : world.stamp lag = request.stamp := Option.some.inj hclaim'
        have hold' := h.not_young_of_mem hmem hold
        rw [← hstamp] at hold'
        exact absurd hyoung (not_lt.mpr hold')
      · rw [if_neg hmem] at hclaim' ⊢
        exact h.taken number request email hold hclaim'
    · rw [if_pos hmem, hnumber]
  · exact h.drops

/-- A recipient that is still held after a settlement was held before it, and is not among
the settled ones if the request is the same. -/
theorem holds_settle {number settler : ℕ} {request settling : ShareRequest}
    {emails : List String} {ledger : ShareLedger} {events : List ShareEvent} {email : String}
    (hsettler : world.requests[settler]? = some settling)
    (h : (world.settle settler settling emails ledger events).Holds number request email) :
    (number = settler → email ∉ emails) ∧
      ∃ before, world.Holds number before email ∧ before.stamp = request.stamp := by
  obtain ⟨hget, hgot, hopen⟩ := h
  simp only [settle, List.getElem?_set] at hget
  by_cases hsame : settler = number
  · subst hsame
    have hlt : settler < world.requests.length := (List.getElem?_eq_some_iff.mp hsettler).1
    rw [if_pos rfl, if_pos hlt] at hget
    cases hget
    rw [List.mem_append, not_or] at hopen
    exact ⟨fun _ => hopen.2, settling, ⟨hsettler, hgot, hopen.1⟩, rfl⟩
  · rw [if_neg hsame] at hget
    exact ⟨fun h => absurd h.symm hsame, request, ⟨hget, hgot, hopen⟩, rfl⟩

theorem settle (h : world.Sound) {number : ℕ} {request : ShareRequest} {emails : List String}
    {ledger : ShareLedger} {events : List ShareEvent}
    (hget : world.requests[number]? = some request) (hmay : MaySettle request emails)
    (hown : world.OwnClaims number emails)
    (hledger : ledger.shareEmailInFlight =
      fun email => if email ∈ emails then none else world.ledger.shareEmailInFlight email)
    (hevents : ∀ request email taker, ShareEvent.dropped request email taker ∉ events) :
    (world.settle number request emails ledger events).Sound := by
  have hsettles : ∀ email ∈ emails, ∀ stamp,
      world.ledger.shareEmailInFlight email = some stamp → world.takers email = some number := by
    intro email hmem stamp hclaim
    have hstamp : stamp = request.stamp := hown request hget email hmem stamp hclaim
    subst hstamp
    exact h.taken number request email ⟨hget, (hmay email hmem).1, (hmay email hmem).2⟩ hclaim
  constructor
  · intro other request' email hholds hage
    obtain ⟨hother, before, hbefore, hstamp⟩ := holds_settle hget hholds
    rw [← hstamp] at hage ⊢
    have hclaim : world.ledger.shareEmailInFlight email = some before.stamp :=
      h.live other before email hbefore hage
    show ledger.shareEmailInFlight email = some before.stamp
    rw [hledger]
    show (if email ∈ emails then none else world.ledger.shareEmailInFlight email) = _
    by_cases hmem : email ∈ emails
    · have htaker := hsettles email hmem before.stamp hclaim
      rw [h.taken other before email hbefore hclaim] at htaker
      exact absurd hmem (hother (Option.some.inj htaker))
    · rw [if_neg hmem]
      exact hclaim
  · intro other request' email hholds hclaim
    obtain ⟨-, before, hbefore, hstamp⟩ := holds_settle hget hholds
    have hclaim' : ledger.shareEmailInFlight email = some request'.stamp := hclaim
    rw [hledger, ← hstamp] at hclaim'
    show (if email ∈ emails then none else world.takers email) = some other
    by_cases hmem : email ∈ emails
    · simp [hmem] at hclaim'
    · simp only [hmem, if_false] at hclaim' ⊢
      exact h.taken other before email hbefore hclaim'
  · intro who email taker hlog
    simp only [ShareWorld.settle, List.append_assoc, List.mem_append] at hlog
    rcases hlog with hold | hdrop | hevent
    · exact h.drops who email taker hold
    · obtain ⟨email', hmem, hsome⟩ := List.mem_filterMap.mp hdrop
      split_ifs at hsome with hclaim
      obtain ⟨stamp, hstamp⟩ := Option.isSome_iff_exists.mp hclaim
      rw [hsettles email' hmem stamp hstamp] at hsome
      cases hsome
      rfl
    · exact absurd hevent (hevents who email taker)

theorem step (h : world.Sound) (action : ShareAction) (hown : world.OwnStamp action) :
    (world.step action).Sound := by
  cases action with
  | wait elapsed => exact h.wait elapsed
  | reserve emails lag => exact h.reserve emails hown
  | confirm number emails =>
    obtain hidle | ⟨request, hget, hmay, hsettle⟩ := world.confirm_cases number emails
    · rw [hidle]
      exact h
    · rw [hsettle]
      apply h.settle hget hmay hown rfl
      simp
  | release number emails =>
    obtain hidle | ⟨request, hget, hmay, hsettle⟩ := world.release_cases number emails
    · rw [hidle]
      exact h
    · rw [hsettle]
      apply h.settle hget hmay hown rfl
      simp

end Sound

/-- Every confirmed recipient is in the sent ledger. -/
def Recorded (world : ShareWorld) : Prop :=
  ∀ request email, ShareEvent.confirmed request email ∈ world.log →
    email ∈ world.ledger.shareEmailSentTo

theorem Recorded.notAgain {world : ShareWorld} (h : world.Recorded) : world.NotAgain := by
  intro emails stamp email hmem request hlog
  obtain ⟨-, hunsent, -⟩ := ShareLedger.mem_toDispatch.mp hmem
  exact hunsent (h request email hlog)

theorem not_confirmed_mem_drops {world : ShareWorld} {number request : ℕ} {emails : List String}
    {email : String} : ShareEvent.confirmed request email ∉ world.drops number emails := by
  intro hmem
  obtain ⟨email', -, hsome⟩ := List.mem_filterMap.mp hmem
  split_ifs at hsome
  obtain ⟨taker, -, heq⟩ := Option.map_eq_some_iff.mp hsome
  cases heq

theorem Recorded.step {world : ShareWorld} (h : world.Recorded) (action : ShareAction) :
    (world.step action).Recorded := by
  cases action with
  | wait elapsed => exact h
  | reserve emails lag => exact h
  | confirm number emails =>
    obtain hidle | ⟨request, -, -, hsettle⟩ := world.confirm_cases number emails
    · rw [hidle]
      exact h
    · rw [hsettle]
      intro who email hlog
      simp only [settle, List.append_assoc, List.mem_append] at hlog
      refine ShareLedger.mem_sentTo_confirm.mpr ?_
      rcases hlog with hold | hdrop | hevent
      · exact .inl (h who email hold)
      · exact absurd hdrop not_confirmed_mem_drops
      · obtain ⟨email', hmem, heq⟩ := List.mem_map.mp hevent
        cases heq
        exact .inr hmem
  | release number emails =>
    obtain hidle | ⟨request, -, -, hsettle⟩ := world.release_cases number emails
    · rw [hidle]
      exact h
    · rw [hsettle]
      intro who email hlog
      simp only [settle, List.append_nil, List.mem_append] at hlog
      rcases hlog with hold | hdrop
      · exact h who email hold
      · exact absurd hdrop not_confirmed_mem_drops

/-- The conversation as the first request finds it. -/
def start (ledger : ShareLedger) (clock : ℚ) : ShareWorld :=
  { clock := clock, ledger := ledger }

end ShareWorld

open ShareWorld in
/-- A recipient whose send was confirmed is never handed out again. In runs whose requests
find no stamp but their own when they confirm or release, no claim of another request is
removed and no recipient has two dispatchers. -/
theorem shareEmailClaims (ledger : ShareLedger) (clock : ℚ) (actions : List ShareAction) :
    let world := actions.foldl step (start ledger clock)
    world.NotAgain ∧ (EveryStep step OwnStamp (start ledger clock) actions →
      world.OwnDrops ∧ world.OneDispatcher) := by
  intro world
  constructor
  · have hrun : ∀ (actions : List ShareAction) (world : ShareWorld), Recorded world →
        Recorded (actions.foldl step world) := by
      intro actions
      induction actions with
      | nil => exact fun world h => h
      | cons action rest ih => exact fun world h => ih (world.step action) (h.step action)
    refine (hrun actions (start ledger clock) ?_).notAgain
    simp [Recorded, start]
  · intro hown
    have hstart : (start ledger clock).Sound := by
      constructor <;> simp [Holds, OwnDrops, start]
    have hsound : world.Sound :=
      hown.invariant hstart fun world action h hcondition => h.step action hcondition
    exact ⟨hsound.drops, hsound.oneDispatcher⟩

open ShareWorld in
/-- A request sends to one of its two recipients and gives the other one back, which the next
request takes; a third takes it over when that claim has expired, and sends. -/
theorem shareEmailClaims_takenOver :
    let world := [ShareAction.reserve ["a@b.c", "d@e.f"] 1, .wait 10, .confirm 0 ["a@b.c"],
      .release 0 ["d@e.f"], .reserve ["a@b.c", "d@e.f", "g@h.i"] 2, .wait 200,
      .reserve ["d@e.f"] 0, .release 1 ["g@h.i"], .confirm 2 ["d@e.f"]].foldl step (start {} 0)
    world.requests.map ShareRequest.toDispatch =
      [["a@b.c", "d@e.f"], ["d@e.f", "g@h.i"], ["d@e.f"]] ∧
    world.NotAgain ∧ world.OwnDrops ∧ world.OneDispatcher := by
  intro world
  obtain ⟨hagain, hown⟩ := shareEmailClaims {} 0 [ShareAction.reserve ["a@b.c", "d@e.f"] 1,
    .wait 10, .confirm 0 ["a@b.c"], .release 0 ["d@e.f"],
    .reserve ["a@b.c", "d@e.f", "g@h.i"] 2, .wait 200, .reserve ["d@e.f"] 0,
    .release 1 ["g@h.i"], .confirm 2 ["d@e.f"]]
  exact ⟨by decide +kernel, hagain, hown (by decide +kernel)⟩

open ShareWorld in
/-- Three overlapping requests: the claim of the first expires, the second takes it over, and
the release of the first then lets a third dispatch beside the second. -/
theorem not_shareEmailClaims :
    let world := [ShareAction.reserve ["a@b.c"] 0, .wait 200, .reserve ["a@b.c"] 0,
      .release 0 ["a@b.c"], .reserve ["a@b.c"] 0].foldl step (start {} 0)
    ¬ world.OwnDrops ∧ ¬ world.OneDispatcher := by
  intro world
  constructor
  · intro hdrops
    have hlog : ShareEvent.dropped 0 "a@b.c" 1 ∈ world.log := by decide +kernel
    exact absurd (hdrops 0 "a@b.c" 1 hlog) (by decide)
  · intro hone
    have hsecond : world.Dispatching 1 "a@b.c" := by
      refine ⟨⟨200, ["a@b.c"], []⟩, ?_, ?_⟩
      · decide +kernel
      · decide +kernel
    have hthird : world.Dispatching 2 "a@b.c" := by
      refine ⟨⟨200, ["a@b.c"], []⟩, ?_, ?_⟩
      · decide +kernel
      · decide +kernel
    exact absurd (hone "a@b.c" 1 2 hsecond hthird) (by decide)

end Omi.Conversations
