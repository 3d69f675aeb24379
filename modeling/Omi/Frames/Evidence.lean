import Mathlib
import Omi.Frames.Lifecycle

/-! Permanent frame evidence: which operation makes an object evidence, and that a conversation
keeps at most one attached request. -/
namespace Omi.Frames
open Omi.Foundation

variable {owner : String} {a next : FrameAccount} {requestId : String} {row : FrameRequest}
  {object : Bool × String}

/-! ### Storage objects -/

def temporaryStoragePrefix : String := "temporary-"
def permanentStoragePrefix : String := "permanent-"

/-- `storage_id.startswith(front)`. -/
def startsWith (front storageId : String) : Bool := front.toList.isPrefixOf storageId.toList

/-- `_is_permanent`. -/
def isPermanent (storageId : String) : Bool :=
  startsWith permanentStoragePrefix storageId || !startsWith temporaryStoragePrefix storageId

/-- The bucket and the object name of `delete_frame_request_pixels`, without the owner. -/
def storageObject (storageId : String) : Bool × String := (isPermanent storageId, strip storageId)

/-! ### Evidence -/

/-- An attached row and its photo in the conversation reference the object. -/
def FrameAccount.Evidence (a : FrameAccount) (object : Bool × String) : Prop :=
  ∃ requestId row conversationId photo,
    a.requests.get requestId = some row ∧ row.state = .attached ∧
      row.conversationId = some conversationId ∧
      a.photo conversationId requestId = some photo ∧
      row.storageId.map storageObject = some object ∧ photo.storageId.map storageObject = some object

/-- At most one request of a conversation is attached. -/
def FrameAccount.OneAttached (a : FrameAccount) : Prop :=
  ∀ requestId row otherId other conversationId,
    a.requests.get requestId = some row → a.requests.get otherId = some other →
    row.state = .attached → other.state = .attached →
    row.conversationId = some conversationId → other.conversationId = some conversationId →
      requestId = otherId

/-- The conversation has an attached request. -/
def FrameAccount.HasAttached (a : FrameAccount) (conversationId : Option String) : Prop :=
  ∃ requestId row, a.requests.get requestId = some row ∧ row.state = .attached ∧
    row.conversationId = conversationId

/-- The documents of an account: rows that went through the validators, under their own ids, and
photos of attached requests only. -/
structure FrameAccount.Orderly (a : FrameAccount) : Prop where
  keys : a.requests.keys.Nodup
  rows : ∀ entry ∈ a.requests, entry.2.requestId = entry.1 ∧ entry.2.normalise = entry.2
  photos : ∀ requestId row, a.requests.get requestId = some row → row.state ≠ .attached →
    ∀ conversationId, a.photo conversationId requestId = none
  one : a.OneAttached

theorem photo_congr (hphotos : next.photos = a.photos) (conversationId photoId : String) :
    next.photo conversationId photoId = a.photo conversationId photoId := by
  unfold FrameAccount.photo
  rw [hphotos]

theorem FrameAccount.Orderly.congr (h : a.Orderly) (hrequests : next.requests = a.requests)
    (hphotos : next.photos = a.photos) : next.Orderly := by
  refine ⟨by rw [hrequests]; exact h.keys, by rw [hrequests]; exact h.rows, ?_, ?_⟩
  · intro requestId row hrow hstate conversationId
    rw [hrequests] at hrow
    rw [photo_congr hphotos]
    exact h.photos requestId row hrow hstate conversationId
  · unfold FrameAccount.OneAttached
    rw [hrequests]
    exact h.one

theorem FrameAccount.Evidence.congr (h : next.Evidence object)
    (hrequests : next.requests = a.requests) (hphotos : next.photos = a.photos) :
    a.Evidence object := by
  obtain ⟨requestId, row, conversationId, photo, hrow, hattached, hconversation, hphoto, hobjects⟩ :=
    h
  rw [hrequests] at hrow
  rw [photo_congr hphotos] at hphoto
  exact ⟨requestId, row, conversationId, photo, hrow, hattached, hconversation, hphoto, hobjects⟩

theorem FrameAccount.Orderly.row_normal (h : a.Orderly)
    (hrow : a.requests.get requestId = some row) :
    row.requestId = requestId ∧ row.normalise = row :=
  h.rows (requestId, row) (Table.mem_of_get hrow)

/-! ### Promotions -/

/-- The operation attached an uploaded row. -/
def Promotes (a : FrameAccount) (requestId : String) (row : FrameRequest)
    (action : FrameAction owner) (next : FrameAccount) : Prop :=
  ∃ caller call conversation, action = .attach caller call ∧ row.state = .uploaded ∧
    row.conversationId = some call.conversationId ∧
    a.checkAttachBudget requestId row call.conversationId = .ok () ∧
    a.photosWith requestId row conversation call = .ok next.photos ∧
    ∀ after, next.requests.get requestId = some after → after.state = .attached

/-- The operation moved the row to `attached` without a photo. -/
def MovesToAttached (action : FrameAction owner) : Prop :=
  ∃ caller call, action = .transition caller call ∧ call.nextState = .attached

@[simp] theorem update_photos (a : FrameAccount) (requestId : String) (candidate : FrameRequest) :
    (a.update requestId candidate).photos = a.photos := by
  unfold FrameAccount.update
  cases a.requests.get requestId <;> rfl

@[simp] theorem setReceipt_photos (a : FrameAccount) (receipt : Receipt) :
    (a.setReceipt receipt).photos = a.photos := by
  unfold FrameAccount.setReceipt
  cases a.receipts.get receipt.storageId <;> rfl

@[simp] theorem ensureReceipt_photos (a : FrameAccount) (requestId : String)
    (call : ReconcileCall) : (a.ensureReceipt requestId call).photos = a.photos := by
  unfold FrameAccount.ensureReceipt
  cases a.receipts.get call.storageId <;> simp

/-- Only a promotion writes photos, and a row becomes attached by a promotion or a transition. -/
theorem Acts.promotes {action : FrameAction owner} (h : Acts a requestId row action next)
    (hrow : a.requests.get requestId = some row) :
    Promotes a requestId row action next ∨
      next.photos = a.photos ∧ ∀ after, next.requests.get requestId = some after →
        after.state = .attached → row.state = .attached ∨ MovesToAttached action := by
  have hsame : ∀ after, a.requests.get requestId = some after → after.state = .attached →
      row.state = .attached ∨ MovesToAttached action := by
    intro after hafter hattached
    obtain rfl := Option.some.inj (hrow.symm.trans hafter)
    exact .inl hattached
  cases h with
  | transitioned caller call hallowed hreason hparse =>
    refine .inr ⟨update_photos a requestId _, fun after hafter hattached => ?_⟩
    rw [update_requests hrow] at hafter
    obtain rfl := Option.some.inj hafter
    refine .inr ⟨caller, call, rfl, ?_⟩
    rw [← hattached, ← transitionPayload_state row call, FrameRequest.updatedBy,
      parse_eq_normalise hparse]
    rfl
  | reattached caller call => exact .inr ⟨rfl, hsame⟩
  | @attached caller call candidate written conversation hstate hpermanent hconversation hbudget
      hphotos hparse hrequests =>
    have hwritten : a.photosWith requestId row conversation call =
        .ok (written.update requestId candidate).photos := by
      rw [update_photos, hphotos]
    refine .inl ⟨caller, call, conversation, rfl, hstate, hconversation, hbudget, hwritten,
      fun after hafter => ?_⟩
    rw [deleteReceipt_requests, update_requests (by rw [hrequests, hrow])] at hafter
    obtain rfl := Option.some.inj hafter
    rw [FrameRequest.updatedBy, parse_eq_normalise hparse]
    rfl
  | unexpired now => exact .inr ⟨rfl, hsame⟩
  | pruned now hopen hparse =>
    refine .inr ⟨update_photos a requestId _, fun after hafter hattached => ?_⟩
    rw [update_requests hrow] at hafter
    obtain rfl := Option.some.inj hafter
    rw [FrameRequest.updatedBy, parse_eq_normalise hparse] at hattached
    cases hattached
  | known caller call => exact .inr ⟨rfl, hsame⟩
  | receipted caller call =>
    exact .inr ⟨ensureReceipt_photos a requestId call, by rwa [ensureReceipt_requests]⟩
  | failed caller call hopen hstored hparse =>
    refine .inr ⟨by rw [update_photos, ensureReceipt_photos], fun after hafter hattached => ?_⟩
    rw [update_requests (by rw [ensureReceipt_requests, hrow])] at hafter
    obtain rfl := Option.some.inj hafter
    rw [FrameRequest.updatedBy, parse_eq_normalise hparse] at hattached
    cases hattached

/-- A promotion leaves the request's photo with the permanent object, and no other photo is
written. -/
theorem photo_of_photosWith {conversation : Conversation} {call : AttachCall}
    (h : a.photosWith requestId row conversation call = .ok next.photos) :
    (∃ photo, next.photo call.conversationId requestId = some photo ∧
      photo.storageId = some call.permanentStorageId) ∧
    ∀ conversationId photoId, photoId ≠ requestId →
      next.photo conversationId photoId = a.photo conversationId photoId := by
  unfold FrameAccount.photosWith at h
  cases hphoto : a.photo call.conversationId requestId with
  | some existing =>
    simp only [hphoto] at h
    obtain ⟨_, hstorage, h⟩ := bind_eq_ok_iff.mp h
    rw [check_eq_ok_iff, decide_eq_true_eq] at hstorage
    have hsame : next.photos = a.photos := (Except.ok.inj h).symm
    exact ⟨⟨existing, by rw [photo_congr hsame, hphoto], hstorage⟩,
      fun conversationId photoId _ => photo_congr hsame conversationId photoId⟩
  | none =>
    simp only [hphoto] at h
    have hset := (Except.ok.inj h).symm
    refine ⟨?_, fun conversationId photoId hne => ?_⟩
    · rw [FrameAccount.photo, hset, FrameAccount.setPhoto, Table.get_set, if_pos rfl,
        Option.bind_some, Table.get_set, if_pos rfl]
      exact ⟨_, rfl, rfl⟩
    · simp only [FrameAccount.photo, hset, FrameAccount.setPhoto, Table.get_set]
      by_cases hconversation : conversationId = call.conversationId
      · rw [if_pos hconversation, hconversation, Option.bind_some, Table.get_set, if_neg hne]
        cases a.photos.get call.conversationId <;> rfl
      · rw [if_neg hconversation]

/-! ### One attached request -/

/-- Where an attach finds its budget, no other request of the conversation is attached. -/
theorem own_of_checkAttachBudget {conversationId : String} (horderly : a.Orderly)
    (h : a.checkAttachBudget requestId row conversationId = .ok ()) {otherId : String}
    {other : FrameRequest} (hother : a.requests.get otherId = some other)
    (hattached : other.state = .attached)
    (hconversation : other.conversationId = some conversationId) : otherId = requestId := by
  obtain ⟨attachedRows, hrows, h⟩ := bind_eq_ok_iff.mp h
  obtain ⟨_, hown, -⟩ := bind_eq_ok_iff.mp h
  rw [check_eq_ok_iff] at hown
  unfold FrameAccount.query at hrows
  cases hfound : (a.requests.map Prod.snd).filter fun r =>
      r.conversationId = some conversationId && r.state = .attached with
  | nil =>
    rw [List.filter_eq_nil_iff] at hfound
    have hmem := List.mem_map_of_mem (f := Prod.snd) (Table.mem_of_get hother)
    exact absurd (by simp [hconversation, hattached]) (hfound other hmem)
  | cons first rest =>
    -- the first row that the query returns is the request's own, and there is only one
    rw [hfound, List.take_succ_cons, mapM_eq_ok_iff, List.forall₂_cons_left_iff] at hrows
    obtain ⟨parsed, others, hparse, -, rfl⟩ := hrows
    have hfirst : first ∈ (a.requests.map Prod.snd).filter fun r =>
        r.conversationId = some conversationId && r.state = .attached := by
      rw [hfound]
      exact List.mem_cons_self
    obtain ⟨hmem, hcondition⟩ := List.mem_filter.mp hfirst
    obtain ⟨⟨key, row'⟩, hentry, rfl⟩ := List.mem_map.mp hmem
    obtain ⟨hkey, hnormal⟩ := horderly.rows _ hentry
    have hparsed : parsed = row' := (parse_eq_normalise hparse).trans hnormal
    have hsame : key = requestId := by
      rw [← show row'.requestId = key from hkey, ← hparsed]
      simp only [List.any_cons, Bool.not_eq_true', Bool.or_eq_false_iff] at hown
      simpa using hown.1
    have hget := Table.get_of_mem horderly.keys hentry
    simp only [Bool.and_eq_true, decide_eq_true_eq] at hcondition
    rw [← hsame]
    exact horderly.one otherId other key row' conversationId hother hget hattached hcondition.2
      hconversation hcondition.1

/-- A row that is written stays the only attached one, where it was before. -/
theorem FrameAccount.OneAttached.set {after : FrameRequest} (h : a.OneAttached)
    (hwritten : next.requests = a.requests.set requestId after)
    (hown : after.state = .attached → ∀ otherId other conversationId,
      a.requests.get otherId = some other → other.state = .attached →
      after.conversationId = some conversationId → other.conversationId = some conversationId →
        otherId = requestId) : next.OneAttached := by
  intro firstId first secondId second conversationId hfirst hsecond hattached hattached'
    hconversation hconversation'
  rw [hwritten, Table.get_set] at hfirst hsecond
  by_cases hfirstId : firstId = requestId
  · by_cases hsecondId : secondId = requestId
    · rw [hfirstId, hsecondId]
    · rw [if_pos hfirstId] at hfirst
      rw [if_neg hsecondId] at hsecond
      obtain rfl := Option.some.inj hfirst
      exact absurd (hown hattached secondId second conversationId hsecond hattached' hconversation
        hconversation') hsecondId
  · rw [if_neg hfirstId] at hfirst
    by_cases hsecondId : secondId = requestId
    · rw [if_pos hsecondId] at hsecond
      obtain rfl := Option.some.inj hsecond
      exact absurd (hown hattached' firstId first conversationId hfirst hattached hconversation'
        hconversation) hfirstId
    · rw [if_neg hsecondId] at hsecond
      exact h firstId first secondId second conversationId hfirst hsecond hattached hattached'
        hconversation hconversation'

/-- A row is written into an orderly account. -/
theorem FrameAccount.Orderly.set {after : FrameRequest} (h : a.Orderly)
    (hwritten : next.requests = a.requests.set requestId after)
    (hid : after.requestId = requestId) (hnormal : after.normalise = after)
    (hphoto : after.state ≠ .attached → ∀ conversationId, next.photo conversationId requestId = none)
    (hphotos : ∀ otherId, otherId ≠ requestId → ∀ conversationId,
      next.photo conversationId otherId = a.photo conversationId otherId)
    (hown : after.state = .attached → ∀ otherId other conversationId,
      a.requests.get otherId = some other → other.state = .attached →
      after.conversationId = some conversationId → other.conversationId = some conversationId →
        otherId = requestId) : next.Orderly := by
  refine ⟨?_, fun entry hentry => ?_, ?_, h.one.set hwritten hown⟩
  · rw [hwritten]
    exact Table.nodup_keys_set h.keys requestId after
  · rw [hwritten] at hentry
    rcases Table.mem_set hentry with rfl | hold
    · exact ⟨hid, hnormal⟩
    · exact h.rows entry hold
  · intro otherId other hother hstate conversationId
    rw [hwritten, Table.get_set] at hother
    by_cases hsame : otherId = requestId
    · rw [if_pos hsame] at hother
      obtain rfl := Option.some.inj hother
      rw [hsame]
      exact hphoto hstate conversationId
    · rw [if_neg hsame] at hother
      rw [hphotos otherId hsame]
      exact h.photos otherId other hother hstate conversationId

theorem Candidate.unattached {candidate : FrameRequest} (h : Candidate row candidate) :
    row.state ≠ .attached := by
  intro hstate
  have hopen := h.open
  rw [hstate] at hopen
  cases hopen

theorem Candidate.conversation_eq {candidate : FrameRequest} (h : Candidate row candidate) :
    (row.updatedBy candidate).conversationId = row.conversationId := by
  show (candidate.conversationId <|> row.conversationId) = row.conversationId
  rw [h.conversationId]
  cases row.conversationId <;> rfl

/-- The photos of other requests stay. -/
theorem Acts.photo_other {action : FrameAction owner} (h : Acts a requestId row action next)
    (hrow : a.requests.get requestId = some row) (conversationId : String) {otherId : String}
    (hne : otherId ≠ requestId) :
    next.photo conversationId otherId = a.photo conversationId otherId := by
  rcases h.promotes hrow with ⟨_, _, _, -, -, -, -, hphotos, -⟩ | ⟨hphotos, -⟩
  · exact (photo_of_photosWith hphotos).2 conversationId otherId hne
  · exact photo_congr hphotos conversationId otherId

theorem uploaded_of_attached {state : FrameRequestState} (h : .attached ∈ allowed state) :
    state = .uploaded := by
  cases state <;> simp [allowed] at h ⊢

/-- An operation on one request keeps an account orderly, unless it moves a second request of a
conversation to `attached`. -/
theorem Acts.orderly {action : FrameAction owner} (h : Acts a requestId row action next)
    (hrow : a.requests.get requestId = some row) (hvalid : row.Valid) (horderly : a.Orderly)
    (hcareful : row.state = .uploaded → MovesToAttached action →
      ¬ a.HasAttached row.conversationId) : next.Orderly := by
  have hpromotes := h.promotes hrow
  rcases h.row_cases hrow hvalid with hsame | ⟨candidate, hcandidate, hwritten⟩
  · rcases hpromotes with ⟨_, _, _, -, huploaded, -, -, -, hattached⟩ | ⟨hphotos, -⟩
    · have hstate := hattached row (by rw [hsame, hrow])
      rw [huploaded] at hstate
      cases hstate
    · exact horderly.congr hsame hphotos
  · have hget : next.requests.get requestId = some (row.updatedBy candidate) := by
      simp [hwritten]
    have hunattached := hcandidate.unattached
    refine horderly.set hwritten (hcandidate.requestId.trans (horderly.row_normal hrow).1)
      (FrameRequest.updatedBy_normal hvalid.normalise_eq hcandidate.valid.normalise_eq)
      (fun hstate conversationId => ?_)
      (fun otherId hne conversationId => h.photo_other hrow conversationId hne) ?_
    · rcases hpromotes with ⟨_, _, _, -, -, -, -, -, hattached⟩ | ⟨hphotos, -⟩
      · exact absurd (hattached _ hget) hstate
      · rw [photo_congr hphotos]
        exact horderly.photos requestId row hrow hunattached conversationId
    · intro hattached otherId other conversationId hother hotherAttached hconversation
        hotherConversation
      have hkept : row.conversationId = some conversationId := by
        rw [← hcandidate.conversation_eq, hconversation]
      rcases hpromotes with ⟨_, call, _, -, -, hown, hbudget, -⟩ | ⟨-, hmoved⟩
      · obtain rfl : call.conversationId = conversationId :=
          Option.some.inj (hown.symm.trans hkept)
        exact own_of_checkAttachBudget horderly hbudget hother hotherAttached hotherConversation
      · have hmoves := (hmoved _ hget hattached).resolve_left hunattached
        have hallowed := hcandidate.allowed
        rw [show candidate.state = .attached from hattached] at hallowed
        exact absurd ⟨otherId, other, hother, hotherAttached, hotherConversation.trans hkept.symm⟩
          (hcareful (uploaded_of_attached hallowed) hmoves)

/-- Only a promotion makes evidence: of the object that it is given. -/
theorem Acts.evidence {action : FrameAction owner} (h : Acts a requestId row action next)
    (hrow : a.requests.get requestId = some row) (hvalid : row.Valid) (horderly : a.Orderly)
    (hobject : next.Evidence object) :
    a.Evidence object ∨ ∃ caller call, action = .attach caller call ∧ row.state = .uploaded ∧
      storageObject call.permanentStorageId = object := by
  obtain ⟨otherId, other, conversationId, photo, hother, hattached, hconversation, hphoto, hstored,
    hpictured⟩ := hobject
  by_cases hsame : otherId = requestId
  · rw [hsame] at hother hphoto
    rcases h.row_cases hrow hvalid with hrequests | ⟨candidate, hcandidate, hwritten⟩
    · rw [hrequests, hrow] at hother
      obtain rfl := Option.some.inj hother
      rcases h.promotes hrow with ⟨_, _, _, -, huploaded, -⟩ | ⟨hphotos, -⟩
      · rw [hattached] at huploaded
        cases huploaded
      · rw [photo_congr hphotos] at hphoto
        exact .inl ⟨requestId, row, conversationId, photo, hrow, hattached, hconversation, hphoto,
          hstored, hpictured⟩
    · rcases h.promotes hrow with ⟨caller, call, _, hattach, huploaded, hown, -, hphotos, -⟩ |
        ⟨hphotos, -⟩
      · refine .inr ⟨caller, call, hattach, huploaded, ?_⟩
        rw [hwritten, Table.get_set, if_pos rfl] at hother
        obtain rfl := Option.some.inj hother
        obtain rfl : call.conversationId = conversationId :=
          Option.some.inj (hown.symm.trans (hcandidate.conversation_eq.symm.trans hconversation))
        obtain ⟨stored, hget, hstorage⟩ := (photo_of_photosWith hphotos).1
        obtain rfl : stored = photo := Option.some.inj (hget.symm.trans hphoto)
        rw [hstorage] at hpictured
        exact Option.some.inj hpictured
      · -- the row that was moved to `attached` has no photo
        rw [photo_congr hphotos,
          horderly.photos requestId row hrow hcandidate.unattached conversationId] at hphoto
        cases hphoto
  · have hbefore : a.requests.get otherId = some other := by
      rcases h.row_cases hrow hvalid with hrequests | ⟨candidate, -, hwritten⟩
      · rwa [hrequests] at hother
      · rwa [hwritten, Table.get_set, if_neg hsame] at hother
    rw [h.photo_other hrow conversationId hsame] at hphoto
    exact .inl ⟨otherId, other, conversationId, photo, hbefore, hattached, hconversation, hphoto,
      hstored, hpictured⟩

/-! ### Operations that return -/

/-- An operation that returns has parsed the row. -/
theorem parse_of_act {action : FrameAction owner} (hrow : a.requests.get requestId = some row)
    (h : a.act requestId action = .ok next) : ∃ request, row.parse = .ok request := by
  cases action with
  | transition caller call =>
    obtain ⟨_, htransition⟩ := exists_reply h
    obtain ⟨request, hread, -⟩ := bind_eq_ok_iff.mp htransition
    simp only [FrameAccount.read, hrow] at hread
    exact ⟨request, hread⟩
  | attach caller call =>
    obtain ⟨_, hattach⟩ := exists_reply h
    obtain ⟨_, -, hattach⟩ := bind_eq_ok_iff.mp hattach
    obtain ⟨request, hread, -⟩ := bind_eq_ok_iff.mp hattach
    simp only [FrameAccount.read, hrow] at hread
    exact ⟨request, hread⟩
  | prune now =>
    obtain ⟨_, hprune⟩ := exists_reply h
    simp only [FrameAccount.pruneOne, hrow] at hprune
    obtain ⟨request, hparse, -⟩ := bind_eq_ok_iff.mp hprune
    exact ⟨request, hparse⟩
  | reconcile caller call =>
    obtain ⟨_, hreconcile⟩ := exists_reply h
    simp only [FrameAccount.reconcile, hrow] at hreconcile
    obtain ⟨request, hparse, -⟩ := bind_eq_ok_iff.mp hreconcile
    exact ⟨request, hparse⟩

/-- An operation that returns found its row, whose rows it acted on, or touched no row. -/
theorem act_cases {action : FrameAction owner} (horderly : a.Orderly)
    (h : a.act requestId action = .ok next) :
    (∃ row, a.requests.get requestId = some row ∧ row.Valid ∧
      Acts a requestId row action next) ∨
    next.requests = a.requests ∧ next.photos = a.photos := by
  cases hrow : a.requests.get requestId with
  | some row =>
    obtain ⟨request, hparse⟩ := parse_of_act hrow h
    have hsame : request = row := (parse_eq_normalise hparse).trans (horderly.row_normal hrow).2
    have hvalid : row.Valid := by rwa [hsame] at hparse
    exact .inl ⟨row, rfl, hvalid, act_acts hrow hvalid h⟩
  | none =>
    refine .inr ?_
    cases action with
    | transition caller call =>
      obtain ⟨_, htransition⟩ := exists_reply h
      obtain ⟨_, hread, -⟩ := bind_eq_ok_iff.mp htransition
      simp only [FrameAccount.read, hrow] at hread
      cases hread
    | attach caller call =>
      obtain ⟨_, hattach⟩ := exists_reply h
      obtain ⟨_, -, hattach⟩ := bind_eq_ok_iff.mp hattach
      obtain ⟨_, hread, -⟩ := bind_eq_ok_iff.mp hattach
      simp only [FrameAccount.read, hrow] at hread
      cases hread
    | prune now =>
      obtain ⟨_, hprune⟩ := exists_reply h
      simp only [FrameAccount.pruneOne, hrow] at hprune
      cases hprune
      exact ⟨rfl, rfl⟩
    | reconcile caller call =>
      obtain ⟨_, hreconcile⟩ := exists_reply h
      simp only [FrameAccount.reconcile, hrow] at hreconcile
      cases hreconcile
      exact ⟨ensureReceipt_requests a requestId call, ensureReceipt_photos a requestId call⟩

end Omi.Frames
