import Mathlib
import Omi.Conversations.MergeContent

/-! When a merge of conversations loses nothing and rolls back: the deletion of the sources,
the two ways a merge goes on from its build, and the exact condition on its calls. -/
namespace Omi.Conversations
open Omi.Foundation

/-! ### The deletion of one source -/

section deletion
variable (calls : MergeCalls) (store : ConversationStore)

@[simp] theorem final_deletion (raises : Option (String → Bool)) (store : ConversationStore) :
    (deletion raises store).final = store := by
  cases raises <;> rfl

theorem mem_leftBy {α : Type} {raises : Option (String → Bool)} {name : α → String}
    {items : List α} {item : α} :
    item ∈ leftBy raises name items ↔
      item ∈ items ∧ ∃ gone, raises = some gone ∧ gone (name item) = false := by
  cases raises with
  | none => simp [leftBy]
  | some gone => simp [leftBy]

/-- What the deletion of an id leaves of what was held under it. -/
def heldAfterDeletion (id : String) (held : Option Conversation × List PhotoRecord ×
    List AudioChunk) : Option Conversation × List PhotoRecord × List AudioChunk :=
  let about := calls.about id
  (if about.deleteConversationRaises.isNone then none else held.1,
    leftBy about.deleteConversationRaises PhotoRecord.id
      (leftBy about.deletePhotosRaises PhotoRecord.id held.2.1),
    leftBy about.deleteAudioRaises AudioChunk.filename held.2.2)

theorem held_deleteRelatedData (id other : String) :
    (deleteRelatedData calls store id).held other =
      if other = id then heldAfterDeletion calls id (store.held id) else store.held other := by
  unfold deleteRelatedData deleteConversationPhotos deleteConversationAudioFiles
    deleteConversation ConversationStore.held heldAfterDeletion
  simp only [Attempt.final_raising, final_deletion]
  by_cases hother : other = id
  · subst hother
    cases hraises : (calls.about other).deleteConversationRaises with
    | none => simp
    | some gone => simp
  · cases hraises : (calls.about id).deleteConversationRaises with
    | none => simp [hother]
    | some gone => simp [hother]

/-- The deletion of several sources: each id on its own. -/
theorem held_foldl_deleteRelatedData {ids : List String} (hnodup : ids.Nodup) (other : String) :
    (ids.foldl (deleteRelatedData calls) store).held other =
      if other ∈ ids then heldAfterDeletion calls other (store.held other)
      else store.held other := by
  induction ids generalizing store with
  | nil => simp
  | cons id ids ih =>
    obtain ⟨hid, hrest⟩ := List.nodup_cons.mp hnodup
    rw [List.foldl_cons, ih _ hrest, held_deleteRelatedData]
    by_cases hother : other = id
    · subst hother
      simp [hid]
    · simp [hother]

end deletion

/-! ### The loop over the sources -/

section loop
variable (calls : MergeCalls)

/-- The sources that the loop deletes: those before the first retraction that raises. -/
def retractedFirst (ids : List String) : List String :=
  ids.takeWhile fun id => (calls.about id).retraction.succeeds

/-- The phase behind the loop: a retraction that is unavailable at once starts nothing. -/
def phaseAfter (ids : List String) (phase : MergeFailurePhase) : MergeFailurePhase :=
  match ids with
  | [] => phase
  | id :: _ =>
    if (calls.about id).retraction = .unavailable then phase else .sourceDeletionStarted

theorem phaseAfter_started (ids : List String) :
    phaseAfter calls ids .sourceDeletionStarted = .sourceDeletionStarted := by
  cases ids with
  | nil => rfl
  | cons id ids =>
    unfold phaseAfter
    exact ite_self _

theorem final_deleteSources (ids : List String) (run : MergeRun) :
    (ids.foldlM (deleteConversationAndRelatedData calls) run).final =
      { run with
        store := (retractedFirst calls ids).foldl (deleteRelatedData calls) run.store
        failurePhase := phaseAfter calls ids run.failurePhase } := by
  induction ids generalizing run with
  | nil => rfl
  | cons id ids ih =>
    rw [List.foldlM_cons]
    -- A source whose retraction ends well is deleted, and the loop goes on with the rest.
    have hdeleted : deleteConversationAndRelatedData calls run id =
        .ok { run with
          store := deleteRelatedData calls run.store id
          failurePhase := .sourceDeletionStarted } →
        (deleteConversationAndRelatedData calls run id >>=
          ids.foldlM (deleteConversationAndRelatedData calls)).final =
        { run with
          store := (id :: retractedFirst calls ids).foldl (deleteRelatedData calls) run.store
          failurePhase := .sourceDeletionStarted } := by
      intro hstep
      rw [hstep]
      have hrest := ih { run with
        store := deleteRelatedData calls run.store id
        failurePhase := .sourceDeletionStarted }
      rw [phaseAfter_started] at hrest
      exact hrest
    have hphase : phaseAfter calls (id :: ids) run.failurePhase =
        if (calls.about id).retraction = .unavailable then run.failurePhase
        else .sourceDeletionStarted := rfl
    rw [hphase]
    cases hretraction : (calls.about id).retraction with
    | unavailable =>
      have hnone : retractedFirst calls (id :: ids) = [] :=
        List.takeWhile_cons_of_neg (by simp [hretraction, Retraction.succeeds])
      have hstep : deleteConversationAndRelatedData calls run id = .error run := by
        simp [deleteConversationAndRelatedData, hretraction]
      rw [hnone, hstep, if_pos rfl]
      rfl
    | interrupted =>
      have hnone : retractedFirst calls (id :: ids) = [] :=
        List.takeWhile_cons_of_neg (by simp [hretraction, Retraction.succeeds])
      have hstep : deleteConversationAndRelatedData calls run id =
          .error { run with failurePhase := .sourceDeletionStarted } := by
        simp [deleteConversationAndRelatedData, hretraction]
      rw [hnone, hstep, if_neg (by decide)]
      rfl
    | retracted =>
      have hcons : retractedFirst calls (id :: ids) = id :: retractedFirst calls ids :=
        List.takeWhile_cons_of_pos (by simp [hretraction, Retraction.succeeds])
      rw [hcons, if_neg (by decide)]
      exact hdeleted (by simp [deleteConversationAndRelatedData, hretraction])
    | nothingToRetract =>
      have hcons : retractedFirst calls (id :: ids) = id :: retractedFirst calls ids :=
        List.takeWhile_cons_of_pos (by simp [hretraction, Retraction.succeeds])
      rw [hcons, if_neg (by decide)]
      exact hdeleted (by simp [deleteConversationAndRelatedData, hretraction])

end loop

/-! ### The sources of a merge -/

/-- What the merge endpoint hands over: two or more sources that exist and are set to
`merging`, an id for the target under which nothing is held, and chunks with names of their
own. -/
structure MergeStart (calls : MergeCalls) (store : ConversationStore) (ids : List String) :
    Prop where
  nodup : ids.Nodup
  two : 2 ≤ ids.length
  fresh : calls.newConversationId ∉ ids
  target : store.held calls.newConversationId = (none, [], [])
  merging : ∀ id ∈ ids, ∃ conv, store.conversations id = some conv ∧ conv.status = .merging
  names : ((ids.flatMap store.chunks).map AudioChunk.filename).Nodup

def sourcesOf (store : ConversationStore) (ids : List String) : List Source :=
  ids.filterMap fun id => (store.conversations id).map fun conv => (id, conv)

def startOf (store : ConversationStore) (id : String) : ℚ :=
  ((store.conversations id).bind Conversation.startedAt).getD utcMin

/-- The ids of the sources in the order of their start. -/
def startOrder (store : ConversationStore) (ids : List String) : List String :=
  ids.insertionSort fun a b => startOf store a ≤ startOf store b

section sources
variable {calls : MergeCalls} {store : ConversationStore} {ids : List String}

theorem mem_sourcesOf {source : Source} :
    source ∈ sourcesOf store ids ↔
      source.1 ∈ ids ∧ store.conversations source.1 = some source.2 := by
  obtain ⟨id, conv⟩ := source
  simp [sourcesOf]

theorem fetchSources_eq (ids : List String) :
    fetchSources calls store ids =
      if ∃ id ∈ ids, (calls.about id).getRaises = true then none
      else some (sourcesOf store ids) := by
  induction ids with
  | nil => rfl
  | cons id ids ih =>
    rw [fetchSources, ih]
    by_cases hraises : (calls.about id).getRaises = true
    · simp [hraises]
    · by_cases hrest : ∃ id ∈ ids, (calls.about id).getRaises = true
      · simp [hraises, hrest]
      · cases hconv : store.conversations id with
        | none => simp [hraises, hrest, sourcesOf, hconv]
        | some conv => simp [hraises, hrest, sourcesOf, hconv]

theorem map_fst_sourcesOf (h : ∀ id ∈ ids, ∃ conv, store.conversations id = some conv) :
    (sourcesOf store ids).map Prod.fst = ids := by
  induction ids with
  | nil => rfl
  | cons id ids ih =>
    obtain ⟨conv, hconv⟩ := h id List.mem_cons_self
    have hrest := ih fun other hother => h other (List.mem_cons_of_mem _ hother)
    unfold sourcesOf at hrest ⊢
    rw [List.filterMap_cons, hconv, Option.map_some]
    exact congrArg (id :: ·) hrest

theorem map_fst_sortByStart (h : ∀ id ∈ ids, ∃ conv, store.conversations id = some conv) :
    (sortByStart (sourcesOf store ids)).map Prod.fst = startOrder store ids := by
  have hstart : ∀ source ∈ sourcesOf store ids,
      startOf store source.1 = source.2.startedAt.getD utcMin := by
    intro source hsource
    unfold startOf
    rw [(mem_sourcesOf.mp hsource).2]
    rfl
  unfold sortByStart startOrder
  rw [List.map_insertionSort _ (fun a b => startOf store a ≤ startOf store b)]
  · rw [map_fst_sourcesOf h]
  · intro a ha b hb
    rw [hstart a ha, hstart b hb]

theorem perm_startOrder (store : ConversationStore) (ids : List String) :
    (startOrder store ids).Perm ids :=
  List.perm_insertionSort _ _

theorem MergeStart.present (h : MergeStart calls store ids) {id : String} (hid : id ∈ ids) :
    ∃ conv, store.conversations id = some conv := by
  obtain ⟨conv, hconv, -⟩ := h.merging id hid
  exact ⟨conv, hconv⟩

theorem MergeStart.ne_target (h : MergeStart calls store ids) {id : String} (hid : id ∈ ids) :
    id ≠ calls.newConversationId := by
  intro hsame
  exact h.fresh (hsame ▸ hid)

theorem MergeStart.mem_sorted (h : MergeStart calls store ids) {id : String} (hid : id ∈ ids) :
    ∃ source ∈ sortByStart (sourcesOf store ids), source.1 = id ∧
      store.conversations id = some source.2 := by
  obtain ⟨conv, hconv⟩ := h.present hid
  exact ⟨(id, conv), (List.mem_insertionSort _).mpr (mem_sourcesOf.mpr ⟨hid, hconv⟩), rfl, hconv⟩

theorem MergeStart.fresh_sorted (h : MergeStart calls store ids) :
    ∀ source ∈ sortByStart (sourcesOf store ids), source.1 ≠ calls.newConversationId := by
  intro source hsource
  exact h.ne_target (mem_sourcesOf.mp ((List.mem_insertionSort _).mp hsource)).1

/-- The chunks of the sorted sources, each source's by time, are the chunks of all of them. -/
theorem MergeStart.names_sorted (h : MergeStart calls store ids) :
    ((store.chunks calls.newConversationId ++
      (sortByStart (sourcesOf store ids)).flatMap fun source =>
        listAudioChunks store source.1).map AudioChunk.filename).Nodup := by
  have htarget : store.chunks calls.newConversationId = [] := congrArg (fun held => held.2.2) h.target
  have hmap : ((sortByStart (sourcesOf store ids)).flatMap fun source =>
      listAudioChunks store source.1) =
      ((sortByStart (sourcesOf store ids)).map Prod.fst).flatMap (listAudioChunks store) := by
    rw [List.flatMap_map]
  have hperm : ((startOrder store ids).flatMap (listAudioChunks store)).Perm
      (ids.flatMap store.chunks) :=
    (perm_startOrder store ids).flatMap fun id _ => perm_listAudioChunks store id
  rw [htarget, List.nil_append, hmap, map_fst_sortByStart fun id hid => h.present hid,
    (hperm.map AudioChunk.filename).nodup_iff]
  exact h.names

end sources

/-! ### How a merge ends -/

section ends
variable {calls : MergeCalls} {reprocess : Bool} {store : ConversationStore} {ids : List String}

/-- Every read answers, and no source is a tombstone. -/
def Admits (calls : MergeCalls) (store : ConversationStore) (ids : List String) : Prop :=
  (∀ id ∈ ids, (calls.about id).getRaises = false) ∧
    ∀ id ∈ ids, ∀ conv, store.conversations id = some conv → conv.deleted = false

/-- The merge deletes from a source on: it builds its target, and the first retraction does
not fail outright. -/
def StartsDeletion (calls : MergeCalls) (reprocess : Bool) (store : ConversationStore)
    (ids : List String) : Prop :=
  Admits calls store ids ∧ Builds calls reprocess store ids ∧
    ∀ id ∈ (startOrder store ids).head?, (calls.about id).retraction ≠ .unavailable

theorem Builds.of_mem_iff {others : List String} (h : Builds calls reprocess store ids)
    (hmem : ∀ id, id ∈ others ↔ id ∈ ids) : Builds calls reprocess store others :=
  { copies := fun id hid => h.copies id ((hmem id).mp hid)
    created := h.created
    queued := fun ⟨id, hid, hchunks⟩ => h.queued ⟨id, (hmem id).mp hid, hchunks⟩
    photoless := fun id hid => h.photoless id ((hmem id).mp hid)
    processes := h.processes
    historical := h.historical }

theorem held_put_of_mem_complete {ended : ConversationStore} (h : MergeStart calls store ids)
    {id : String} (hid : id ∈ ids) (hheld : ended.held id = store.held id) :
    (ids.foldl (fun store id => (complete calls id store).final) ended).held id =
      ((store.conversations id).map (Conversation.completedBy calls id), store.photos id,
        store.chunks id) := by
  rw [foldl_complete h.nodup, ConversationStore.held]
  dsimp only
  rw [if_pos hid, ConversationStore.conversations_of_held hheld,
    ConversationStore.photos_of_held hheld, ConversationStore.chunks_of_held hheld]

/-- The cleanup of the target touches the target's id only. -/
theorem held_cleanup {id other : String} (hne : other ≠ id) :
    (cleanupMergedTargetAfterFailure calls id store).held other = store.held other := by
  unfold cleanupMergedTargetAfterFailure
  by_cases hretracted : (calls.about id).retraction.succeeds = true
  · rw [if_pos hretracted]
    unfold deleteConversationPhotos deleteConversationAudioFiles deleteConversation
      ConversationStore.held
    simp only [Attempt.final_raising, final_deletion]
    cases (calls.about id).deleteConversationRaises with
    | none => simp [hne]
    | some gone => simp [hne]
  · rw [if_neg hretracted]

/-- A merge that fails before its first deletion leaves each source as `complete` leaves it. -/
structure EndsEarly (calls : MergeCalls) (store : ConversationStore) (ids : List String)
    (ended : MergeEnd) : Prop where
  failure : ended.failure = some .beforeSourceDeletion
  held : ∀ id ∈ ids, ended.store.held id =
    ((store.conversations id).map (Conversation.completedBy calls id), store.photos id,
      store.chunks id)

/-- A merge that has begun to delete leaves the target that it built. Of the sources up to the
first retraction that raises it leaves what their deletions leave, and of the others all. -/
structure EndsLate (calls : MergeCalls) (store : ConversationStore) (ids : List String)
    (ended : MergeEnd) : Prop where
  failure : ended.failure ≠ some .beforeSourceDeletion
  target : ∃ conv, ended.store.conversations calls.newConversationId = some conv ∧
    conv.transcriptSegments = mergeTranscriptSegments (sortByStart (sourcesOf store ids))
  targetPhotos : ended.store.photos calls.newConversationId = []
  targetChunks : ∀ id ∈ ids, ∀ chunk ∈ store.chunks id,
    chunk ∈ ended.store.chunks calls.newConversationId
  source : ∀ id ∈ ids, ∀ conv, store.conversations id = some conv →
    (id ∈ retractedFirst calls (startOrder store ids) →
      (calls.about id).deleteConversationRaises ≠ none) →
      ∃ kept, ended.store.conversations id = some kept ∧
        kept.transcriptSegments = conv.transcriptSegments
  photos : ∀ id ∈ ids, ended.store.photos id =
    if id ∈ retractedFirst calls (startOrder store ids) then
      leftBy (calls.about id).deleteConversationRaises PhotoRecord.id
        (leftBy (calls.about id).deletePhotosRaises PhotoRecord.id (store.photos id))
    else store.photos id

theorem endsEarly_of_handle (h : MergeStart calls store ids) {run : MergeRun}
    (hphase : run.failurePhase = .beforeSourceDeletion)
    (htarget : ∀ id ∈ run.newConversationId, id = calls.newConversationId)
    (hheld : ∀ id ∈ ids, run.store.held id = store.held id) :
    EndsEarly calls store ids
      { store := handleMergeFailure calls ids run, failure := some run.failurePhase } := by
  refine ⟨congrArg some hphase, fun id hid => ?_⟩
  apply held_put_of_mem_complete h hid
  cases hid' : run.newConversationId with
  | none => exact hheld id hid
  | some target =>
    rw [hphase]
    dsimp only
    have hsame : target = calls.newConversationId := htarget target hid'
    rw [held_cleanup (hsame ▸ h.ne_target hid)]
    exact hheld id hid

theorem held_of_frame {newId other : String} {run next : MergeRun}
    (h : next.frame newId other = run.frame newId other) :
    next.store.held other = run.store.held other ∧
      next.store.photos newId = run.store.photos newId ∧
      next.failurePhase = run.failurePhase ∧ next.newConversationId = run.newConversationId := by
  simpa [MergeRun.frame] using h

/-- The deletion of the sources behind a build that ended well. -/
theorem final_mergeSources {conversations : List Source} {run built : MergeRun}
    (hbuilt : buildMerged calls ids reprocess (sortByStart conversations) run = .ok built) :
    (mergeSources calls ids reprocess conversations run).final =
      { built with
        store := (retractedFirst calls ((sortByStart conversations).map Prod.fst)).foldl
          (deleteRelatedData calls) built.store
        failurePhase := phaseAfter calls ((sortByStart conversations).map Prod.fst)
          built.failurePhase } := by
  unfold mergeSources
  dsimp only
  rw [hbuilt]
  have hloop := final_deleteSources calls ((sortByStart conversations).map Prod.fst) built
  rw [← Attempt.final_bind_raising _ calls.notifyRaises] at hloop
  exact hloop

theorem mergeSources_unavailable {conversations : List Source} {run built : MergeRun}
    (hbuilt : buildMerged calls ids reprocess (sortByStart conversations) run = .ok built)
    {id : String} (hhead : ((sortByStart conversations).map Prod.fst).head? = some id)
    (hunavailable : (calls.about id).retraction = .unavailable) :
    mergeSources calls ids reprocess conversations run = .error built := by
  unfold mergeSources
  dsimp only
  obtain ⟨rest, hids⟩ := List.head?_eq_some_iff.mp hhead
  have hstep : deleteConversationAndRelatedData calls built id = .error built := by
    unfold deleteConversationAndRelatedData
    rw [hunavailable]
  rw [hbuilt, hids]
  show ((id :: rest).foldlM (deleteConversationAndRelatedData calls) built >>= _) = _
  rw [List.foldlM_cons, hstep]
  rfl

/-- A merge of sources that it admits is the attempt to merge them and, where that raises,
the handling of the failure. -/
theorem performMergeAsync_admitted (h : MergeStart calls store ids)
    (hadmits : Admits calls store ids) :
    performMergeAsync calls ids reprocess store =
      endMerge calls ids (mergeSources calls ids reprocess (sourcesOf store ids) { store }) := by
  have hread : ¬ ∃ id ∈ ids, (calls.about id).getRaises = true := by
    rintro ⟨id, hid, hraise⟩
    rw [hadmits.1 id hid] at hraise
    cases hraise
  have hlength : ¬ (sourcesOf store ids).length < 2 := by
    have hids := congrArg List.length (map_fst_sourcesOf fun id hid => h.present hid)
    rw [List.length_map] at hids
    have htwo := h.two
    omega
  have hkept : ¬ ((sourcesOf store ids).any fun source => source.2.deleted) = true := by
    intro hany
    obtain ⟨source, hsource, hdeleted⟩ := List.any_eq_true.mp hany
    obtain ⟨hid, hconv⟩ := mem_sourcesOf.mp hsource
    rw [hadmits.2 _ hid _ hconv] at hdeleted
    cases hdeleted
  unfold performMergeAsync
  rw [fetchSources_eq, if_neg hread]
  dsimp only
  rw [if_neg hlength, if_neg hkept]

/-- A merge of sources that it does not admit fails before it reads any content. -/
theorem performMergeAsync_refused (h : ¬ Admits calls store ids) :
    performMergeAsync calls ids reprocess store = endMerge calls ids (.error { store }) := by
  unfold performMergeAsync
  rw [fetchSources_eq]
  by_cases hraises : ∃ id ∈ ids, (calls.about id).getRaises = true
  · rw [if_pos hraises]
  · rw [if_neg hraises]
    dsimp only
    have hdeleted : ((sourcesOf store ids).any fun source => source.2.deleted) = true := by
      by_contra hkept
      apply h
      refine ⟨fun id hid => ?_, fun id hid conv hconv => ?_⟩
      · simpa using fun hraise => hraises ⟨id, hid, hraise⟩
      · simp only [List.any_eq_true, not_exists, not_and, Bool.not_eq_true] at hkept
        exact hkept (id, conv) (mem_sourcesOf.mpr ⟨hid, hconv⟩)
    rw [if_pos hdeleted, ite_self]

section built
variable (reprocess) (h : MergeStart calls store ids)
include h

theorem MergeStart.builds_sorted_iff :
    (∃ built, buildMerged calls ids reprocess (sortByStart (sourcesOf store ids)) { store } =
      .ok built) ↔ Builds calls reprocess store ids := by
  have hmem : ∀ id, id ∈ (sortByStart (sourcesOf store ids)).map Prod.fst ↔ id ∈ ids := by
    intro id
    rw [map_fst_sortByStart fun id hid => h.present hid]
    exact (perm_startOrder store ids).mem_iff
  have hisOk := @buildMerged_isOk_iff calls { store } _ h.fresh_sorted h.names_sorted ids
    reprocess
  rw [hisOk]
  constructor
  · intro hbuilds
    exact hbuilds.of_mem_iff fun id => (hmem id).symm
  · intro hbuilds
    exact hbuilds.of_mem_iff hmem

/-- What the build leaves of a source, and of the variables of the failure handling. -/
theorem MergeStart.frame_build {ended : MergeRun}
    (hended : (buildMerged calls ids reprocess (sortByStart (sourcesOf store ids))
      { store }).final = ended) {id : String} (hid : id ∈ ids) :
    ended.store.held id = store.held id ∧ ended.store.photos calls.newConversationId = [] ∧
      ended.failurePhase = .beforeSourceDeletion ∧
      ended.newConversationId = some calls.newConversationId := by
  have hframe := frame_buildMerged (h.ne_target hid) ids reprocess
    (sortByStart (sourcesOf store ids)) { store }
  rw [hended] at hframe
  obtain ⟨hheld, hphotos, hphase, htarget⟩ := held_of_frame hframe
  exact ⟨hheld, hphotos.trans (congrArg (fun held => held.2.1) h.target), hphase, htarget⟩

theorem MergeStart.exists_mem : ∃ id, id ∈ ids := by
  have htwo := h.two
  exact List.exists_mem_of_length_pos (by omega)

/-- A merge whose build or whose first retraction fails ends with what the build left. -/
theorem MergeStart.endsEarly_of_error (hadmits : Admits calls store ids) {stopped : MergeRun}
    (hended : (buildMerged calls ids reprocess (sortByStart (sourcesOf store ids))
      { store }).final = stopped)
    (hmerge : mergeSources calls ids reprocess (sourcesOf store ids) { store } =
      .error stopped) :
    EndsEarly calls store ids (performMergeAsync calls ids reprocess store) := by
  obtain ⟨first, hfirst⟩ := h.exists_mem
  obtain ⟨-, -, hphase, htarget⟩ := h.frame_build reprocess hended hfirst
  rw [performMergeAsync_admitted h hadmits, hmerge]
  refine endsEarly_of_handle h hphase (fun id hid => ?_) fun id hid =>
    (h.frame_build reprocess hended hid).1
  rw [htarget] at hid
  exact (Option.some.inj hid).symm

/-- A merge that does not begin to delete fails early. -/
theorem MergeStart.endsEarly (hearly : ¬ StartsDeletion calls reprocess store ids) :
    EndsEarly calls store ids (performMergeAsync calls ids reprocess store) := by
  by_cases hadmits : Admits calls store ids
  · cases hbuild : buildMerged calls ids reprocess (sortByStart (sourcesOf store ids))
        { store } with
    | error stopped =>
      apply h.endsEarly_of_error reprocess hadmits (congrArg Attempt.final hbuild)
      unfold mergeSources
      dsimp only
      rw [hbuild]
      rfl
    | ok built =>
      have hbuilds := (h.builds_sorted_iff reprocess).mp ⟨built, hbuild⟩
      obtain ⟨id, hhead, hunavailable⟩ : ∃ id, (startOrder store ids).head? = some id ∧
          (calls.about id).retraction = .unavailable := by
        by_contra hnone
        apply hearly
        refine ⟨hadmits, hbuilds, fun id hhead hunavailable => ?_⟩
        exact hnone ⟨id, hhead, hunavailable⟩
      apply h.endsEarly_of_error reprocess hadmits (congrArg Attempt.final hbuild)
      rw [← map_fst_sortByStart fun id hid => h.present hid] at hhead
      exact mergeSources_unavailable hbuild hhead hunavailable
  · rw [performMergeAsync_refused hadmits]
    exact endsEarly_of_handle h rfl (fun _ hnone => absurd hnone (by simp)) fun _ _ => rfl

/-- Setting the statuses back after a late failure takes nothing away. -/
theorem EndsLate.complete {ended : ConversationStore} {failure : Option MergeFailurePhase}
    (hlate : EndsLate calls store ids { store := ended, failure })
    {after : Option MergeFailurePhase} (hafter : after ≠ some .beforeSourceDeletion) :
    EndsLate calls store ids
      { store := ids.foldl (fun store id => (complete calls id store).final) ended
        failure := after } := by
  rw [foldl_complete h.nodup]
  refine ⟨hafter, ?_, hlate.targetPhotos, hlate.targetChunks, fun id hid conv hconv hkept => ?_,
    hlate.photos⟩
  · obtain ⟨conv, hconv, hsegments⟩ := hlate.target
    refine ⟨conv, ?_, hsegments⟩
    dsimp only
    rw [if_neg h.fresh]
    exact hconv
  · obtain ⟨kept, hfound, hsegments⟩ := hlate.source id hid conv hconv hkept
    refine ⟨kept.completedBy calls id, ?_, by rw [Conversation.transcriptSegments_completedBy,
      hsegments]⟩
    dsimp only at hfound ⊢
    rw [if_pos hid, hfound]
    rfl

/-- A merge that begins to delete ends late. -/
theorem MergeStart.endsLate (hstarts : StartsDeletion calls reprocess store ids) :
    EndsLate calls store ids (performMergeAsync calls ids reprocess store) := by
  obtain ⟨hadmits, hbuilds, havailable⟩ := hstarts
  obtain ⟨built, hbuild⟩ := (h.builds_sorted_iff reprocess).mpr hbuilds
  have hbuilt := buildMerged_built h.fresh_sorted h.names_sorted ids reprocess hbuild
  have hended : (buildMerged calls ids reprocess (sortByStart (sourcesOf store ids))
      { store }).final = built := congrArg Attempt.final hbuild
  have hframe := fun (id : String) (hid : id ∈ ids) => h.frame_build reprocess hended hid
  have hmerged := @final_mergeSources calls reprocess ids _ _ _ hbuild
  rw [map_fst_sortByStart fun id hid => h.present hid] at hmerged
  have hphase : phaseAfter calls (startOrder store ids) built.failurePhase =
      .sourceDeletionStarted := by
    obtain ⟨first, hfirst⟩ := h.exists_mem
    cases horder : startOrder store ids with
    | nil =>
      have hmem := (perm_startOrder store ids).mem_iff.mpr hfirst
      rw [horder] at hmem
      cases hmem
    | cons id rest =>
      rw [horder] at havailable
      exact if_neg (havailable id rfl)
  rw [hphase] at hmerged
  have hdeletedIds : (retractedFirst calls (startOrder store ids)).Nodup :=
    (List.takeWhile_sublist _).nodup ((perm_startOrder store ids).nodup_iff.mpr h.nodup)
  have hdeletedMem : ∀ id ∈ retractedFirst calls (startOrder store ids), id ∈ ids := fun id hid =>
    (perm_startOrder store ids).mem_iff.mp ((List.takeWhile_sublist _).subset hid)
  have hheld := held_foldl_deleteRelatedData calls built.store hdeletedIds
  have htarget := hheld calls.newConversationId
  rw [if_neg fun hmem => h.fresh (hdeletedMem _ hmem)] at htarget
  obtain ⟨first, hfirst⟩ := h.exists_mem
  generalize hdeleted : (retractedFirst calls (startOrder store ids)).foldl
    (deleteRelatedData calls) built.store = deleted at hmerged hheld htarget
  have hlate : EndsLate calls store ids { store := deleted, failure := none } := by
    refine ⟨by simp, ?_, ?_, fun id hid chunk hchunk => ?_, fun id hid conv hconv hkept => ?_,
      fun id hid => ?_⟩
    · obtain ⟨conv, hconv, hsegments⟩ := hbuilt.target
      exact ⟨conv, (ConversationStore.conversations_of_held htarget).trans hconv, hsegments⟩
    · exact (ConversationStore.photos_of_held htarget).trans (hframe first hfirst).2.1
    · obtain ⟨source, hsource, rfl, -⟩ := h.mem_sorted hid
      show chunk ∈ deleted.chunks calls.newConversationId
      rw [ConversationStore.chunks_of_held htarget, hbuilt.chunks]
      apply List.mem_append_right
      exact List.mem_flatMap.mpr ⟨source, hsource, mem_listAudioChunks.mpr hchunk⟩
    · have hsame := congrArg Prod.fst (hheld id)
      rw [(hframe id hid).1] at hsame
      refine ⟨conv, hsame.trans ?_, rfl⟩
      split_ifs with hreached
      · have hraises := hkept hreached
        have hdoc : (calls.about id).deleteConversationRaises.isNone = false :=
          Option.isNone_eq_false_iff.mpr (Option.isSome_iff_ne_none.mpr hraises)
        unfold heldAfterDeletion
        dsimp only
        rw [hdoc]
        exact hconv
      · exact hconv
    · have hphotos := congrArg (fun held => held.2.1) (hheld id)
      rw [(hframe id hid).1] at hphotos
      dsimp only [ConversationStore.held] at hphotos
      dsimp only
      rw [hphotos]
      split_ifs <;> rfl
  rw [performMergeAsync_admitted h hadmits]
  cases hend : mergeSources calls ids reprocess (sourcesOf store ids) { store } with
  | ok run =>
    rw [hend, Attempt.final_ok] at hmerged
    rw [hmerged]
    exact hlate
  | error run =>
    rw [hend, Attempt.final_error] at hmerged
    rw [hmerged]
    show EndsLate calls store ids { store := handleMergeFailure calls ids _, failure := _ }
    have hkeeps : handleMergeFailure calls ids
        { built with store := deleted, failurePhase := .sourceDeletionStarted } =
        ids.foldl (fun store id => (Omi.Conversations.complete calls id store).final) deleted := by
      unfold handleMergeFailure
      cases built.newConversationId <;> rfl
    rw [hkeeps]
    exact hlate.complete h (by simp)

end built

end ends

/-! ### Nothing is lost -/

/-- The id has a document with the transcript in it, in one piece and moved by one offset. -/
def ConversationStore.HoldsTranscript (store : ConversationStore) (id : String)
    (segments : List TranscriptSegment) : Prop :=
  ∃ conv, store.conversations id = some conv ∧
    ∃ offset, segments.map (·.shift offset) <:+: conv.transcriptSegments

/-- The id has a document, and the photo under it. -/
def ConversationStore.HoldsPhoto (store : ConversationStore) (id : String)
    (photo : PhotoRecord) : Prop :=
  (store.conversations id).isSome ∧ photo ∈ store.photos id

/-- The id has a document, and the chunk under it. -/
def ConversationStore.HoldsChunk (store : ConversationStore) (id : String)
    (chunk : AudioChunk) : Prop :=
  (store.conversations id).isSome ∧ chunk ∈ store.chunks id

/-- All content of the sources is still held by its source or by the target. -/
structure NothingLost (before after : ConversationStore) (ids : List String) (newId : String) :
    Prop where
  segments : ∀ id ∈ ids, ∀ conv, before.conversations id = some conv →
    after.HoldsTranscript id conv.transcriptSegments ∨
      after.HoldsTranscript newId conv.transcriptSegments
  photos : ∀ id ∈ ids, ∀ photo ∈ before.photos id,
    after.HoldsPhoto id photo ∨ after.HoldsPhoto newId photo
  chunks : ∀ id ∈ ids, ∀ chunk ∈ before.chunks id,
    after.HoldsChunk id chunk ∨ after.HoldsChunk newId chunk

/-- All sources are as they were, and completed. -/
def RolledBack (before after : ConversationStore) (ids : List String) : Prop :=
  ∀ id ∈ ids, ∀ conv, before.conversations id = some conv →
    after.held id = (some { conv with status := .completed }, before.photos id, before.chunks id)

/-- The merge loses nothing, and one that fails before its first deletion rolls back. -/
structure MergeSafe (calls : MergeCalls) (ids : List String) (reprocess : Bool)
    (store : ConversationStore) : Prop where
  kept : NothingLost store (performMergeAsync calls ids reprocess store).store ids
    calls.newConversationId
  restored : (performMergeAsync calls ids reprocess store).failure = some .beforeSourceDeletion →
    RolledBack store (performMergeAsync calls ids reprocess store).store ids

/-- One of the two steps that delete photos deletes this one. -/
def DeletesPhoto (about : ConversationCalls) (photo : PhotoRecord) : Prop :=
  (∀ gone, about.deletePhotosRaises = some gone → gone photo.id = true) ∨
    ∀ gone, about.deleteConversationRaises = some gone → gone photo.id = true

/-- The calls and the sources with which a merge is safe. Once it deletes, which it does only
when no photo was fetched, no source that it reaches has a photo that its deletion deletes.
When it fails before that, no source is discarded and no write that completes one raises. -/
structure MergeHolds (calls : MergeCalls) (ids : List String) (reprocess : Bool)
    (store : ConversationStore) : Prop where
  photos : StartsDeletion calls reprocess store ids →
    ∀ id ∈ retractedFirst calls (startOrder store ids), ∀ photo ∈ store.photos id,
      ¬ DeletesPhoto (calls.about id) photo
  restores : ¬ StartsDeletion calls reprocess store ids →
    ∀ id ∈ ids, (calls.about id).completeRaises = false ∧
      ∀ conv, store.conversations id = some conv → conv.discarded = false

section safety
variable {calls : MergeCalls} {reprocess : Bool} {store after : ConversationStore}
  {ids : List String}

theorem holdsTranscript_of_eq {id : String} {conv kept : Conversation}
    (hkept : after.conversations id = some kept)
    (hsegments : kept.transcriptSegments = conv.transcriptSegments) :
    after.HoldsTranscript id conv.transcriptSegments := by
  refine ⟨kept, hkept, 0, ?_⟩
  have hsame : conv.transcriptSegments.map (·.shift 0) = conv.transcriptSegments := by
    simp [TranscriptSegment.shift_zero]
  rw [hsame, hsegments]

theorem mem_left_iff (about : ConversationCalls) (photos : List PhotoRecord)
    (photo : PhotoRecord) :
    photo ∈ leftBy about.deleteConversationRaises PhotoRecord.id
        (leftBy about.deletePhotosRaises PhotoRecord.id photos) ↔
      photo ∈ photos ∧ ¬ DeletesPhoto about photo := by
  rw [mem_leftBy, mem_leftBy, DeletesPhoto, and_assoc]
  cases about.deletePhotosRaises with
  | none => simp
  | some first =>
    cases about.deleteConversationRaises with
    | none => simp
    | some second => simp

theorem completedBy_merging_iff {id : String} {conv : Conversation}
    (hmerging : conv.status = .merging) :
    conv.completedBy calls id = { conv with status := .completed } ↔
      (calls.about id).completeRaises = false ∧ conv.discarded = false := by
  have hstays : conv ≠ { conv with status := .completed } := by
    intro hsame
    have hstatus : conv.status = .completed := congrArg Conversation.status hsame
    rw [hmerging] at hstatus
    cases hstatus
  by_cases hraises : (calls.about id).completeRaises = true
  · have hsame : conv.completedBy calls id = conv := if_pos hraises
    rw [hsame]
    simp [hraises, hstays]
  · by_cases hdiscarded : conv.discarded = true
    · have hsame : conv.completedBy calls id = conv := by
        simp [Conversation.completedBy, Conversation.claim, hraises, hdiscarded]
      rw [hsame]
      constructor
      · intro hstay
        exact absurd hstay hstays
      · rintro ⟨-, hkept⟩
        exact absurd hdiscarded (by rw [hkept]; decide)
    · have hclaimed : conv.completedBy calls id = { conv with status := .completed } := by
        simp [Conversation.completedBy, Conversation.claim, hraises, hdiscarded, hmerging]
      simp [hclaimed, hraises, hdiscarded]

theorem EndsEarly.safe_iff (h : MergeStart calls store ids)
    (hend : EndsEarly calls store ids (performMergeAsync calls ids reprocess store)) :
    MergeSafe calls ids reprocess store ↔
      ∀ id ∈ ids, (calls.about id).completeRaises = false ∧
        ∀ conv, store.conversations id = some conv → conv.discarded = false := by
  generalize hended : performMergeAsync calls ids reprocess store = ended at hend
  have hheld : ∀ id ∈ ids, ∀ conv, store.conversations id = some conv →
      ended.store.held id = (some (conv.completedBy calls id), store.photos id,
        store.chunks id) := by
    intro id hid conv hconv
    rw [hend.held id hid, hconv]
    rfl
  have hrestored : RolledBack store ended.store ids ↔
      ∀ id ∈ ids, (calls.about id).completeRaises = false ∧
        ∀ conv, store.conversations id = some conv → conv.discarded = false := by
    apply forall₂_congr
    intro id hid
    obtain ⟨conv, hconv, hmerging⟩ := h.merging id hid
    rw [hconv]
    constructor
    · intro hback
      have hsame := hback conv rfl
      rw [hheld id hid conv hconv] at hsame
      obtain ⟨hraises, hdiscarded⟩ := (completedBy_merging_iff hmerging).mp
        (Option.some.inj (congrArg Prod.fst hsame))
      refine ⟨hraises, fun other hother => ?_⟩
      cases hother
      exact hdiscarded
    · rintro ⟨hraises, hdiscarded⟩ other hother
      cases hother
      rw [hheld id hid conv hconv,
        (completedBy_merging_iff hmerging).mpr ⟨hraises, hdiscarded conv rfl⟩]
  rw [← hrestored]
  constructor
  · intro hsafe
    have hback := hsafe.restored (by rw [hended]; exact hend.failure)
    rw [hended] at hback
    exact hback
  · intro hback
    have hsome : ∀ id ∈ ids, (ended.store.conversations id).isSome := by
      intro id hid
      obtain ⟨conv, hconv⟩ := h.present hid
      have hdoc := congrArg Prod.fst (hheld id hid conv hconv)
      exact Option.isSome_iff_exists.mpr ⟨_, hdoc⟩
    refine ⟨hended ▸ ⟨fun id hid conv hconv => ?_, fun id hid photo hphoto => ?_,
      fun id hid chunk hchunk => ?_⟩, fun _ => hended ▸ hback⟩
    · exact .inl (holdsTranscript_of_eq (congrArg Prod.fst (hheld id hid conv hconv)) (by simp))
    · refine .inl ⟨hsome id hid, ?_⟩
      have hphotos := congrArg (fun held => held.2.1) (hend.held id hid)
      dsimp only [ConversationStore.held] at hphotos
      rw [hphotos]
      exact hphoto
    · refine .inl ⟨hsome id hid, ?_⟩
      have hchunks := congrArg (fun held => held.2.2) (hend.held id hid)
      dsimp only [ConversationStore.held] at hchunks
      rw [hchunks]
      exact hchunk

theorem EndsLate.safe_iff (h : MergeStart calls store ids)
    (hend : EndsLate calls store ids (performMergeAsync calls ids reprocess store)) :
    MergeSafe calls ids reprocess store ↔
      ∀ id ∈ retractedFirst calls (startOrder store ids), ∀ photo ∈ store.photos id,
        ¬ DeletesPhoto (calls.about id) photo := by
  generalize hended : performMergeAsync calls ids reprocess store = ended at hend
  have hmem : ∀ id ∈ retractedFirst calls (startOrder store ids), id ∈ ids := fun id hid =>
    (perm_startOrder store ids).mem_iff.mp ((List.takeWhile_sublist _).subset hid)
  obtain ⟨target, htarget, hsegments⟩ := hend.target
  have htargetSome : (ended.store.conversations calls.newConversationId).isSome :=
    Option.isSome_iff_exists.mpr ⟨target, htarget⟩
  constructor
  · intro hsafe id hid photo hphoto hdeletes
    have hkept := hsafe.kept.photos id (hmem id hid) photo hphoto
    rw [hended] at hkept
    rcases hkept with ⟨-, hsource⟩ | ⟨-, hmoved⟩
    · rw [hend.photos id (hmem id hid), if_pos hid, mem_left_iff] at hsource
      exact hsource.2 hdeletes
    · rw [hend.targetPhotos] at hmoved
      cases hmoved
  · intro hphotos
    refine ⟨hended ▸ ⟨fun id hid conv hconv => ?_, fun id hid photo hphoto => ?_,
      fun id hid chunk hchunk => ?_⟩, fun hfailure => absurd (hended ▸ hfailure) hend.failure⟩
    · obtain ⟨source, hsource, rfl, hsorted⟩ := h.mem_sorted hid
      rw [hconv] at hsorted
      cases hsorted
      obtain ⟨offset, hinfix⟩ := infix_mergeTranscriptSegments hsource
      exact .inr ⟨target, htarget, offset, hsegments ▸ hinfix⟩
    · have hleft := hend.photos id hid
      obtain ⟨conv, hconv⟩ := h.present hid
      have hdoc : (id ∈ retractedFirst calls (startOrder store ids) →
          (calls.about id).deleteConversationRaises ≠ none) := by
        intro hreached hnone
        apply hphotos id hreached photo hphoto
        refine .inr fun gone hgone => ?_
        rw [hnone] at hgone
        cases hgone
      obtain ⟨kept, hkept, -⟩ := hend.source id hid conv hconv hdoc
      refine .inl ⟨Option.isSome_iff_exists.mpr ⟨kept, hkept⟩, ?_⟩
      rw [hleft]
      split_ifs with hreached
      · exact (mem_left_iff _ _ _).mpr ⟨hphoto, hphotos id hreached photo hphoto⟩
      · exact hphoto
    · exact .inr ⟨htargetSome, hend.targetChunks id hid chunk hchunk⟩

end safety

/-- **A merge loses nothing exactly where its photos are safe and its rollback can write**:
for every set of sources and every pattern of failing calls. -/
theorem mergeSafe_iff {calls : MergeCalls} {ids : List String} {reprocess : Bool}
    {store : ConversationStore} (h : MergeStart calls store ids) :
    MergeSafe calls ids reprocess store ↔ MergeHolds calls ids reprocess store := by
  by_cases hstarts : StartsDeletion calls reprocess store ids
  · rw [(h.endsLate reprocess hstarts).safe_iff h]
    constructor
    · intro hphotos
      exact ⟨fun _ => hphotos, fun hnot => absurd hstarts hnot⟩
    · intro hholds
      exact hholds.photos hstarts
  · rw [(h.endsEarly reprocess hstarts).safe_iff h]
    constructor
    · intro hrestores
      exact ⟨fun hyes => absurd hyes hstarts, fun _ => hrestores⟩
    · intro hholds
      exact hholds.restores hstarts

/-- Two sources, the first with a photo. -/
def photoStore : ConversationStore :=
  { conversations := fun id =>
      if id = "a" ∨ id = "b" then some { status := .merging } else none
    photos := fun id => if id = "a" then [{ id := "p" }] else [] }

/-- Only the fetch of the first source's photos raises. -/
def photoCalls : MergeCalls :=
  { about := fun id => { photosRaise := id == "a" }
    newConversationId := "m" }

theorem mergeStart_photoStore : MergeStart photoCalls photoStore ["a", "b"] where
  nodup := by decide
  two := by decide
  fresh := by decide
  target := by decide
  merging := by
    intro id hid
    have hsource : id = "a" ∨ id = "b" := by simpa using hid
    exact ⟨{ status := .merging }, if_pos hsource, rfl⟩
  names := by decide

/-- The fetch that raises is swallowed, and the deletion then destroys the photo. -/
theorem not_mergeSafe :
    MergeStart photoCalls photoStore ["a", "b"] ∧
      ¬ MergeSafe photoCalls ["a", "b"] true photoStore := by
  refine ⟨mergeStart_photoStore, fun hsafe => ?_⟩
  have hphoto := hsafe.kept.photos "a" (by decide) { id := "p" } (by decide)
  rcases hphoto with ⟨-, hsource⟩ | ⟨-, hmoved⟩
  · revert hsource
    decide +kernel
  · revert hmoved
    decide +kernel

theorem mergeSafe_iff_photoStore :
    MergeSafe photoCalls ["a", "b"] true photoStore ↔
      MergeHolds photoCalls ["a", "b"] true photoStore :=
  mergeSafe_iff mergeStart_photoStore

end Omi.Conversations
