import Mathlib
import Omi.Foundation.Checks
import Omi.Conversations.Merge

/-! What a merge does to the content of its sources: what every step keeps, what the target
holds when the deletion of the sources begins, and when nothing is lost. -/
namespace Omi.Conversations
open Omi.Foundation

/-! ### What is held under an id -/

/-- Everything that the store has under one id. -/
def ConversationStore.held (store : ConversationStore) (id : String) :
    Option Conversation × List PhotoRecord × List AudioChunk :=
  (store.conversations id, store.photos id, store.chunks id)

section held
variable {store next : ConversationStore} {id : String}

theorem ConversationStore.held_ext (hconv : next.conversations id = store.conversations id)
    (hphotos : next.photos id = store.photos id) (hchunks : next.chunks id = store.chunks id) :
    next.held id = store.held id := by
  unfold held
  rw [hconv, hphotos, hchunks]

theorem ConversationStore.conversations_of_held (h : next.held id = store.held id) :
    next.conversations id = store.conversations id :=
  congrArg Prod.fst h

theorem ConversationStore.photos_of_held (h : next.held id = store.held id) :
    next.photos id = store.photos id :=
  congrArg (fun held => held.2.1) h

theorem ConversationStore.chunks_of_held (h : next.held id = store.held id) :
    next.chunks id = store.chunks id :=
  congrArg (fun held => held.2.2) h

theorem ConversationStore.held_put {other : String} (hne : id ≠ other) (conv : Conversation) :
    (store.put other conv).held id = store.held id :=
  held_ext (Function.update_of_ne hne _ _) rfl rfl

theorem ConversationStore.held_copyBlob {newId : String} (hne : id ≠ newId) (chunk : AudioChunk) :
    (store.copyBlob chunk newId).held id = store.held id :=
  held_ext rfl rfl (Function.update_of_ne hne _ _)

end held

/-! ### The transcript -/

theorem TranscriptSegment.shift_zero (seg : TranscriptSegment) : seg.shift 0 = seg := by
  unfold shift
  rw [add_zero, add_zero]

theorem infix_mergeSegmentsAfter {source : Source} {sources : List Source}
    (hsource : source ∈ sources) (previous : Conversation) (cumulativeOffset : ℚ) :
    ∃ offset, source.2.transcriptSegments.map (·.shift offset) <:+:
      mergeSegmentsAfter previous cumulativeOffset sources := by
  induction sources generalizing previous cumulativeOffset with
  | nil => cases hsource
  | cons head rest ih =>
    obtain ⟨id, conv⟩ := head
    rw [mergeSegmentsAfter]
    rcases List.mem_cons.mp hsource with rfl | hrest
    · exact ⟨_, (List.prefix_append _ _).isInfix⟩
    · obtain ⟨offset, hinfix⟩ := ih hrest conv _
      exact ⟨offset, hinfix.trans (List.suffix_append _ _).isInfix⟩

/-- The merged transcript holds the transcript of each source in one piece, moved in time. -/
theorem infix_mergeTranscriptSegments {source : Source} {sources : List Source}
    (hsource : source ∈ sources) :
    ∃ offset, source.2.transcriptSegments.map (·.shift offset) <:+:
      mergeTranscriptSegments sources := by
  cases sources with
  | nil => cases hsource
  | cons head rest =>
    obtain ⟨id, conv⟩ := head
    rw [mergeTranscriptSegments]
    rcases List.mem_cons.mp hsource with rfl | hrest
    · refine ⟨0, ?_⟩
      have hsame : conv.transcriptSegments.map (·.shift 0) = conv.transcriptSegments := by
        simp [TranscriptSegment.shift_zero]
      rw [hsame]
      exact (List.prefix_append _ _).isInfix
    · obtain ⟨offset, hinfix⟩ := infix_mergeSegmentsAfter hrest conv (conv.span.getD 0)
      exact ⟨offset, hinfix.trans (List.suffix_append _ _).isInfix⟩

/-! ### The photos that the merge collects -/

/-- The fetch of the source's photos answers with one that has an id. -/
def Collects (calls : MergeCalls) (store : ConversationStore) (id : String) : Prop :=
  (calls.about id).photosRaise = false ∧ ∃ photo ∈ store.photos id, photo.id ≠ ""

section collect
variable {calls : MergeCalls} {store : ConversationStore}

private def addPhoto (seen : List PhotoRecord) (photo : PhotoRecord) : List PhotoRecord :=
  if photo.id ≠ "" ∧ ∀ other ∈ seen, other.id ≠ photo.id then seen ++ [photo] else seen

private theorem foldl_addPhoto_eq_nil_iff (photos seen : List PhotoRecord) :
    photos.foldl addPhoto seen = [] ↔ seen = [] ∧ ∀ photo ∈ photos, photo.id = "" := by
  induction photos generalizing seen with
  | nil => simp
  | cons photo photos ih =>
    rw [List.foldl_cons, ih, List.forall_mem_cons]
    by_cases hadd : photo.id ≠ "" ∧ ∀ other ∈ seen, other.id ≠ photo.id
    · rw [addPhoto, if_pos hadd]
      simp [hadd.1]
    · rw [addPhoto, if_neg hadd]
      constructor
      · rintro ⟨rfl, hrest⟩
        have hid : photo.id = "" := by simpa using hadd
        exact ⟨rfl, hid, hrest⟩
      · rintro ⟨hseen, -, hrest⟩
        exact ⟨hseen, hrest⟩

/-- No photo is collected exactly when no fetch answers with one that has an id. -/
theorem collectAllPhotos_eq_nil_iff (sources : List Source) :
    collectAllPhotos calls store sources = [] ↔
      ∀ source ∈ sources, ¬ Collects calls store source.1 := by
  have hfold : ∀ (sources : List Source) (seen : List PhotoRecord),
      sources.foldl
        (fun allPhotos (source : Source) =>
          if (calls.about source.1).photosRaise then allPhotos
          else (store.photos source.1).foldl addPhoto allPhotos)
        seen = [] ↔ seen = [] ∧ ∀ source ∈ sources, ¬ Collects calls store source.1 := by
    intro sources
    induction sources with
    | nil => simp
    | cons source sources ih =>
      intro seen
      rw [List.foldl_cons, ih, List.forall_mem_cons]
      by_cases hraise : (calls.about source.1).photosRaise = true
      · rw [if_pos hraise]
        simp [Collects, hraise]
      · rw [if_neg hraise, foldl_addPhoto_eq_nil_iff]
        simp [Collects, hraise, and_assoc]
  unfold collectAllPhotos
  have hsort : ∀ photos : List PhotoRecord,
      photos.insertionSort (fun a b => a.createdAt.getD utcMin ≤ b.createdAt.getD utcMin) = [] ↔
        photos = [] := by
    intro photos
    rw [← List.length_eq_zero_iff, List.length_insertionSort, List.length_eq_zero_iff]
  rw [hsort]
  have hall := hfold sources []
  rw [and_iff_right rfl] at hall
  exact hall

end collect

/-! ### The audio that the merge copies -/

section copy
variable {calls : MergeCalls} {store : ConversationStore} {run : MergeRun}

/-- No step on the audio of one source raises. -/
def CopiesAudio (calls : MergeCalls) (store : ConversationStore) (id : String) : Prop :=
  (calls.about id).listRaises = false ∧
    ∀ chunk ∈ store.chunks id, (calls.about id).copyRaises chunk.filename = false

theorem mem_listAudioChunks {id : String} {chunk : AudioChunk} :
    chunk ∈ listAudioChunks store id ↔ chunk ∈ store.chunks id :=
  List.mem_insertionSort _

theorem perm_listAudioChunks (store : ConversationStore) (id : String) :
    (listAudioChunks store id).Perm (store.chunks id) :=
  List.perm_insertionSort _ _

/-- What building the target leaves: all of every other id, the target's photos and the
variables of the failure handling. -/
def MergeRun.frame (newId other : String) (run : MergeRun) :=
  (run.store.held other, run.store.photos newId, run.failurePhase, run.newConversationId)

theorem fixes_copyChunk (id : String) {other : String} (hne : other ≠ calls.newConversationId)
    (chunk : AudioChunk) :
    Attempt.Fixes (MergeRun.frame calls.newConversationId other)
      fun run => copyChunk calls id run chunk := by
  intro run
  unfold copyChunk
  split_ifs
  · rfl
  · rw [Attempt.final_ok, MergeRun.frame, MergeRun.frame, ConversationStore.held_copyBlob hne]
    rfl

theorem fixes_copyAudioChunksForMerge {other : String} (hne : other ≠ calls.newConversationId)
    (sources : List Source) :
    Attempt.Fixes (MergeRun.frame calls.newConversationId other)
      (copyAudioChunksForMerge calls sources) := by
  apply Attempt.Fixes.foldlM
  intro source _ run
  have hlist := Attempt.Fixes.raising (MergeRun.frame calls.newConversationId other)
    (calls.about source.1).listRaises
  have hcopies : Attempt.Fixes (MergeRun.frame calls.newConversationId other)
      fun run => (listAudioChunks run.store source.1).foldlM (copyChunk calls source.1) run := by
    intro run
    have hround := Attempt.Fixes.foldlM (listAudioChunks run.store source.1)
      fun chunk _ => fixes_copyChunk source.1 hne chunk
    exact hround run
  exact hlist.bind hcopies run

/-- The run whose store has the chunks behind the target's. -/
def MergeRun.withChunks (calls : MergeCalls) (run : MergeRun) (chunks : List AudioChunk) :
    MergeRun :=
  { run with store := { run.store with
    chunks := Function.update run.store.chunks calls.newConversationId
      (run.store.chunks calls.newConversationId ++ chunks) } }

theorem MergeRun.withChunks_nil : run.withChunks calls [] = run := by
  unfold withChunks
  rw [List.append_nil, Function.update_eq_self]

theorem MergeRun.withChunks_withChunks (first second : List AudioChunk) :
    (run.withChunks calls first).withChunks calls second =
      run.withChunks calls (first ++ second) := by
  unfold withChunks
  dsimp only
  rw [Function.update_self, Function.update_idem, List.append_assoc]

@[simp] theorem MergeRun.chunks_withChunks (chunks : List AudioChunk) :
    (run.withChunks calls chunks).store.chunks calls.newConversationId =
      run.store.chunks calls.newConversationId ++ chunks :=
  Function.update_self _ _ _

theorem MergeRun.chunks_withChunks_of_ne {id : String} (hne : id ≠ calls.newConversationId)
    (chunks : List AudioChunk) :
    (run.withChunks calls chunks).store.chunks id = run.store.chunks id :=
  Function.update_of_ne hne _ _

/-- Copying chunks of new names puts them behind the target's; only a copy can raise. -/
theorem foldlM_copyChunk_eq_ok_iff {id : String} {chunks : List AudioChunk} {last : MergeRun}
    (hnames : ((run.store.chunks calls.newConversationId ++ chunks).map
      AudioChunk.filename).Nodup) :
    chunks.foldlM (copyChunk calls id) run = .ok last ↔
      (∀ chunk ∈ chunks, (calls.about id).copyRaises chunk.filename = false) ∧
      last = run.withChunks calls chunks := by
  induction chunks generalizing run with
  | nil =>
    rw [MergeRun.withChunks_nil]
    show Except.ok run = Except.ok last ↔ _
    constructor
    · intro h
      cases h
      exact ⟨fun _ hnone => absurd hnone List.not_mem_nil, rfl⟩
    · rintro ⟨-, rfl⟩
      rfl
  | cons chunk chunks ih =>
    have hnew : ∀ other ∈ run.store.chunks calls.newConversationId,
        other.filename ≠ chunk.filename := by
      intro other hother
      rw [List.map_append] at hnames
      exact (List.nodup_append.mp hnames).2.2 _ (List.mem_map_of_mem hother) _
        (List.mem_map_of_mem List.mem_cons_self)
    have hcopied : { run with store := run.store.copyBlob chunk calls.newConversationId } =
        run.withChunks calls [chunk] := by
      unfold ConversationStore.copyBlob MergeRun.withChunks
      rw [List.filter_eq_self.mpr fun other hother => by simpa using hnew other hother]
    have hrest := @ih (run.withChunks calls [chunk]) (by
      rw [MergeRun.chunks_withChunks, List.append_assoc, List.singleton_append]
      exact hnames)
    rw [MergeRun.withChunks_withChunks, List.singleton_append] at hrest
    rw [Attempt.foldlM_cons_eq_ok_iff, List.forall_mem_cons]
    by_cases hraise : (calls.about id).copyRaises chunk.filename = true
    · constructor
      · rintro ⟨next, hnext, -⟩
        rw [copyChunk, if_pos hraise] at hnext
        cases hnext
      · rintro ⟨⟨hok, -⟩, -⟩
        rw [hraise] at hok
        cases hok
    · have hnext : copyChunk calls id run chunk = .ok (run.withChunks calls [chunk]) := by
        rw [copyChunk, if_neg hraise, hcopied]
      constructor
      · rintro ⟨next, hstep, hlast⟩
        rw [hnext] at hstep
        cases hstep
        obtain ⟨hcopies, hend⟩ := hrest.mp hlast
        exact ⟨⟨by simpa using hraise, hcopies⟩, hend⟩
      · rintro ⟨⟨-, hcopies⟩, hend⟩
        exact ⟨_, hnext, hrest.mpr ⟨hcopies, hend⟩⟩

theorem copyChunksOf_eq_ok_iff {source : Source} {last : MergeRun}
    (hnames : ((run.store.chunks calls.newConversationId ++
      listAudioChunks run.store source.1).map AudioChunk.filename).Nodup) :
    copyChunksOf calls run source = .ok last ↔
      CopiesAudio calls run.store source.1 ∧
      last = run.withChunks calls (listAudioChunks run.store source.1) := by
  unfold copyChunksOf CopiesAudio
  rw [bind_eq_ok_iff, and_assoc]
  constructor
  · rintro ⟨listed, hlisted, hcopies⟩
    obtain ⟨hlist, rfl⟩ := Attempt.raising_eq_ok_iff.mp hlisted
    obtain ⟨hchunks, hend⟩ := (foldlM_copyChunk_eq_ok_iff hnames).mp hcopies
    exact ⟨hlist, fun chunk hchunk => hchunks chunk (mem_listAudioChunks.mpr hchunk), hend⟩
  · rintro ⟨hlist, hchunks, hend⟩
    refine ⟨run, Attempt.raising_eq_ok_iff.mpr ⟨hlist, rfl⟩, ?_⟩
    exact (foldlM_copyChunk_eq_ok_iff hnames).mpr
      ⟨fun chunk hchunk => hchunks chunk (mem_listAudioChunks.mp hchunk), hend⟩

/-- Copying the audio of sources whose chunks have names of their own puts all of it behind
the target's; only a listing or a copy can raise. -/
theorem copyAudioChunksForMerge_eq_ok_iff {sources : List Source} {last : MergeRun}
    (hfresh : ∀ source ∈ sources, source.1 ≠ calls.newConversationId)
    (hnames : ((run.store.chunks calls.newConversationId ++
      sources.flatMap fun source => listAudioChunks run.store source.1).map
        AudioChunk.filename).Nodup) :
    copyAudioChunksForMerge calls sources run = .ok last ↔
      (∀ source ∈ sources, CopiesAudio calls run.store source.1) ∧
      last = run.withChunks calls
        (sources.flatMap fun source => listAudioChunks run.store source.1) := by
  unfold copyAudioChunksForMerge
  induction sources generalizing run with
  | nil =>
    rw [List.flatMap_nil, MergeRun.withChunks_nil]
    show Except.ok run = Except.ok last ↔ _
    constructor
    · intro h
      cases h
      exact ⟨fun _ hnone => absurd hnone List.not_mem_nil, rfl⟩
    · rintro ⟨-, rfl⟩
      rfl
  | cons source sources ih =>
    have hfreshRest : ∀ other ∈ sources, other.1 ≠ calls.newConversationId := fun other hother =>
      hfresh other (List.mem_cons_of_mem _ hother)
    rw [List.flatMap_cons, ← List.append_assoc] at hnames
    have hlisted : ((run.store.chunks calls.newConversationId ++
        listAudioChunks run.store source.1).map AudioChunk.filename).Nodup := by
      rw [List.map_append] at hnames
      exact (List.nodup_append.mp hnames).1
    let copied := run.withChunks calls (listAudioChunks run.store source.1)
    have hsame : ∀ other ∈ sources, copied.store.chunks other.1 = run.store.chunks other.1 :=
      fun other hother => MergeRun.chunks_withChunks_of_ne (hfreshRest other hother) _
    have hlistings : (sources.flatMap fun other => listAudioChunks copied.store other.1) =
        sources.flatMap fun other => listAudioChunks run.store other.1 := by
      apply List.flatMap_congr
      intro other hother
      unfold listAudioChunks
      rw [hsame other hother]
    have hcopies : (∀ other ∈ sources, CopiesAudio calls copied.store other.1) ↔
        ∀ other ∈ sources, CopiesAudio calls run.store other.1 := by
      apply forall₂_congr
      intro other hother
      unfold CopiesAudio
      rw [hsame other hother]
    have hrest := @ih copied hfreshRest (by
      rw [hlistings, MergeRun.chunks_withChunks]
      exact hnames)
    rw [hlistings, hcopies, MergeRun.withChunks_withChunks] at hrest
    rw [Attempt.foldlM_cons_eq_ok_iff, List.forall_mem_cons, List.flatMap_cons]
    constructor
    · rintro ⟨next, hnext, hlast⟩
      obtain ⟨hfirst, rfl⟩ := (copyChunksOf_eq_ok_iff hlisted).mp hnext
      obtain ⟨hothers, hend⟩ := hrest.mp hlast
      exact ⟨⟨hfirst, hothers⟩, hend⟩
    · rintro ⟨⟨hfirst, hothers⟩, hend⟩
      exact ⟨copied, (copyChunksOf_eq_ok_iff hlisted).mpr ⟨hfirst, rfl⟩,
        hrest.mpr ⟨hothers, hend⟩⟩

end copy

/-! ### The completion of a conversation -/

section complete
variable {calls : MergeCalls} {store : ConversationStore}

/-- What `complete` makes of the document of an id. -/
def Conversation.completedBy (calls : MergeCalls) (id : String) (conv : Conversation) :
    Conversation :=
  if (calls.about id).completeRaises then conv
  else (conv.claim .processing .completed <|> conv.claim .merging .completed).getD conv

theorem Conversation.transcriptSegments_claim {conv claimed : Conversation}
    {expected target : ConversationStatus} (h : conv.claim expected target = some claimed) :
    claimed.transcriptSegments = conv.transcriptSegments := by
  unfold claim at h
  split_ifs at h
  cases h
  rfl

@[simp] theorem Conversation.transcriptSegments_completedBy (id : String) (conv : Conversation) :
    (conv.completedBy calls id).transcriptSegments = conv.transcriptSegments := by
  unfold completedBy
  split_ifs
  · rfl
  · cases hfirst : conv.claim .processing .completed with
    | some claimed => exact transcriptSegments_claim hfirst
    | none =>
      cases hsecond : conv.claim .merging .completed with
      | some claimed => exact transcriptSegments_claim hsecond
      | none => rfl

variable (calls store) in
/-- Completing a conversation touches the document of its id only. -/
theorem final_complete (id : String) :
    (complete calls id store).final = { store with
      conversations := Function.update store.conversations id
        ((store.conversations id).map (Conversation.completedBy calls id)) } := by
  unfold complete Conversation.completedBy
  by_cases hraise : (calls.about id).completeRaises = true
  · have hmap : (store.conversations id).map (fun conv => conv) = store.conversations id :=
      Option.map_id'
    simp only [if_pos hraise, hmap, Function.update_eq_self]
    rfl
  · simp only [if_neg hraise]
    cases hconv : store.conversations id with
    | none =>
      have hsame : Function.update store.conversations id none = store.conversations := by
        rw [← hconv, Function.update_eq_self]
      rw [Option.map_none, hsame]
      rfl
    | some conv =>
      have hsame : Function.update store.conversations id (some conv) = store.conversations := by
        rw [← hconv, Function.update_eq_self]
      rw [Option.map_some]
      dsimp only
      cases conv.claim .processing .completed <|> conv.claim .merging .completed with
      | none =>
        rw [Option.getD_none, hsame]
        rfl
      | some claimed => rfl

theorem complete_isOk_iff {id : String} {conv : Conversation}
    (hconv : store.conversations id = some conv) :
    (∃ last, complete calls id store = .ok last) ↔ (calls.about id).completeRaises = false := by
  unfold complete
  by_cases hraise : (calls.about id).completeRaises = true
  · simp [hraise]
  · rw [if_neg hraise, hconv]
    dsimp only
    cases conv.claim .processing .completed <|> conv.claim .merging .completed with
    | none => simp [hraise]
    | some claimed => simp [hraise]

/-- The completions at the end of a failed merge: each document on its own. -/
theorem foldl_complete {ids : List String} (hnodup : ids.Nodup) :
    ids.foldl (fun store id => (complete calls id store).final) store = { store with
      conversations := fun id =>
        if id ∈ ids then (store.conversations id).map (Conversation.completedBy calls id)
        else store.conversations id } := by
  induction ids generalizing store with
  | nil => simp
  | cons id ids ih =>
    obtain ⟨hid, hrest⟩ := List.nodup_cons.mp hnodup
    rw [List.foldl_cons, ih hrest, final_complete]
    congr 1
    funext other
    by_cases hother : other = id
    · subst hother
      simp [hid]
    · simp [hother]

end complete

/-! ### The target -/

section build
variable {calls : MergeCalls} {run : MergeRun}

/-- The processor ends well, or the completion that stands in for it does. -/
def Processes (calls : MergeCalls) (reprocess : Bool) : Prop :=
  (reprocess = true ∧ calls.process.isSome) ∨
    (calls.about calls.newConversationId).completeRaises = false

theorem processMerged_isOk_iff (reprocess : Bool) {conv : Conversation}
    (hconv : run.store.conversations calls.newConversationId = some conv) :
    (∃ last, processMerged calls reprocess run = .ok last) ↔ Processes calls reprocess := by
  have hcomplete : (∃ last, onStore (complete calls calls.newConversationId) run = .ok last) ↔
      (calls.about calls.newConversationId).completeRaises = false := by
    rw [← complete_isOk_iff hconv]
    unfold onStore
    cases complete calls calls.newConversationId run.store with
    | ok store => simp
    | error store => simp
  unfold processMerged Processes
  cases reprocess with
  | false => simpa using hcomplete
  | true =>
    cases calls.process with
    | none => simpa using hcomplete
    | some discarded => simp

/-- Processing leaves the transcript of the target, and touches nothing but its document. -/
theorem processMerged_spec (reprocess : Bool) {conv : Conversation}
    (hconv : run.store.conversations calls.newConversationId = some conv) :
    ∃ next, next.transcriptSegments = conv.transcriptSegments ∧
      (processMerged calls reprocess run).final =
        { run with store := run.store.put calls.newConversationId next } := by
  have hcomplete : ∃ next : Conversation, next.transcriptSegments = conv.transcriptSegments ∧
      (onStore (complete calls calls.newConversationId) run).final =
        { run with store := run.store.put calls.newConversationId next } := by
    refine ⟨conv.completedBy calls calls.newConversationId, by simp, ?_⟩
    have hfinal := final_complete calls run.store calls.newConversationId
    rw [hconv, Option.map_some] at hfinal
    unfold onStore
    cases hend : complete calls calls.newConversationId run.store with
    | ok store =>
      rw [hend] at hfinal
      exact congrArg (fun store => { run with store }) hfinal
    | error store =>
      rw [hend] at hfinal
      exact congrArg (fun store => { run with store }) hfinal
  unfold processMerged
  cases reprocess with
  | false => exact hcomplete
  | true =>
    cases calls.process with
    | none => exact hcomplete
    | some discarded =>
      refine ⟨{ conv with status := .completed, discarded }, rfl, ?_⟩
      dsimp only
      rw [ConversationStore.processed, hconv]
      rfl

/-- Every call up to the first deletion ends well; no photo is collected, since the write
of one raises. -/
structure Builds (calls : MergeCalls) (reprocess : Bool) (store : ConversationStore)
    (ids : List String) : Prop where
  copies : ∀ id ∈ ids, CopiesAudio calls store id
  created : calls.createRaises = false
  queued : (∃ id ∈ ids, store.chunks id ≠ []) → calls.audioFiles.getD [] ≠ [] →
    calls.isAudioMergeDispatchEnabled = true → calls.enqueueRaises = false
  photoless : ∀ id ∈ ids, ¬ Collects calls store id
  processes : Processes calls reprocess
  historical : calls.canonicalIntakeIsFenced = true → calls.historicalRaises = false

theorem enqueue_iff (sources : List Source) (store : ConversationStore) :
    (!(mergedAudioFiles calls store sources).isEmpty && calls.isAudioMergeDispatchEnabled &&
        calls.enqueueRaises) = false ↔
      ((∃ id ∈ sources.map Prod.fst, store.chunks id ≠ []) → calls.audioFiles.getD [] ≠ [] →
        calls.isAudioMergeDispatchEnabled = true → calls.enqueueRaises = false) := by
  have hids : (∃ id ∈ sources.map Prod.fst, store.chunks id ≠ []) ↔
      ∃ source ∈ sources, store.chunks source.1 ≠ [] := by simp
  unfold mergedAudioFiles
  rw [hids]
  by_cases hchunks : ∃ source ∈ sources, store.chunks source.1 ≠ []
  · rw [if_pos hchunks]
    cases calls.isAudioMergeDispatchEnabled <;> cases calls.enqueueRaises <;> simp [hchunks]
  · rw [if_neg hchunks]
    simp [hchunks]

/-- The end of a build that nothing interrupts. -/
structure Built (calls : MergeCalls) (sources : List Source) (run last : MergeRun) : Prop where
  target : ∃ conv, last.store.conversations calls.newConversationId = some conv ∧
    conv.transcriptSegments = mergeTranscriptSegments sources
  photos : last.store.photos calls.newConversationId = run.store.photos calls.newConversationId
  chunks : last.store.chunks calls.newConversationId =
    run.store.chunks calls.newConversationId ++
      sources.flatMap fun source => listAudioChunks run.store source.1

theorem fixes_processMerged (reprocess : Bool) {other : String}
    (hne : other ≠ calls.newConversationId) {run : MergeRun} {conv : Conversation}
    (hconv : run.store.conversations calls.newConversationId = some conv) :
    (processMerged calls reprocess run).final.frame calls.newConversationId other =
      run.frame calls.newConversationId other := by
  obtain ⟨next, -, hfinal⟩ := processMerged_spec reprocess hconv
  rw [hfinal, MergeRun.frame, MergeRun.frame, ConversationStore.held_put hne]
  rfl

/-- However the build ends, every other id is as it was and no deletion has begun. -/
theorem frame_buildMerged {other : String} (hne : other ≠ calls.newConversationId)
    (conversationIds : List String) (reprocess : Bool) (sources : List Source) (run : MergeRun) :
    (buildMerged calls conversationIds reprocess sources run).final.frame
        calls.newConversationId other =
      { run with newConversationId := some calls.newConversationId }.frame
        calls.newConversationId other := by
  unfold buildMerged
  dsimp only
  refine ((fixes_copyAudioChunksForMerge hne sources).bind
    ((Attempt.Fixes.raising _ calls.createRaises).bind fun copied => ?_))
    { run with newConversationId := some calls.newConversationId }
  generalize newConversation calls conversationIds sources
    (mergedAudioFiles calls run.store sources) = merged
  let put : MergeRun := { copied with store := copied.store.put calls.newConversationId merged }
  have hput : put.frame calls.newConversationId other =
      copied.frame calls.newConversationId other := by
    rw [MergeRun.frame, MergeRun.frame, ConversationStore.held_put hne]
    rfl
  refine Eq.trans ?_ hput
  show (Attempt.raising _ put >>= _).final.frame _ _ = put.frame _ _
  rw [Attempt.raising_bind]
  split_ifs
  · rfl
  · rw [storeConversationPhotos, Attempt.raising_bind]
    split_ifs
    · rfl
    · rw [Attempt.final_bind_raising]
      have hconv : put.store.conversations calls.newConversationId = some merged :=
        Function.update_self _ _ _
      exact fixes_processMerged reprocess hne hconv

/-- The run with the audio copied and the document of the target written. -/
def MergeRun.drafted (calls : MergeCalls) (run : MergeRun) (sources : List Source)
    (merged : Conversation) : MergeRun :=
  let start : MergeRun := { run with newConversationId := some calls.newConversationId }
  let copied := start.withChunks calls
    (sources.flatMap fun source => listAudioChunks run.store source.1)
  { copied with store := copied.store.put calls.newConversationId merged }

variable (calls run) in
theorem MergeRun.conversations_drafted (sources : List Source) (merged : Conversation) :
    (run.drafted calls sources merged).store.conversations calls.newConversationId =
      some merged :=
  Function.update_self _ _ _

theorem MergeRun.chunks_drafted (sources : List Source) (merged : Conversation) :
    (run.drafted calls sources merged).store.chunks calls.newConversationId =
      run.store.chunks calls.newConversationId ++
        sources.flatMap fun source => listAudioChunks run.store source.1 :=
  Function.update_self _ _ _

section spec
variable {sources : List Source}
  (hfresh : ∀ source ∈ sources, source.1 ≠ calls.newConversationId)
  (hnames : ((run.store.chunks calls.newConversationId ++
    sources.flatMap fun source => listAudioChunks run.store source.1).map
      AudioChunk.filename).Nodup)
include hfresh hnames

theorem buildMerged_eq_ok_iff {last : MergeRun} (conversationIds : List String)
    (reprocess : Bool) :
    buildMerged calls conversationIds reprocess sources run = .ok last ↔
      (∀ source ∈ sources, CopiesAudio calls run.store source.1) ∧
      calls.createRaises = false ∧
      (!(mergedAudioFiles calls run.store sources).isEmpty &&
        calls.isAudioMergeDispatchEnabled && calls.enqueueRaises) = false ∧
      collectAllPhotos calls run.store sources = [] ∧
      (calls.canonicalIntakeIsFenced && calls.historicalRaises) = false ∧
      processMerged calls reprocess (run.drafted calls sources
        (newConversation calls conversationIds sources
          (mergedAudioFiles calls run.store sources))) = .ok last := by
  let start : MergeRun := { run with newConversationId := some calls.newConversationId }
  have hcopy : ∀ reached, copyAudioChunksForMerge calls sources start = .ok reached ↔
      (∀ source ∈ sources, CopiesAudio calls start.store source.1) ∧
      reached = start.withChunks calls
        (sources.flatMap fun source => listAudioChunks start.store source.1) :=
    fun reached => copyAudioChunksForMerge_eq_ok_iff hfresh hnames
  unfold buildMerged
  dsimp only
  rw [bind_eq_ok_iff]
  constructor
  · rintro ⟨reached, hreached, hrest⟩
    obtain ⟨hcopies, rfl⟩ := (hcopy reached).mp hreached
    obtain ⟨_, hcreate, hrest⟩ := bind_eq_ok_iff.mp hrest
    obtain ⟨hcreated, rfl⟩ := Attempt.raising_eq_ok_iff.mp hcreate
    obtain ⟨_, hqueue, hrest⟩ := bind_eq_ok_iff.mp hrest
    obtain ⟨hqueued, rfl⟩ := Attempt.raising_eq_ok_iff.mp hqueue
    obtain ⟨_, hphotos, hrest⟩ := bind_eq_ok_iff.mp hrest
    obtain ⟨hphotoless, rfl⟩ := Attempt.raising_eq_ok_iff.mp hphotos
    obtain ⟨_, hprocess, hrest⟩ := bind_eq_ok_iff.mp hrest
    obtain ⟨hhistorical, rfl⟩ := Attempt.raising_eq_ok_iff.mp hrest
    exact ⟨hcopies, hcreated, hqueued, by simpa using hphotoless, hhistorical, hprocess⟩
  · rintro ⟨hcopies, hcreated, hqueued, hphotoless, hhistorical, hprocess⟩
    refine ⟨_, (hcopy _).mpr ⟨hcopies, rfl⟩, ?_⟩
    rw [Attempt.raising_bind, hcreated, if_neg Bool.false_ne_true, Attempt.raising_bind, hqueued,
      if_neg Bool.false_ne_true, storeConversationPhotos, Attempt.raising_bind, hphotoless,
      if_neg (by simp), bind_eq_ok_iff]
    exact ⟨last, hprocess, Attempt.raising_eq_ok_iff.mpr ⟨hhistorical, rfl⟩⟩

/-- The deletion of the sources begins exactly where every call before it ends well. -/
theorem buildMerged_isOk_iff (conversationIds : List String) (reprocess : Bool) :
    (∃ last, buildMerged calls conversationIds reprocess sources run = .ok last) ↔
      Builds calls reprocess run.store (sources.map Prod.fst) := by
  have hprocesses := processMerged_isOk_iff reprocess
    (MergeRun.conversations_drafted calls run sources
      (newConversation calls conversationIds sources
        (mergedAudioFiles calls run.store sources)))
  constructor
  · rintro ⟨last, hlast⟩
    obtain ⟨hcopies, hcreated, hqueued, hphotoless, hhistorical, hprocess⟩ :=
      (buildMerged_eq_ok_iff hfresh hnames conversationIds reprocess).mp hlast
    exact
      { copies := by simpa using hcopies
        created := hcreated
        queued := (enqueue_iff sources run.store).mp hqueued
        photoless := by simpa using (collectAllPhotos_eq_nil_iff sources).mp hphotoless
        processes := hprocesses.mp ⟨last, hprocess⟩
        historical := fun hfenced => by simpa [hfenced] using hhistorical }
  · intro h
    obtain ⟨last, hprocess⟩ := hprocesses.mpr h.processes
    refine ⟨last, (buildMerged_eq_ok_iff hfresh hnames conversationIds reprocess).mpr
      ⟨by simpa using h.copies, h.created, (enqueue_iff sources run.store).mpr h.queued,
        (collectAllPhotos_eq_nil_iff sources).mpr (by simpa using h.photoless), ?_, hprocess⟩⟩
    cases hfenced : calls.canonicalIntakeIsFenced with
    | false => rfl
    | true => exact h.historical hfenced

/-- What the target holds when the deletion of the sources begins. -/
theorem buildMerged_built {last : MergeRun} (conversationIds : List String) (reprocess : Bool)
    (h : buildMerged calls conversationIds reprocess sources run = .ok last) :
    Built calls sources run last := by
  obtain ⟨-, -, -, -, -, hprocess⟩ :=
    (buildMerged_eq_ok_iff hfresh hnames conversationIds reprocess).mp h
  obtain ⟨conv, hsegments, hfinal⟩ := processMerged_spec reprocess
    (MergeRun.conversations_drafted calls run sources
      (newConversation calls conversationIds sources
        (mergedAudioFiles calls run.store sources)))
  rw [hprocess, Attempt.final_ok] at hfinal
  rw [hfinal]
  exact
    { target := ⟨conv, Function.update_self _ _ _, hsegments⟩
      photos := rfl
      chunks := MergeRun.chunks_drafted sources (newConversation calls conversationIds sources
        (mergedAudioFiles calls run.store sources)) }

end spec

end build

end Omi.Conversations
