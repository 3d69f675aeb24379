import Mathlib
import Omi.Foundation.Attempts

/-! The merge of conversations into a new one: what each source holds, the calls that may
raise, and the task that builds the target, deletes the sources and rolls back. -/
namespace Omi.Conversations
open Omi.Foundation

/-- A segment of a transcript; `text` stands for whatever else its record says. -/
structure TranscriptSegment where
  text : String
  start : ℚ
  stop : ℚ
deriving DecidableEq, Repr

def TranscriptSegment.shift (seg : TranscriptSegment) (offset : ℚ) : TranscriptSegment :=
  { seg with start := seg.start + offset, stop := seg.stop + offset }

/-- A photo of the `photos` subcollection, as the record that a read returns. -/
structure PhotoRecord where
  id : String
  createdAt : Option ℚ := none
  base64 : String := ""
deriving DecidableEq, Repr

/-- A blob of the bucket under the path of a conversation, named by its time. -/
structure AudioChunk where
  filename : String
  timestamp : ℚ
  data : List UInt8 := []
deriving DecidableEq, Repr

inductive ConversationStatus where
  | inProgress | processing | merging | completed | failed
deriving DecidableEq, Repr

/-- The document of a conversation: the fields that the merge reads or writes. -/
structure Conversation where
  createdAt : Option ℚ := none
  startedAt : Option ℚ := none
  finishedAt : Option ℚ := none
  language : String := "en"
  source : String := "omi"
  transcriptSegments : List TranscriptSegment := []
  audioFiles : List String := []
  geolocation : Option String := none
  visibility : String := "private"
  privateCloudSyncEnabled : Bool := false
  usesCustomStt : Bool := false
  discarded : Bool := false
  deleted : Bool := false
  status : ConversationStatus := .completed
  clientDeviceId : Option String := none
  clientPlatform : Option String := none
  sourceConversationIds : List String := []
deriving DecidableEq, Repr

/-- The documents, the photo subcollections and the audio bucket of one user. A document
goes without its subcollection and without its blobs. -/
structure ConversationStore where
  conversations : String → Option Conversation := fun _ => none
  photos : String → List PhotoRecord := fun _ => []
  chunks : String → List AudioChunk := fun _ => []

/-- How the retraction of a conversation's memories ends: it raises before its authoritative
commit or after it, it ends well, or there was nothing to retract. -/
inductive Retraction where
  | unavailable | interrupted | retracted | nothingToRetract
deriving DecidableEq, Repr

def Retraction.succeeds : Retraction → Bool
  | .retracted | .nothingToRetract => true
  | .unavailable | .interrupted => false

/-- Which of the calls made about one conversation raise. A deletion of many records can
raise after some of them are gone: it says which. -/
structure ConversationCalls where
  getRaises : Bool := false
  photosRaise : Bool := false
  listRaises : Bool := false
  copyRaises : String → Bool := fun _ => false
  retraction : Retraction := .retracted
  actionItemsRaise : Bool := false
  deletePhotosRaises : Option (String → Bool) := none
  deleteAudioRaises : Option (String → Bool) := none
  deleteVectorRaises : Bool := false
  deleteConversationRaises : Option (String → Bool) := none
  completeRaises : Bool := false

/-- The calls of one merge and what they answer. `audioFiles` and `process` are `none` where
the call raises; `process` says otherwise whether the processed conversation is discarded. -/
structure MergeCalls where
  about : String → ConversationCalls := fun _ => {}
  newConversationId : String
  now : ℚ := 0
  audioFiles : Option (List String) := some []
  createRaises : Bool := false
  isAudioMergeDispatchEnabled : Bool := false
  enqueueRaises : Bool := false
  process : Option Bool := some false
  canonicalIntakeIsFenced : Bool := false
  historicalRaises : Bool := false
  notifyRaises : Bool := false

inductive MergeFailurePhase where
  | beforeSourceDeletion | sourceDeletionStarted
deriving DecidableEq, Repr

/-- The store and the local variables that the failure handling reads. -/
structure MergeRun where
  store : ConversationStore
  newConversationId : Option String := none
  failurePhase : MergeFailurePhase := .beforeSourceDeletion

/-! ### The transcript -/

abbrev Source := String × Conversation

def utcMin : ℚ := -62135596800

/-- The sources in the order of their start; one without a start comes first. -/
def sortByStart (conversations : List Source) : List Source :=
  conversations.insertionSort fun a b =>
    a.2.startedAt.getD utcMin ≤ b.2.startedAt.getD utcMin

/-- How far a conversation moves the ones after it: to its last segment, or by its length. -/
def Conversation.span (conv : Conversation) : Option ℚ :=
  match conv.transcriptSegments with
  | seg :: segments => some (segments.foldl (fun latest s => max latest s.stop) seg.stop)
  | [] => do
    let finished ← conv.finishedAt
    let started ← conv.startedAt
    pure (finished - started)

/-- The silence between a conversation and the one before it, never negative. -/
def gapAfter (previous conv : Conversation) : ℚ :=
  match previous.finishedAt, conv.startedAt with
  | some prevFinished, some currStarted => max 0 (currStarted - prevFinished)
  | _, _ => 0

/-- The loop of the merge after its first conversation. -/
def mergeSegmentsAfter (previous : Conversation) (cumulativeOffset : ℚ) :
    List Source → List TranscriptSegment
  | [] => []
  | (_, conv) :: rest =>
    let offset := cumulativeOffset + gapAfter previous conv
    conv.transcriptSegments.map (·.shift offset) ++
      mergeSegmentsAfter conv
        (match conv.span with
          | some span => offset + span
          | none => cumulativeOffset)
        rest

def mergeTranscriptSegments : List Source → List TranscriptSegment
  | [] => []
  | (_, conv) :: rest =>
    conv.transcriptSegments ++ mergeSegmentsAfter conv (conv.span.getD 0) rest

/-! ### Photos and audio -/

/-- The photos of all sources, each id once: a fetch that raises is logged and left out. -/
def collectAllPhotos (calls : MergeCalls) (store : ConversationStore)
    (conversations : List Source) : List PhotoRecord :=
  let all := conversations.foldl
    (fun allPhotos (id, _) =>
      if (calls.about id).photosRaise then allPhotos
      else (store.photos id).foldl
        (fun seen photo =>
          if photo.id ≠ "" ∧ ∀ other ∈ seen, other.id ≠ photo.id then seen ++ [photo] else seen)
        allPhotos)
    []
  all.insertionSort fun a b => a.createdAt.getD utcMin ≤ b.createdAt.getD utcMin

/-- `list_audio_chunks`: the blobs under the path of a conversation by their time. -/
def listAudioChunks (store : ConversationStore) (id : String) : List AudioChunk :=
  (store.chunks id).insertionSort fun a b => a.timestamp ≤ b.timestamp

/-- A copied blob replaces the one of its name. -/
def ConversationStore.copyBlob (store : ConversationStore) (chunk : AudioChunk) (newId : String) :
    ConversationStore :=
  { store with
    chunks := Function.update store.chunks newId
      ((store.chunks newId).filter (fun other => other.filename ≠ chunk.filename) ++ [chunk]) }

def copyChunk (calls : MergeCalls) (id : String) (run : MergeRun) (chunk : AudioChunk) :
    Attempt MergeRun MergeRun :=
  if (calls.about id).copyRaises chunk.filename then .error run
  else .ok { run with store := run.store.copyBlob chunk calls.newConversationId }

/-- The chunks of one source: no error is swallowed here, the sources are still whole. -/
def copyChunksOf (calls : MergeCalls) (run : MergeRun) (source : Source) : Attempt MergeRun MergeRun := do
  let run ← Attempt.raising (calls.about source.1).listRaises run
  (listAudioChunks run.store source.1).foldlM (copyChunk calls source.1) run

def copyAudioChunksForMerge (calls : MergeCalls) (conversations : List Source) (run : MergeRun) :
    Attempt MergeRun MergeRun :=
  conversations.foldlM (copyChunksOf calls) run

/-- The records of the copied audio: a failure to make them is logged. -/
def mergedAudioFiles (calls : MergeCalls) (store : ConversationStore)
    (conversations : List Source) : List String :=
  if ∃ source ∈ conversations, store.chunks source.1 ≠ [] then calls.audioFiles.getD [] else []

/-! ### The document of the target -/

def visibilityPriority (visibility : String) : ℕ :=
  if visibility = "shared" then 1 else if visibility = "public" then 2 else 0

/-- The most restrictive visibility wins, the first of equally restrictive ones. -/
def determineVisibility (conversations : List Source) : String :=
  conversations.foldl
    (fun least (_, conv) =>
      if visibilityPriority conv.visibility < visibilityPriority least then conv.visibility
      else least)
    "public"

/-- The capture device, where all sources name the same one in full. -/
def sharedClientDeviceProvenance (conversations : List Source) :
    Option String × Option String :=
  match conversations with
  | [] => (none, none)
  | (_, first) :: rest =>
    if (∀ source ∈ rest, source.2.clientDeviceId = first.clientDeviceId ∧
        source.2.clientPlatform = first.clientPlatform) ∧
        first.clientDeviceId.getD "" ≠ "" ∧ first.clientPlatform.getD "" ≠ "" then
      (first.clientDeviceId, first.clientPlatform)
    else (none, none)

def newConversation (calls : MergeCalls) (conversationIds : List String)
    (sortedConvs : List Source) (audioFiles : List String) : Conversation :=
  let first := (sortedConvs.head?.map Prod.snd).getD {}
  let provenance := sharedClientDeviceProvenance sortedConvs
  { createdAt := some (first.createdAt.getD calls.now)
    startedAt := first.startedAt
    finishedAt := some ((sortedConvs.map fun source => source.2.finishedAt.getD utcMin).foldl max
      utcMin)
    language := first.language
    source := first.source
    transcriptSegments := mergeTranscriptSegments sortedConvs
    audioFiles
    geolocation := first.geolocation
    visibility := determineVisibility sortedConvs
    privateCloudSyncEnabled := sortedConvs.any fun source => source.2.privateCloudSyncEnabled
    usesCustomStt := sortedConvs.any fun source => source.2.usesCustomStt
    discarded := sortedConvs.all fun source => source.2.discarded
    status := .processing
    clientDeviceId := provenance.1
    clientPlatform := provenance.2
    sourceConversationIds := conversationIds }

def ConversationStore.put (store : ConversationStore) (id : String) (conv : Conversation) :
    ConversationStore :=
  { store with conversations := Function.update store.conversations id (some conv) }

/-- `store_conversation_photos` reads `photo.id` of the photos it is given. The merge gives
it the records of `_collect_all_photos`, which are dictionaries and have no such attribute: it
raises for any photo. -/
def storeConversationPhotos (photos : List PhotoRecord) (run : MergeRun) : Attempt MergeRun MergeRun :=
  Attempt.raising (!photos.isEmpty) run

/-! ### Lifecycle writes -/

/-- `claim_conversation_status`: no claim on a discarded conversation or another status. -/
def Conversation.claim (conv : Conversation) (expected claimed : ConversationStatus) :
    Option Conversation :=
  if conv.discarded ∨ conv.status ≠ expected then none else some { conv with status := claimed }

def complete (calls : MergeCalls) (id : String) (store : ConversationStore) :
    Attempt ConversationStore ConversationStore :=
  if (calls.about id).completeRaises then .error store
  else
    match store.conversations id with
    | none => .error store
    | some conv =>
      match conv.claim .processing .completed <|> conv.claim .merging .completed with
      | some claimed => .ok (store.put id claimed)
      | none => .ok store

/-- What the processor writes of a conversation that still exists; its segments stay. -/
def ConversationStore.processed (store : ConversationStore) (id : String) (discarded : Bool) :
    ConversationStore :=
  match store.conversations id with
  | some conv => store.put id { conv with status := .completed, discarded }
  | none => store

def onStore (step : ConversationStore → Attempt ConversationStore ConversationStore) (run : MergeRun) :
    Attempt MergeRun MergeRun :=
  match step run.store with
  | .ok store => .ok { run with store }
  | .error store => .error { run with store }

/-- Process the target; where that raises, or is not asked for, only complete it. -/
def processMerged (calls : MergeCalls) (reprocess : Bool) (run : MergeRun) : Attempt MergeRun MergeRun :=
  match reprocess, calls.process with
  | true, some discarded =>
    .ok { run with store := run.store.processed calls.newConversationId discarded }
  | _, _ => onStore (complete calls calls.newConversationId) run

/-! ### Deletion -/

/-- The records of a subcollection that a deletion leaves. -/
def leftBy {α : Type} (raises : Option (String → Bool)) (name : α → String) (items : List α) :
    List α :=
  match raises with
  | none => []
  | some gone => items.filter fun item => !gone (name item)

/-- The end of a deletion: it raises where the pattern says after which records. -/
def deletion (raises : Option (String → Bool)) (store : ConversationStore) :
    Attempt ConversationStore ConversationStore :=
  match raises with
  | none => .ok store
  | some _ => .error store

def deleteConversationPhotos (calls : MergeCalls) (id : String) (store : ConversationStore) :
    Attempt ConversationStore ConversationStore :=
  let raises := (calls.about id).deletePhotosRaises
  deletion raises { store with
    photos := Function.update store.photos id (leftBy raises PhotoRecord.id (store.photos id)) }

def deleteConversationAudioFiles (calls : MergeCalls) (id : String) (store : ConversationStore) :
    Attempt ConversationStore ConversationStore :=
  let raises := (calls.about id).deleteAudioRaises
  deletion raises { store with
    chunks := Function.update store.chunks id
      (leftBy raises AudioChunk.filename (store.chunks id)) }

/-- `delete_conversation`: the subcollections first, then the document. -/
def deleteConversation (calls : MergeCalls) (id : String) (store : ConversationStore) :
    Attempt ConversationStore ConversationStore :=
  let raises := (calls.about id).deleteConversationRaises
  let photos := Function.update store.photos id (leftBy raises PhotoRecord.id (store.photos id))
  deletion raises { store with
    photos
    conversations :=
      if raises.isNone then Function.update store.conversations id none
      else store.conversations }

/-- The steps behind the retraction, each of which only logs its error. -/
def deleteRelatedData (calls : MergeCalls) (store : ConversationStore) (id : String) :
    ConversationStore :=
  let store := (Attempt.raising (calls.about id).actionItemsRaise store).final
  let store := (deleteConversationPhotos calls id store).final
  let store := (deleteConversationAudioFiles calls id store).final
  let store := (Attempt.raising (calls.about id).deleteVectorRaises store).final
  (deleteConversation calls id store).final

/-- The retraction raises to the merge; its commit, or the finding that there is nothing to
retract, marks the deletion as started. -/
def deleteConversationAndRelatedData (calls : MergeCalls) (run : MergeRun) (id : String) :
    Attempt MergeRun MergeRun :=
  let started : MergeRun := { run with failurePhase := .sourceDeletionStarted }
  match (calls.about id).retraction with
  | .unavailable => .error run
  | .interrupted => .error started
  | .retracted | .nothingToRetract =>
    .ok { started with store := deleteRelatedData calls run.store id }

/-! ### The merge -/

/-- Steps 3 to 8: copy the audio, write the target, queue its artifact, store its photos and
process it, and list the historical sources where the intake is fenced. -/
def buildMerged (calls : MergeCalls) (conversationIds : List String) (reprocess : Bool)
    (sortedConvs : List Source) (run : MergeRun) : Attempt MergeRun MergeRun := do
  let photos := collectAllPhotos calls run.store sortedConvs
  let audioFiles := mergedAudioFiles calls run.store sortedConvs
  let merged := newConversation calls conversationIds sortedConvs audioFiles
  let run ← copyAudioChunksForMerge calls sortedConvs
    { run with newConversationId := some calls.newConversationId }
  let run ← Attempt.raising calls.createRaises run
  let run := { run with store := run.store.put calls.newConversationId merged }
  let run ← Attempt.raising
    (!audioFiles.isEmpty && calls.isAudioMergeDispatchEnabled && calls.enqueueRaises) run
  let run ← storeConversationPhotos photos run
  let run ← processMerged calls reprocess run
  Attempt.raising (calls.canonicalIntakeIsFenced && calls.historicalRaises) run

def mergeSources (calls : MergeCalls) (conversationIds : List String) (reprocess : Bool)
    (conversations : List Source) (run : MergeRun) : Attempt MergeRun MergeRun := do
  let sortedConvs := sortByStart conversations
  let run ← buildMerged calls conversationIds reprocess sortedConvs run
  let run ← (sortedConvs.map Prod.fst).foldlM (deleteConversationAndRelatedData calls) run
  Attempt.raising calls.notifyRaises run

/-- The target goes with its artifacts, unless the retraction of its memories fails. -/
def cleanupMergedTargetAfterFailure (calls : MergeCalls) (id : String)
    (store : ConversationStore) : ConversationStore :=
  if (calls.about id).retraction.succeeds then
    let store := (deleteConversationPhotos calls id store).final
    let store := (deleteConversationAudioFiles calls id store).final
    let store := (Attempt.raising (calls.about id).deleteVectorRaises store).final
    (deleteConversation calls id store).final
  else store

def handleMergeFailure (calls : MergeCalls) (conversationIds : List String) (run : MergeRun) :
    ConversationStore :=
  let store :=
    match run.newConversationId, run.failurePhase with
    | some id, .beforeSourceDeletion => cleanupMergedTargetAfterFailure calls id run.store
    | _, _ => run.store
  conversationIds.foldl (fun store id => (complete calls id store).final) store

/-- The sources that exist, or `none` where a read raises. -/
def fetchSources (calls : MergeCalls) (store : ConversationStore) :
    List String → Option (List Source)
  | [] => some []
  | id :: ids =>
    if (calls.about id).getRaises then none
    else
      (fetchSources calls store ids).map fun sources =>
        match store.conversations id with
        | some conv => (id, conv) :: sources
        | none => sources

/-- What a merge leaves, and the phase in which it failed, if it did. -/
structure MergeEnd where
  store : ConversationStore
  failure : Option MergeFailurePhase

/-- The `except` of the task, and its early returns. -/
def endMerge (calls : MergeCalls) (conversationIds : List String) :
    Attempt MergeRun MergeRun → MergeEnd
  | .ok run => { store := run.store, failure := none }
  | .error run =>
    { store := handleMergeFailure calls conversationIds run, failure := some run.failurePhase }

def performMergeAsync (calls : MergeCalls) (conversationIds : List String) (reprocess : Bool)
    (store : ConversationStore) : MergeEnd :=
  match fetchSources calls store conversationIds with
  | none => endMerge calls conversationIds (.error { store })
  | some conversations =>
    if conversations.length < 2 then endMerge calls conversationIds (.error { store })
    else if conversations.any fun source => source.2.deleted then
      endMerge calls conversationIds (.error { store })
    else
      endMerge calls conversationIds
        (mergeSources calls conversationIds reprocess conversations { store })

end Omi.Conversations
