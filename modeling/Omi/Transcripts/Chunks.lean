import Omi.Foundation.LastWrite
import Omi.Foundation.Loops
import Omi.Foundation.PyText
import Omi.Foundation.PyValue
import Omi.Foundation.SlidingWindows

/-! Transcript chunks for vector search (`utils/conversations/transcript_chunks.py`): a transcript
is cut into overlapping windows of its lines when it is indexed, and cut again, with the names left
out, when a search returns one of its chunks. -/
namespace Omi.Transcripts
open Omi.Foundation

/-- `strftime` of a datetime, and `int(timestamp())`. -/
structure Datetimes (δ : Type) where
  strftime : δ → String → String
  timestamp : δ → ℤ

/-- What chunking reads of a segment; a field that is not there is `None`. -/
structure SegmentDict where
  text : Option String
  isUser : Bool := false
  speakerId : Option ℤ := none
  personId : Option String := none
  deriving DecidableEq, Repr

structure TranscriptChunk where
  text : String
  createdAt : ℤ
  chunkIndex : ℕ
  deriving DecidableEq, Repr

/-! ### Lines -/

/-- `_speaker_label`. -/
def speakerLabel (seg : SegmentDict) (peopleById : Option (Table String)) : String :=
  if seg.isUser then "User"
  else
    let personId := seg.personId.getD ""
    let name := if personId = "" then none else (peopleById.getD []).get personId
    name.getD (seg.speakerId.elim "Speaker" fun speakerId => "Speaker " ++ toString speakerId)

/-- `(seg.get('text') or '').strip()`. -/
def SegmentDict.spoken (seg : SegmentDict) : String := strip (seg.text.getD "")

def transcriptLine (peopleById : Option (Table String)) (seg : SegmentDict) : String :=
  speakerLabel seg peopleById ++ ": " ++ seg.spoken

/-- The lines of a transcript; a segment without text has none. -/
def transcriptLines (segments : List SegmentDict) (peopleById : Option (Table String)) :
    List String :=
  segments.filterMap fun seg =>
    if seg.spoken = "" then none else some (transcriptLine peopleById seg)

/-! ### Chunks -/

def chunkWindow : ℕ := 8

def chunkStride : ℕ := 6

/-- The variables of the loop. -/
structure Chunking where
  pos : ℕ := 0
  idx : ℕ := 0
  chunks : List TranscriptChunk := []

/-- One turn of the loop. -/
def chunkTurn (dateHeader : String) (createdTs : ℤ) (lines : List String) (window stride : ℕ)
    (loop : Chunking) : Turn Chunking (List TranscriptChunk) :=
  if loop.pos < lines.length then
    let piece := (lines.drop loop.pos).take window
    let chunk : TranscriptChunk :=
      { text := dateHeader ++ "\n".intercalate piece
        createdAt := createdTs
        chunkIndex := loop.idx }
    if lines.length ≤ loop.pos + window then .left (loop.chunks ++ [chunk])
    else .next
      { pos := loop.pos + stride
        idx := loop.idx + 1
        chunks := loop.chunks ++ [chunk] }
  else .left loop.chunks

section
variable {δ : Type} (dates : Datetimes δ)

def dateHeader (startedAt : Option δ) : String :=
  startedAt.elim "" fun startedAt =>
    "[Conversation on " ++ dates.strftime startedAt "%d %b %Y, %H:%M" ++ "]\n"

def createdTs (startedAt : Option δ) : ℤ := startedAt.elim 0 dates.timestamp

/-- `build_transcript_chunks`, where its loop is left. One turn more than there are lines is
enough for that with any stride but zero. -/
def buildTranscriptChunks (segments : List SegmentDict) (startedAt : Option δ)
    (window : ℕ := chunkWindow) (stride : ℕ := chunkStride)
    (peopleById : Option (Table String) := none) : Option (List TranscriptChunk) :=
  let lines := transcriptLines segments peopleById
  if lines.isEmpty then some []
  else
    runLoop (chunkTurn (dateHeader dates startedAt) (createdTs dates startedAt) lines window stride)
      (lines.length + 1) {}

/-! ### Hydration -/

/-- What hydration reads of a conversation document, after its decryption. -/
structure ConversationDoc (δ : Type) where
  id : Option String := none
  discarded : Bool := false
  startedAt : Option δ := none
  createdAt : Option δ := none
  structured : PyVal := .none
  transcriptSegments : List SegmentDict := []

/-- A chunk reference as `search_transcript_chunks` returns it. -/
structure ChunkRow where
  conversationId : Option String
  chunkIndex : Option ℤ
  createdAt : Option ℤ
  score : ℚ
  deriving DecidableEq, Repr

structure HydratedRow (δ : Type) extends ChunkRow where
  text : String
  conversationTitle : PyVal
  conversationStartedAt : Option δ

/-- `get_conversations_by_id`, each conversation under its id. -/
def getConversationsById (docs : Table (ConversationDoc δ)) (conversationIds : List String) :
    List (String × ConversationDoc δ) :=
  let conversationsById := conversationIds.filterMap fun conversationId =>
    (docs.get conversationId).bind fun data =>
      if data.discarded then none else some (data.id.getD conversationId, data)
  conversationIds.filterMap fun conversationId =>
    (lastWrite conversationsById conversationId).map (conversationId, ·)

def ConversationDoc.started (doc : ConversationDoc δ) : Option δ :=
  doc.startedAt.orElse fun _ => doc.createdAt

def ConversationDoc.title (doc : ConversationDoc δ) : PyVal :=
  match doc.structured with
  | .dict structured => PyDict.get structured "title"
  | _ => .none

/-- What hydration keeps of a conversation: its chunks, its title and its start. -/
structure HydrationSource (δ : Type) where
  chunks : List TranscriptChunk
  title : PyVal
  startedAt : Option δ

/-- `{ch['chunk_index']: ch['text'] for ch in chunks}.get(chunk_idx)`. -/
def chunkText (chunks : List TranscriptChunk) (chunkIdx : ℤ) : Option String :=
  lastWrite (chunks.map fun chunk => ((chunk.chunkIndex : ℤ), chunk.text)) chunkIdx

/-- The chunks and the metadata of the conversations that were read, as they are written under
their ids. -/
def hydrationSources (conversations : List (String × ConversationDoc δ)) :
    Option (List (String × HydrationSource δ)) :=
  conversations.mapM fun (convId, doc) => do
    let chunks ← buildTranscriptChunks dates doc.transcriptSegments doc.started
    some (convId, { chunks := chunks, title := doc.title, startedAt := doc.started })

/-- The row with its text, if the conversation and the chunk are still there. -/
def hydrateRow (sources : List (String × HydrationSource δ)) (row : ChunkRow) :
    Option (HydratedRow δ) := do
  let convId ← row.conversationId
  let chunkIdx ← row.chunkIndex
  let source ← if convId = "" then none else lastWrite sources convId
  let text ← chunkText source.chunks chunkIdx
  if text = "" then none
  else
    some
      { toChunkRow := row
        text := text
        conversationTitle := source.title
        conversationStartedAt := source.startedAt }

/-- `hydrate_chunk_texts`, on the documents of one user. -/
def hydrateChunkTexts (docs : Table (ConversationDoc δ)) (rows : List ChunkRow) :
    Option (List (HydratedRow δ)) :=
  -- a set in the source, in some order: only lookups by id follow
  let convIds := ((rows.filterMap (·.conversationId)).filter (· ≠ "")).dedup
  if convIds.isEmpty then some []
  else do
    let sources ← hydrationSources dates (getConversationsById docs convIds)
    some (rows.filterMap (hydrateRow sources))

end

end Omi.Transcripts
