import Omi.Transcripts.Chunks

/-! The chunks of a transcript are the windows over the segments that have a line, whoever is
known by name: what is hydrated under an index are the lines that were embedded under it. -/
namespace Omi.Transcripts
open Omi.Foundation

/-- The segments that have a line. -/
def spokenSegments (segments : List SegmentDict) : List SegmentDict :=
  segments.filter (·.spoken ≠ "")

theorem transcriptLines_eq (segments : List SegmentDict) (peopleById : Option (Table String)) :
    transcriptLines segments peopleById =
      (spokenSegments segments).map (transcriptLine peopleById) := by
  induction segments with
  | nil => rfl
  | cons seg segments ih =>
    unfold transcriptLines spokenSegments at ih ⊢
    by_cases hspoken : seg.spoken = "" <;> simp [hspoken, ih]

variable {δ : Type} {dates : Datetimes δ} {startedAt : Option δ}
  {peopleById : Option (Table String)}

/-! ### The loop -/

section loop
variable (w : Windowing) {header : String} {ts : ℤ} {lines : List String}

/-- The chunk of the `i`-th window over the lines. -/
def lineChunk (header : String) (ts : ℤ) (lines : List String) (i : ℕ) : TranscriptChunk where
  text := header ++ "\n".intercalate (w.piece lines i)
  createdAt := ts
  chunkIndex := i

theorem range_succ_lineChunk (i : ℕ) :
    (List.range (i + 1)).map (lineChunk w header ts lines) =
      (List.range i).map (lineChunk w header ts lines) ++ [lineChunk w header ts lines i] := by
  rw [List.range_succ, List.map_append, List.map_singleton]

/-- A turn at a window adds its chunk; it is the last one if no window follows. -/
theorem chunkTurn_at {i : ℕ} (hi : i < w.count lines.length) :
    chunkTurn header ts lines w.window w.stride
        ⟨w.start i, i, (List.range i).map (lineChunk w header ts lines)⟩ =
      if i + 1 < w.count lines.length then
        .next ⟨w.start (i + 1), i + 1, (List.range (i + 1)).map (lineChunk w header ts lines)⟩
      else .left ((List.range (i + 1)).map (lineChunk w header ts lines)) := by
  have hstart := w.start_lt_length hi
  rw [chunkTurn, if_pos hstart, range_succ_lineChunk, w.start_succ]
  by_cases hnext : i + 1 < w.count lines.length
  · have hinside := w.succ_lt_count_iff.mp hnext
    rw [if_pos hnext, if_neg (Nat.not_le.mpr hinside)]
    rfl
  · have hends : lines.length ≤ w.start i + w.window := by
      rw [w.succ_lt_count_iff] at hnext
      exact Nat.not_lt.mp hnext
    rw [if_neg hnext, if_pos hends]
    rfl

/-- From its `i`-th turn on the loop adds the chunks of the windows that are left. -/
theorem runLoop_chunkTurn {fuel i : ℕ} (hi : i < w.count lines.length)
    (hfuel : w.count lines.length ≤ i + fuel) :
    runLoop (chunkTurn header ts lines w.window w.stride) fuel
        ⟨w.start i, i, (List.range i).map (lineChunk w header ts lines)⟩ =
      some ((List.range (w.count lines.length)).map (lineChunk w header ts lines)) := by
  induction fuel generalizing i with
  | zero => omega
  | succ fuel ih =>
    rw [runLoop, chunkTurn_at w hi]
    by_cases hnext : i + 1 < w.count lines.length
    · rw [if_pos hnext]
      apply ih hnext
      omega
    · have hlast : i + 1 = w.count lines.length := by omega
      rw [if_neg hnext, hlast]

end loop

/-! ### Chunks as windows over segments -/

/-- The text of a chunk that has the lines of some segments. -/
def renderText (dates : Datetimes δ) (startedAt : Option δ) (peopleById : Option (Table String))
    (piece : List SegmentDict) : String :=
  dateHeader dates startedAt ++ "\n".intercalate (piece.map (transcriptLine peopleById))

/-- The chunk of the `i`-th window over the segments that have a line. -/
def windowChunk (w : Windowing) (dates : Datetimes δ) (segments : List SegmentDict)
    (startedAt : Option δ) (peopleById : Option (Table String)) (i : ℕ) : TranscriptChunk where
  text := renderText dates startedAt peopleById (w.piece (spokenSegments segments) i)
  createdAt := createdTs dates startedAt
  chunkIndex := i

/-- How many chunks a transcript has. -/
def chunkCount (w : Windowing) (segments : List SegmentDict) : ℕ :=
  w.count (spokenSegments segments).length

theorem buildTranscriptChunks_eq (w : Windowing) (segments : List SegmentDict) :
    buildTranscriptChunks dates segments startedAt w.window w.stride peopleById =
      some ((List.range (chunkCount w segments)).map
        (windowChunk w dates segments startedAt peopleById)) := by
  have hlines := transcriptLines_eq segments peopleById
  have hlength : (transcriptLines segments peopleById).length =
      (spokenSegments segments).length := by rw [hlines, List.length_map]
  have hchunk : lineChunk w (dateHeader dates startedAt) (createdTs dates startedAt)
        (transcriptLines segments peopleById) =
      windowChunk w dates segments startedAt peopleById := by
    funext i
    rw [lineChunk, windowChunk, renderText, hlines, w.map_piece]
  rw [buildTranscriptChunks, chunkCount]
  by_cases hempty : (transcriptLines segments peopleById).length = 0
  · have hnone : w.count (spokenSegments segments).length = 0 := by
      rw [w.count_eq_zero_iff, ← hlength, hempty]
    rw [if_pos (by rw [List.isEmpty_iff, List.length_eq_zero_iff.mp hempty]), hnone]
    rfl
  · have hsome : ¬ (transcriptLines segments peopleById).isEmpty = true := by
      rwa [List.isEmpty_iff, ← List.length_eq_zero_iff]
    have hpos : 0 < w.count (transcriptLines segments peopleById).length := by
      rw [Nat.pos_iff_ne_zero, ne_eq, w.count_eq_zero_iff]
      exact hempty
    have hfuel : w.count (transcriptLines segments peopleById).length ≤
        0 + ((transcriptLines segments peopleById).length + 1) := by
      have hle := w.count_le (transcriptLines segments peopleById).length
      omega
    rw [if_neg hsome, ← hlength, ← hchunk, ← runLoop_chunkTurn w hpos hfuel, Windowing.start,
      Nat.zero_mul]
    rfl

theorem renderText_ne_empty {piece : List SegmentDict} (hpiece : piece ≠ []) :
    renderText dates startedAt peopleById piece ≠ "" := by
  obtain ⟨seg, rest, rfl⟩ := List.exists_cons_of_ne_nil hpiece
  rw [renderText, List.map_cons, transcriptLine, String.intercalate_cons_append]
  intro hempty
  obtain ⟨-, hlines⟩ := String.append_eq_empty_iff.mp hempty
  obtain ⟨hlabel, -⟩ := String.append_eq_empty_iff.mp hlines
  obtain ⟨-, hcolon⟩ := String.append_eq_empty_iff.mp hlabel
  exact absurd hcolon (by decide)

/-! ### Reading chunks back -/

theorem chunkStride_pos : 0 < chunkStride := by decide

theorem chunkStride_le : chunkStride ≤ chunkWindow := by decide

/-- The windows of indexing and hydration. -/
def chunkWindowing : Windowing where
  window := chunkWindow
  stride := chunkStride
  stride_pos := chunkStride_pos
  stride_le := chunkStride_le

/-- The conversations of a user: one that has an id is stored under it. -/
structure ConversationStore (δ : Type) where
  docs : Table (ConversationDoc δ)
  keyed : ∀ conversationId doc,
    docs.get conversationId = some doc → doc.id.getD conversationId = conversationId

/-- The conversation, unless it is discarded. -/
def ConversationStore.readable (store : ConversationStore δ) (conversationId : String) :
    Option (ConversationDoc δ) :=
  (store.docs.get conversationId).filter fun doc => !doc.discarded

theorem ConversationStore.getConversationsById_eq (store : ConversationStore δ)
    (conversationIds : List String) :
    getConversationsById store.docs conversationIds =
      conversationIds.filterMap fun conversationId =>
        (store.readable conversationId).map (conversationId, ·) := by
  have hread : (conversationIds.filterMap fun conversationId =>
        (store.docs.get conversationId).bind fun data =>
          if data.discarded then none else some (data.id.getD conversationId, data)) =
      conversationIds.filterMap fun conversationId =>
        (store.readable conversationId).map (conversationId, ·) := by
    apply List.filterMap_congr
    intro conversationId _
    rw [ConversationStore.readable]
    cases hdoc : store.docs.get conversationId with
    | none => rfl
    | some doc =>
      have hkey := store.keyed conversationId doc hdoc
      by_cases hdiscarded : doc.discarded = true <;> simp [hdiscarded, hkey]
  rw [getConversationsById, hread]
  apply List.filterMap_congr
  intro conversationId hmem
  rw [lastWrite_filterMap hmem]

/-- What hydration keeps of a conversation. -/
def ConversationDoc.source (dates : Datetimes δ) (doc : ConversationDoc δ) : HydrationSource δ where
  chunks := (List.range (chunkCount chunkWindowing doc.transcriptSegments)).map
    (windowChunk chunkWindowing dates doc.transcriptSegments doc.started none)
  title := doc.title
  startedAt := doc.started

theorem hydrationSources_eq (conversations : List (String × ConversationDoc δ)) :
    hydrationSources dates conversations =
      some (conversations.map fun conversation =>
        (conversation.1, conversation.2.source dates)) := by
  induction conversations with
  | nil => rfl
  | cons conversation conversations ih =>
    obtain ⟨convId, doc⟩ := conversation
    have hbuilt : buildTranscriptChunks dates doc.transcriptSegments doc.started =
        some (doc.source dates).chunks :=
      buildTranscriptChunks_eq chunkWindowing doc.transcriptSegments
    rw [hydrationSources] at ih ⊢
    rw [List.mapM_cons, ih]
    simp only [hbuilt]
    rfl

/-- The row with the text of its chunk, as the store has it. -/
def ConversationStore.rehydrated (store : ConversationStore δ) (dates : Datetimes δ)
    (row : ChunkRow) : Option (HydratedRow δ) := do
  let convId ← row.conversationId
  let chunkIdx ← row.chunkIndex
  let doc ← if convId = "" then none else store.readable convId
  let text ← chunkText (doc.source dates).chunks chunkIdx
  if text = "" then none
  else
    some
      { toChunkRow := row
        text := text
        conversationTitle := doc.title
        conversationStartedAt := doc.started }

theorem ConversationStore.rehydrated_row {store : ConversationStore δ} {row : ChunkRow}
    {kept : HydratedRow δ} (h : store.rehydrated dates row = some kept) :
    kept.toChunkRow = row := by
  obtain ⟨convId, -, hconv⟩ := Option.bind_eq_some_iff.mp h
  obtain ⟨chunkIdx, -, hrow⟩ := Option.bind_eq_some_iff.mp hconv
  by_cases hempty : convId = ""
  · simp [hempty] at hrow
  · simp only [if_neg hempty, Option.bind_eq_bind, Option.bind_eq_some_iff] at hrow
    obtain ⟨doc, -, text, -, hkept⟩ := hrow
    split_ifs at hkept
    rw [← Option.some.inj hkept]

/-- The sources of the conversations that are listed, as they are written under their ids. -/
def ConversationStore.sources (store : ConversationStore δ) (dates : Datetimes δ)
    (convIds : List String) : List (String × HydrationSource δ) :=
  convIds.filterMap fun convId => ((store.readable convId).map (·.source dates)).map (convId, ·)

theorem ConversationStore.hydrationSources_eq (store : ConversationStore δ)
    (convIds : List String) :
    hydrationSources dates (getConversationsById store.docs convIds) =
      some (store.sources dates convIds) := by
  rw [Transcripts.hydrationSources_eq, store.getConversationsById_eq, List.map_filterMap, sources]
  apply congrArg some
  apply List.filterMap_congr
  intro convId _
  cases store.readable convId <;> rfl

theorem ConversationStore.hydrateRow_eq (store : ConversationStore δ) {convIds : List String}
    {row : ChunkRow}
    (hlisted : ∀ convId, row.conversationId = some convId → convId ≠ "" → convId ∈ convIds) :
    hydrateRow (store.sources dates convIds) row = store.rehydrated dates row := by
  rw [hydrateRow, ConversationStore.rehydrated]
  cases hconv : row.conversationId with
  | none => rfl
  | some convId =>
    cases row.chunkIndex with
    | none => rfl
    | some chunkIdx =>
      by_cases hempty : convId = ""
      · simp [hempty]
      · have hkept : lastWrite (convIds.filterMap fun convId =>
              ((store.readable convId).map (·.source dates)).map (convId, ·)) convId =
            (store.readable convId).map (·.source dates) :=
          lastWrite_filterMap (hlisted convId hconv hempty)
        simp only [Option.bind_eq_bind, Option.bind_some, if_neg hempty, sources, hkept]
        cases store.readable convId <;> rfl

/-- Hydration reads each row on its own, and leaves out those that have no text. -/
theorem hydrateChunkTexts_eq (store : ConversationStore δ) (rows : List ChunkRow) :
    hydrateChunkTexts dates store.docs rows = some (rows.filterMap (store.rehydrated dates)) := by
  have hrows : ∀ row ∈ rows, hydrateRow (store.sources dates
      ((rows.filterMap (·.conversationId)).filter (· ≠ "")).dedup) row =
      store.rehydrated dates row := by
    intro row hrow
    apply store.hydrateRow_eq
    intro convId hconv hne
    rw [List.mem_dedup, List.mem_filter, List.mem_filterMap]
    exact ⟨⟨row, hrow, hconv⟩, decide_eq_true hne⟩
  rw [hydrateChunkTexts]
  generalize ((rows.filterMap (·.conversationId)).filter (· ≠ "")).dedup = convIds at hrows ⊢
  by_cases hnone : convIds.isEmpty = true
  · have hdropped : ∀ row ∈ rows, store.rehydrated dates row = none := by
      intro row hrow
      rw [← hrows row hrow, List.isEmpty_iff.mp hnone, hydrateRow]
      cases row.conversationId with
      | none => rfl
      | some convId => cases row.chunkIndex <;> simp [ConversationStore.sources, lastWrite]
    rw [if_pos hnone, List.filterMap_eq_nil_iff.mpr hdropped]
  · rw [if_neg hnone, store.hydrationSources_eq]
    apply congrArg some
    exact List.filterMap_congr hrows

theorem chunkText_source (dates : Datetimes δ) (doc : ConversationDoc δ) {i : ℕ}
    (hi : i < chunkCount chunkWindowing doc.transcriptSegments) :
    chunkText (doc.source dates).chunks i =
      some (renderText dates doc.started none
        (chunkWindowing.piece (spokenSegments doc.transcriptSegments) i)) := by
  rw [chunkText, ConversationDoc.source, List.map_map]
  apply lastWrite_of_agree
  · exact List.mem_map.mpr ⟨i, List.mem_range.mpr hi, rfl⟩
  · rintro write hwrite hindex
    obtain ⟨j, -, rfl⟩ := List.mem_map.mp hwrite
    have hj : j = i := Int.ofNat.inj hindex
    rw [hj]
    rfl

/-- A chunk that was embedded, with what was known of the start and of the people by then, and its
conversation as it is read later. -/
structure StoredChunk (dates : Datetimes δ) (store : ConversationStore δ) where
  conversationId : String
  doc : ConversationDoc δ
  startedAt : Option δ
  peopleById : Option (Table String)
  chunks : List TranscriptChunk
  chunk : TranscriptChunk
  named : conversationId ≠ ""
  found : store.docs.get conversationId = some doc
  kept : doc.discarded = false
  built : buildTranscriptChunks dates doc.transcriptSegments startedAt chunkWindow chunkStride
    peopleById = some chunks
  mem : chunk ∈ chunks

namespace StoredChunk
variable {store : ConversationStore δ} (stored : StoredChunk dates store)

/-- The row names the conversation and the index of the chunk. -/
def IsNamedBy (row : ChunkRow) : Prop :=
  row.conversationId = some stored.conversationId ∧
    row.chunkIndex = some (stored.chunk.chunkIndex : ℤ)

/-- The segments whose lines were embedded. -/
def piece : List SegmentDict :=
  chunkWindowing.piece (spokenSegments stored.doc.transcriptSegments) stored.chunk.chunkIndex

theorem chunk_eq :
    stored.chunk.chunkIndex < chunkCount chunkWindowing stored.doc.transcriptSegments ∧
      stored.chunk = windowChunk chunkWindowing dates stored.doc.transcriptSegments
        stored.startedAt stored.peopleById stored.chunk.chunkIndex := by
  have hbuilt : buildTranscriptChunks dates stored.doc.transcriptSegments stored.startedAt
      chunkWindow chunkStride stored.peopleById = _ :=
    buildTranscriptChunks_eq chunkWindowing stored.doc.transcriptSegments
  have hchunks := Option.some.inj (hbuilt.symm.trans stored.built)
  have hmem := stored.mem
  rw [← hchunks] at hmem
  obtain ⟨i, hi, hchunk⟩ := List.mem_map.mp hmem
  have hindex : stored.chunk.chunkIndex = i := by rw [← hchunk]; rfl
  rw [hindex]
  exact ⟨List.mem_range.mp hi, hchunk.symm⟩

theorem text_eq :
    stored.chunk.text = renderText dates stored.startedAt stored.peopleById stored.piece := by
  rw [stored.chunk_eq.2]
  rfl

theorem piece_ne_nil : stored.piece ≠ [] := chunkWindowing.piece_ne_nil _ stored.chunk_eq.1

/-- A row that names the chunk is hydrated, with the lines that were embedded. -/
theorem rehydrated_eq {row : ChunkRow} (hrow : stored.IsNamedBy row) :
    store.rehydrated dates row =
      some
        { toChunkRow := row
          text := renderText dates stored.doc.started none stored.piece
          conversationTitle := stored.doc.title
          conversationStartedAt := stored.doc.started } := by
  obtain ⟨hconv, hindex⟩ := hrow
  have hread : store.readable stored.conversationId = some stored.doc := by
    rw [ConversationStore.readable, stored.found, Option.filter_some, stored.kept]
    rfl
  have htext := chunkText_source dates stored.doc stored.chunk_eq.1
  have hne : renderText dates stored.doc.started none stored.piece ≠ "" :=
    renderText_ne_empty stored.piece_ne_nil
  rw [piece] at hne ⊢
  simp only [ConversationStore.rehydrated, hconv, hindex, Option.bind_eq_bind, Option.bind_some,
    if_neg stored.named, hread, htext, if_neg hne]

end StoredChunk

/-! ### Coverage -/

/-- The windows over some lines, in order: each line is in one of them, nothing but the lines is,
and each has a line that the one before it has not. -/
structure CoversLines {α : Type*} (w : Windowing) (lines : List α) : Prop where
  covered : ∀ position < lines.length, ∃ i < w.count lines.length,
    w.Holds lines.length i position ∧
      (w.piece lines i)[position - w.start i]? = lines[position]?
  inOrder : ((List.range (w.count lines.length)).map (w.added lines)).flatten = lines
  fresh : ∀ i, i + 1 < w.count lines.length → ∃ position,
    w.Holds lines.length (i + 1) position ∧ ¬ w.Holds lines.length i position

theorem coversLines {α : Type*} (w : Windowing) (lines : List α) : CoversLines w lines where
  covered position hposition := by
    obtain ⟨i, hi, hold⟩ := w.exists_holds hposition
    exact ⟨i, hi, hold, w.getElem?_piece lines hold⟩
  inOrder := w.flatten_added lines
  fresh _ hi := w.exists_fresh hi

/-- The chunks of a transcript are the rendered windows over its lines, one for each index, and
which lines these are depends neither on the people nor on the start: a chunk that is read back
has the lines that were embedded. -/
theorem chunks_cover_and_hydrate (dates : Datetimes δ) :
    (∀ (segments : List SegmentDict) (w : Windowing),
      CoversLines w (spokenSegments segments) ∧
        ∀ (startedAt : Option δ) (peopleById : Option (Table String)), ∃ chunks,
          buildTranscriptChunks dates segments startedAt w.window w.stride peopleById =
              some chunks ∧
            chunks.map (·.chunkIndex) = List.range (chunkCount w segments) ∧
            ∀ chunk ∈ chunks, chunk.text =
              renderText dates startedAt peopleById
                (w.piece (spokenSegments segments) chunk.chunkIndex)) ∧
      ∀ (store : ConversationStore δ) (stored : StoredChunk dates store) (rows : List ChunkRow),
        stored.chunk.text = renderText dates stored.startedAt stored.peopleById stored.piece ∧
          ∃ hydrated, hydrateChunkTexts dates store.docs rows = some hydrated ∧
            (∀ row ∈ rows, stored.IsNamedBy row → ∃ kept ∈ hydrated, kept.toChunkRow = row) ∧
            ∀ kept ∈ hydrated, stored.IsNamedBy kept.toChunkRow →
              kept.text = renderText dates stored.doc.started none stored.piece := by
  constructor
  · intro segments w
    refine ⟨coversLines w (spokenSegments segments), fun startedAt peopleById => ?_⟩
    refine ⟨_, buildTranscriptChunks_eq w segments, ?_, ?_⟩
    · rw [List.map_map]
      exact List.map_id _
    · intro chunk hchunk
      obtain ⟨i, -, rfl⟩ := List.mem_map.mp hchunk
      rfl
  · intro store stored rows
    refine ⟨stored.text_eq, _, hydrateChunkTexts_eq store rows, ?_, ?_⟩
    · intro row hrow hnamed
      exact ⟨_, List.mem_filterMap.mpr ⟨row, hrow, stored.rehydrated_eq hnamed⟩, rfl⟩
    · intro kept hkept hnamed
      obtain ⟨row, -, hrow⟩ := List.mem_filterMap.mp hkept
      have hsame : kept.toChunkRow = row := ConversationStore.rehydrated_row hrow
      rw [hsame] at hnamed
      have hfound := hrow.symm.trans (stored.rehydrated_eq hnamed)
      rw [Option.some.inj hfound]

/-- Ten turns of a speaker, whose name is known when they are embedded and not when they are read
back. -/
def anasTurns : ConversationDoc ℕ where
  id := some "c"
  startedAt := some 5
  transcriptSegments := (List.range 10).map fun turn =>
    { text := some (" " ++ toString turn), speakerId := some 2, personId := some "p" }

def anasDates : Datetimes ℕ where
  strftime _ _ := "May"
  timestamp startedAt := startedAt

def anasDocs : Table (ConversationDoc ℕ) := [("b", { discarded := true }), ("c", anasTurns)]

theorem anasDocs_keyed (conversationId : String) (doc : ConversationDoc ℕ)
    (hdoc : anasDocs.get conversationId = some doc) :
    doc.id.getD conversationId = conversationId := by
  simp only [anasDocs, Table.get, List.lookup_cons] at hdoc
  grind [anasTurns]

def anasStore : ConversationStore ℕ where
  docs := anasDocs
  keyed := anasDocs_keyed

/-- The second of the two chunks. -/
def anasLastTurns : StoredChunk anasDates anasStore where
  conversationId := "c"
  doc := anasTurns
  startedAt := some 5
  peopleById := some [("p", "Ana")]
  chunks :=
    [⟨"[Conversation on May]\nAna: 0\nAna: 1\nAna: 2\nAna: 3\nAna: 4\nAna: 5\nAna: 6\nAna: 7", 5, 0⟩,
      ⟨"[Conversation on May]\nAna: 6\nAna: 7\nAna: 8\nAna: 9", 5, 1⟩]
  chunk := ⟨"[Conversation on May]\nAna: 6\nAna: 7\nAna: 8\nAna: 9", 5, 1⟩
  named := by decide
  found := rfl
  kept := rfl
  built := by decide +kernel
  mem := by decide

/-- A search finds the second chunk and one of the discarded conversation. -/
theorem chunks_cover_and_hydrate_anasLastTurns :
    let rows : List ChunkRow := [⟨some "b", some 0, some 5, 1⟩, ⟨some "c", some 1, some 5, 1⟩]
    anasLastTurns.chunk.text =
        renderText anasDates (some 5) (some [("p", "Ana")]) anasLastTurns.piece ∧
      ∃ hydrated, hydrateChunkTexts anasDates anasStore.docs rows = some hydrated ∧
        (∃ kept ∈ hydrated, kept.toChunkRow = ⟨some "c", some 1, some 5, 1⟩) ∧
        ∀ kept ∈ hydrated, anasLastTurns.IsNamedBy kept.toChunkRow →
          kept.text =
            "[Conversation on May]\nSpeaker 2: 6\nSpeaker 2: 7\nSpeaker 2: 8\nSpeaker 2: 9" := by
  intro rows
  obtain ⟨htext, hydrated, hread, hfound, hkept⟩ :=
    (chunks_cover_and_hydrate anasDates).2 anasStore anasLastTurns rows
  refine ⟨htext, hydrated, hread, hfound _ (by decide) ⟨rfl, rfl⟩, fun kept hmem hnamed => ?_⟩
  rw [hkept kept hmem hnamed]
  decide +kernel

end Omi.Transcripts
