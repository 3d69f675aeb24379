import Mathlib
import Omi.Pendant.WireFields

/-! Flash pages and storage buffers as the pendant writes them, and that the parsers read them
back. A page with wrappers but without a frame is not surfaced. -/
namespace Omi.Pendant

/-! ### What the pendant writes -/

/-- An Opus frame and the number of its field. -/
structure OpusFrame where
  fieldNum : Fin 16
  bytes : Bytes
  valid : isOpusFrame bytes

def OpusFrame.encode (frame : OpusFrame) : Bytes := encodeBytesField frame.fieldNum frame.bytes

/-- A 0x1a wrapper: an offset (0x08) and a field of audio (0x12). -/
structure AudioWrapper where
  offset : Option Varint
  frames : List OpusFrame

namespace AudioWrapper

def encodeOffset (wrapper : AudioWrapper) : Bytes :=
  match wrapper.offset with
  | none => []
  | some offset => encodeIntField 1 offset

def audio (wrapper : AudioWrapper) : Bytes := wrapper.frames.flatMap OpusFrame.encode

def body (wrapper : AudioWrapper) : Bytes :=
  wrapper.encodeOffset ++ encodeBytesField 2 wrapper.audio

def encode (wrapper : AudioWrapper) : Bytes := encodeBytesField 3 wrapper.body

def opusFrames (wrapper : AudioWrapper) : List Bytes := wrapper.frames.map OpusFrame.bytes

end AudioWrapper

/-- A flash page: timestamp (0x08), uptime (0x10) and wrappers. -/
structure PendantPage where
  timestampMs : Varint
  uptime : Varint
  wrappers : List AudioWrapper

namespace PendantPage

def header (page : PendantPage) : Bytes :=
  encodeIntField 1 page.timestampMs ++ encodeIntField 2 page.uptime

def encode (page : PendantPage) : Bytes :=
  page.header ++ page.wrappers.flatMap AudioWrapper.encode

def opusFrames (page : PendantPage) : List Bytes := page.wrappers.flatMap AudioWrapper.opusFrames

/-- The page has a frame, or no wrapper at all. -/
def surfaces (page : PendantPage) : Bool := page.opusFrames ≠ [] || page.wrappers.isEmpty

end PendantPage

/-- A storage buffer with a page. -/
structure StoredPage where
  session : Option Varint
  seq : Option Varint
  index : Varint
  page : PendantPage

namespace StoredPage

def optionalField (fieldNum : Fin 16) (value : Option Varint) : List WireField :=
  value.toList.map (WireField.int fieldNum)

def encode (stored : StoredPage) : Bytes :=
  encodeFields
    (optionalField 2 stored.session ++ optionalField 4 stored.seq ++
      [.int 5 stored.index, .bytes 6 stored.page.encode])

/-- What a parser is to make of it. -/
def flashPage (dialect : Dialect) (stored : StoredPage) : FlashPage where
  index := some stored.index.val
  session := stored.session.map fun session => dialect.toInt session.val
  timestampMs := stored.page.timestampMs.val
  opusFrames := stored.page.opusFrames

end StoredPage

/-! ### Frames -/

section frames
variable {data : Bytes} {pos : ℕ}

theorem OpusFrame.length_le (frame : OpusFrame) : 10 ≤ frame.bytes.length := by
  have hvalid := frame.valid
  simp only [isOpusFrame, Bool.and_eq_true, decide_eq_true_eq] at hvalid
  exact hvalid.1.1

theorem length_encodeBytesField (fieldNum : ℕ) (data : Bytes) :
    data.length + 2 ≤ (encodeBytesField fieldNum data).length := by
  have htag := List.length_pos_of_ne_nil (encodeVarint_ne_nil (fieldNum * 8 + 2))
  have hlength := List.length_pos_of_ne_nil (encodeVarint_ne_nil data.length)
  rw [encodeBytesField, encodeField, List.length_append, List.length_append]
  omega

theorem length_le_flatMap {α : Type} (items : List α) (encode : α → Bytes)
    (hne : ∀ item, 0 < (encode item).length) : items.length ≤ (items.flatMap encode).length := by
  induction items with
  | nil => exact Nat.zero_le _
  | cons item rest ih =>
    have hpos := hne item
    rw [List.flatMap_cons, List.length_append, List.length_cons]
    omega

theorem length_le_audio (frames : List OpusFrame) :
    frames.length ≤ (frames.flatMap OpusFrame.encode).length :=
  length_le_flatMap frames OpusFrame.encode fun _ =>
    (Nat.zero_lt_succ _).trans_le (length_encodeBytesField _ _)

theorem AudioWrapper.length_body (wrapper : AudioWrapper) : 2 ≤ wrapper.body.length := by
  have haudio := length_encodeBytesField 2 wrapper.audio
  rw [AudioWrapper.body, List.length_append]
  omega

theorem length_le_wrappers (wrappers : List AudioWrapper) :
    wrappers.length ≤ (wrappers.flatMap AudioWrapper.encode).length :=
  length_le_flatMap wrappers AudioWrapper.encode fun _ =>
    (Nat.zero_lt_succ _).trans_le (length_encodeBytesField _ _)

variable {dialect : Dialect} {bound : ℕ} (hlaw : dialect.Lawful bound)
  (hbound : data.length < bound)
include hlaw hbound

/-- The induction is on the frames that are left. -/
theorem extractOpusRecursive_encode {frames : List OpusFrame} {stop fuel : ℕ}
    (h : Stands data pos (frames.flatMap OpusFrame.encode))
    (hstop : pos + (frames.flatMap OpusFrame.encode).length = stop)
    (hfuel : frames.length ≤ fuel) :
    extractOpusRecursive dialect data fuel pos stop = (frames.map OpusFrame.bytes, true) := by
  induction frames generalizing pos fuel with
  | nil =>
    have hpos : ¬ (pos : ℤ) < (stop : ℤ) - 1 := by
      rw [List.flatMap_nil, List.length_nil] at hstop
      omega
    cases fuel with
    | zero => rfl
    | succ fuel =>
      rw [extractOpusRecursive, if_neg hpos]
      rfl
  | cons frame rest ih =>
    obtain ⟨fuel, rfl⟩ : ∃ n, fuel = n + 1 := by
      cases fuel with
      | zero => cases hfuel
      | succ fuel => exact ⟨fuel, rfl⟩
    have hle := h.le
    rw [List.flatMap_cons] at h hstop hle
    rw [List.length_append] at hstop hle
    obtain ⟨start, hstart, hafter, htag, hdecode, hvalue⟩ :=
      Stands.bytesField hlaw h.left frame.fieldNum.isLt hbound
    have hten := frame.length_le
    have hframe : OpusFrame.encode frame = encodeBytesField frame.fieldNum frame.bytes := rfl
    rw [hframe] at hstop hle
    have hpos : (pos : ℤ) < (stop : ℤ) - 1 := by omega
    have htype : (frame.fieldNum.val * 8 + 2) % 8 = 2 := by omega
    have hadvance : dialect.advance start frame.bytes.length =
        (pos + (encodeBytesField frame.fieldNum frame.bytes).length : ℕ) := by
      rw [hlaw.advance start frame.bytes.length (by omega), hafter]
    have hread := hlaw.audioField start frame.bytes.length stop data.length (by omega) (by omega)
      (by omega) hbound
    have hslice := hvalue.slice
    rw [hafter] at hslice
    have hrest := ih h.right (by rw [hframe]; omega) (Nat.le_of_succ_le_succ hfuel)
    rw [extractOpusRecursive, if_pos hpos, htag, hdecode]
    dsimp only
    rw [if_pos htype, hread, hadvance]
    dsimp only
    rw [hslice]
    dsimp only
    rw [if_pos frame.valid]
    rw [hframe] at hrest
    rw [hrest]
    rfl

/-! ### Wrappers -/

/-- The audio field of a wrapper, after its offset. -/
theorem extractSubfields_audio {wrapper : AudioWrapper} {stop fuel : ℕ}
    (h : Stands data pos (encodeBytesField 2 wrapper.audio))
    (hstop : pos + (encodeBytesField 2 wrapper.audio).length = stop) (hfuel : 0 < fuel) :
    extractSubfields dialect data fuel pos stop = (wrapper.opusFrames, true) := by
  obtain ⟨fuel, rfl⟩ : ∃ n, fuel = n + 1 := ⟨fuel - 1, by omega⟩
  have hle := h.le
  obtain ⟨start, hstart, hafter, htag, hdecode, hvalue⟩ := Stands.bytesField hlaw h (by omega) hbound
  have hframes := length_le_audio wrapper.frames
  have hpos : (pos : ℤ) < (stop : ℤ) - 1 := by omega
  have hadvance : dialect.advance start wrapper.audio.length = (stop : ℕ) := by
    rw [hlaw.advance start wrapper.audio.length (by omega), hafter, hstop]
  have hextract : extractOpusRecursive dialect data data.length start stop =
      (wrapper.opusFrames, true) := by
    have haudio : wrapper.audio = wrapper.frames.flatMap OpusFrame.encode := rfl
    rw [haudio] at hvalue hafter
    refine extractOpusRecursive_encode hlaw hbound hvalue ?_ ?_
    · rw [hafter, ← haudio, hstop]
    · rw [← haudio] at hframes
      have hinside := hvalue.le
      rw [← haudio] at hinside
      omega
  have hdone : extractSubfields dialect data fuel stop stop = ([], true) := by
    cases fuel with
    | zero => rfl
    | succ fuel => rw [extractSubfields, if_neg (by omega)]
  have hmarker : ¬ 2 * 8 + 2 = 8 := by omega
  rw [extractSubfields, if_pos hpos, htag, hdecode]
  dsimp only
  rw [if_neg hmarker, if_pos rfl, if_pos (hlaw.wrapperFits _ _ _ hvalue.le hbound), hadvance,
    hextract, hdone]
  simp only [Extracted.followedBy, if_true, List.append_nil]

omit hbound in
/-- Where the audio field of a wrapper stands: at its start, or after the offset. -/
theorem AudioWrapper.stands_audio {wrapper : AudioWrapper} (h : Stands data pos wrapper.body) :
    ∃ next : ℕ, Stands data next (encodeBytesField 2 wrapper.audio) ∧
      next + (encodeBytesField 2 wrapper.audio).length = pos + wrapper.body.length ∧
      (next = pos ∨ byteAt data pos = some 8 ∧
        ∃ value, decodeVarint dialect.shiftLeft data (pos + 1) = (value, (next : ℤ))) := by
  have hrest := h.right
  have hlength : wrapper.body.length =
      wrapper.encodeOffset.length + (encodeBytesField 2 wrapper.audio).length :=
    List.length_append
  refine ⟨pos + wrapper.encodeOffset.length, hrest, by omega, ?_⟩
  cases hoffset : wrapper.offset with
  | none =>
    left
    rw [AudioWrapper.encodeOffset, hoffset]
    rfl
  | some offset =>
    have hsome : wrapper.encodeOffset = encodeIntField 1 offset := by
      rw [AudioWrapper.encodeOffset, hoffset]
    have hfirst := h.left
    rw [hsome] at hfirst ⊢
    obtain ⟨htag, hdecode⟩ := hfirst.intField hlaw (by omega)
    exact .inr ⟨htag, _, hdecode⟩

theorem extractSubfields_encode {wrapper : AudioWrapper} {stop fuel : ℕ}
    (h : Stands data pos wrapper.body) (hstop : pos + wrapper.body.length = stop)
    (hfuel : 1 < fuel) :
    extractSubfields dialect data fuel pos stop = (wrapper.opusFrames, true) := by
  have hbody := wrapper.length_body
  obtain ⟨next, haudio, hlength, rfl | ⟨htag, value, hdecode⟩⟩ :=
    AudioWrapper.stands_audio hlaw h
  · exact extractSubfields_audio hlaw hbound haudio (by omega) (by omega)
  · obtain ⟨fuel, rfl⟩ : ∃ n, fuel = n + 1 := ⟨fuel - 1, by omega⟩
    rw [extractSubfields, if_pos (by omega), htag, hdecode]
    dsimp only
    rw [if_pos rfl]
    exact extractSubfields_audio hlaw hbound haudio (by omega) (by omega)

/-- The induction is on the wrappers that are left; they end the page. -/
theorem extractWrappers_encode {wrappers : List AudioWrapper} {fuel : ℕ}
    (h : Stands data pos (wrappers.flatMap AudioWrapper.encode))
    (hend : pos + (wrappers.flatMap AudioWrapper.encode).length = data.length)
    (hfuel : wrappers.length ≤ fuel) :
    extractWrappers dialect data fuel pos = (wrappers.flatMap AudioWrapper.opusFrames, true) := by
  induction wrappers generalizing pos fuel with
  | nil =>
    have hpos : ¬ (pos : ℤ) < (data.length : ℤ) - 2 := by
      rw [List.flatMap_nil, List.length_nil] at hend
      omega
    cases fuel with
    | zero => rfl
    | succ fuel =>
      rw [extractWrappers, if_neg hpos]
      rfl
  | cons wrapper rest ih =>
    obtain ⟨fuel, rfl⟩ : ∃ n, fuel = n + 1 := by
      cases fuel with
      | zero => cases hfuel
      | succ fuel => exact ⟨fuel, rfl⟩
    rw [List.flatMap_cons] at h hend
    rw [List.length_append] at hend
    obtain ⟨start, hstart, hafter, htag, hdecode, hvalue⟩ :=
      Stands.bytesField hlaw h.left (by omega) hbound
    have hbody := wrapper.length_body
    have hencode : wrapper.encode = encodeBytesField 3 wrapper.body := rfl
    rw [hencode] at hend
    have hpos : (pos : ℤ) < (data.length : ℤ) - 2 := by omega
    have hadvance : dialect.advance start wrapper.body.length =
        (pos + (encodeBytesField 3 wrapper.body).length : ℕ) := by
      rw [hlaw.advance start wrapper.body.length (by omega), hafter]
    have hturns : 1 < data.length := by omega
    have hsubfields := extractSubfields_encode hlaw hbound hvalue hafter hturns
    have hrest := ih h.right (by rw [hencode]; omega) (Nat.le_of_succ_le_succ hfuel)
    rw [hencode] at hrest
    rw [extractWrappers, if_pos hpos, htag, hdecode]
    dsimp only
    rw [if_pos rfl, if_pos (hlaw.wrapperFits _ _ _ hvalue.le hbound), hadvance, hsubfields, hrest]
    rfl

/-! ### Audio pages -/

theorem wrapperHasAudio_audio {wrapper : AudioWrapper} {stop fuel : ℕ}
    (h : Stands data pos (encodeBytesField 2 wrapper.audio))
    (hstop : pos + (encodeBytesField 2 wrapper.audio).length = stop) (hfuel : 0 < fuel) :
    wrapperHasAudio dialect data fuel pos stop := by
  obtain ⟨fuel, rfl⟩ : ∃ n, fuel = n + 1 := ⟨fuel - 1, by omega⟩
  obtain ⟨start, hstart, hafter, htag, hdecode, hvalue⟩ := Stands.bytesField hlaw h (by omega) hbound
  have hpos : (pos : ℤ) < (stop : ℤ) - 1 := by omega
  rw [wrapperHasAudio, if_pos hpos, htag, hdecode]
  dsimp only
  rw [if_pos rfl]

theorem wrapperHasAudio_encode {wrapper : AudioWrapper} {stop fuel : ℕ}
    (h : Stands data pos wrapper.body) (hstop : pos + wrapper.body.length = stop)
    (hfuel : 1 < fuel) : wrapperHasAudio dialect data fuel pos stop := by
  have hbody := wrapper.length_body
  obtain ⟨next, haudio, hlength, rfl | ⟨htag, value, hdecode⟩⟩ :=
    AudioWrapper.stands_audio hlaw h
  · exact wrapperHasAudio_audio hlaw hbound haudio (by omega) (by omega)
  · obtain ⟨fuel, rfl⟩ : ∃ n, fuel = n + 1 := ⟨fuel - 1, by omega⟩
    have hmarker : ¬ 8 = 0x12 := by omega
    rw [wrapperHasAudio, if_pos (by omega), htag, hdecode]
    dsimp only
    rw [if_neg hmarker]
    exact wrapperHasAudio_audio hlaw hbound haudio (by omega) (by omega)

end frames

/-! ### Pages -/

section pages
variable {dialect : Dialect} {bound : ℕ} (hlaw : dialect.Lawful bound) {page : PendantPage}
  (hbound : page.encode.length < bound)
include hlaw

/-- The timestamp stands first, then the uptime, then the wrappers to the end. -/
theorem PendantPage.stands (page : PendantPage) :
    (byteAt page.encode 0 = some 8 ∧ decodeVarint dialect.shiftLeft page.encode 1 =
      ((page.timestampMs.val : ℤ), ((encodeIntField 1 page.timestampMs).length : ℤ))) ∧
    (byteAt page.encode (encodeIntField 1 page.timestampMs).length = some 16 ∧
      decodeVarint dialect.shiftLeft page.encode
          ((encodeIntField 1 page.timestampMs).length + 1) =
        ((page.uptime.val : ℤ), (page.header.length : ℤ))) ∧
    Stands page.encode page.header.length (page.wrappers.flatMap AudioWrapper.encode) := by
  have hself : Stands page.encode 0
      (page.header ++ page.wrappers.flatMap AudioWrapper.encode) := stands_self page.encode
  have hheader := hself.left
  have htime := hheader.left.intField hlaw (by omega)
  have huptime := hheader.right.intField hlaw (by omega)
  have hwrappers := hself.right
  rw [Nat.zero_add] at htime huptime hwrappers
  refine ⟨htime, ?_, hwrappers⟩
  rw [PendantPage.header, List.length_append]
  exact huptime

theorem afterHeader_encode (page : PendantPage) :
    afterHeader dialect page.encode = page.header.length := by
  obtain ⟨⟨htime, hafter⟩, ⟨huptime, hend⟩, -⟩ := PendantPage.stands hlaw page
  have hfirst : skipMarked dialect page.encode 0x08 0 =
      (encodeIntField 1 page.timestampMs).length := by
    rw [skipMarked, if_pos htime, Int.zero_add, hafter]
  rw [afterHeader, hfirst, skipMarked, if_pos huptime, hend]

theorem parseFlashPageTimestampMs_encode (page : PendantPage) :
    parseFlashPageTimestampMs dialect page.encode = page.timestampMs.val := by
  obtain ⟨⟨htime, hafter⟩, -⟩ := PendantPage.stands hlaw page
  rw [parseFlashPageTimestampMs, if_pos htime, hafter]

include hbound

theorem extractOpusFramesFromFlashPage_encode :
    extractOpusFramesFromFlashPage dialect page.encode = page.opusFrames := by
  obtain ⟨-, -, hwrappers⟩ := PendantPage.stands hlaw page
  have hlength : page.header.length + (page.wrappers.flatMap AudioWrapper.encode).length =
      page.encode.length := List.length_append.symm
  have hturns := length_le_wrappers page.wrappers
  have hextract := extractWrappers_encode hlaw hbound hwrappers hlength
    (show page.wrappers.length ≤ page.encode.length by omega)
  rw [extractOpusFramesFromFlashPage, afterHeader_encode hlaw, hextract]
  rfl

theorem hasAudioSubfields_encode :
    hasAudioSubfields dialect page.encode = !page.wrappers.isEmpty := by
  obtain ⟨-, -, hwrappers⟩ := PendantPage.stands hlaw page
  have hlength : page.header.length + (page.wrappers.flatMap AudioWrapper.encode).length =
      page.encode.length := List.length_append.symm
  rw [hasAudioSubfields, afterHeader_encode hlaw]
  obtain ⟨fuel, hfuel⟩ : ∃ n, page.encode.length = n + 1 := by
    have hpos := List.length_pos_of_ne_nil (encodeVarint_ne_nil (1 * 8 + 0))
    refine ⟨page.encode.length - 1, ?_⟩
    rw [PendantPage.encode, PendantPage.header, encodeIntField, encodeField]
    simp only [List.length_append]
    omega
  rw [hfuel]
  cases hlist : page.wrappers with
  | nil =>
    rw [hlist, List.flatMap_nil, List.length_nil] at hlength
    rw [pageHasAudio, if_neg (by omega)]
    rfl
  | cons wrapper rest =>
    rw [hlist, List.flatMap_cons] at hwrappers hlength
    rw [List.length_append] at hlength
    have hbody := wrapper.length_body
    obtain ⟨start, hstart, hafter, htag, hdecode, hvalue⟩ :=
      Stands.bytesField hlaw hwrappers.left (by omega) hbound
    have hencode : wrapper.encode = encodeBytesField 3 wrapper.body := rfl
    rw [hencode] at hlength
    have hadvance : dialect.advance start wrapper.body.length =
        (page.header.length + (encodeBytesField 3 wrapper.body).length : ℕ) := by
      rw [hlaw.advance start wrapper.body.length (by omega), hafter]
    have haudio := wrapperHasAudio_encode hlaw hbound hvalue hafter
      (show 1 < page.encode.length by omega)
    rw [pageHasAudio, if_pos (by omega), htag, hdecode]
    dsimp only
    rw [if_pos rfl, if_pos (hlaw.wrapperFits _ _ _ hvalue.le hbound), hadvance, haudio]
    rfl

end pages

/-! ### Storage buffers -/

section buffers

theorem PendantPage.encode_ne_nil (page : PendantPage) : page.encode ≠ [] := by
  rw [PendantPage.encode, PendantPage.header, encodeIntField, encodeField, List.append_assoc,
    List.append_assoc]
  exact List.append_ne_nil_of_left_ne_nil (encodeVarint_ne_nil _) _

theorem StoredPage.length_page_lt (stored : StoredPage) :
    stored.page.encode.length < stored.encode.length := by
  have hfield := length_encodeBytesField (6 : Fin 16).val stored.page.encode
  simp only [StoredPage.encode, encodeFields, List.flatMap_append, List.flatMap_cons,
    List.length_append, WireField.encode]
  omega

variable {dialect : Dialect} {bound : ℕ} (hlaw : dialect.Lawful bound) {stored : StoredPage}
  (hbound : stored.encode.length < bound)
include hlaw hbound

theorem readStorageBuffer_encode :
    readStorageBuffer dialect stored.encode =
      some
        { session := stored.session.map fun session => (session.val : ℤ)
          index := some (stored.index.val : ℤ)
          flashPageData := some stored.page.encode
          whole := true } := by
  have hfields := fieldsOf_encode hlaw hbound ⟨6, dialect.bufferOverrun, false⟩
  rw [readStorageBuffer, StoredPage.encode, hfields]
  cases stored.session <;> cases stored.seq <;> rfl

/-- A storage buffer is read back, and its page surfaced if it has a frame or no wrapper. -/
theorem parseStorageBuffer_encode (hindex : stored.index.val < bound) :
    parseStorageBuffer dialect stored.encode =
      if stored.page.surfaces then some (stored.flashPage dialect) else none := by
  have hpage : stored.page.encode.length < bound := (StoredPage.length_page_lt stored).trans hbound
  have hframes := extractOpusFramesFromFlashPage_encode hlaw hpage
  have haudio := hasAudioSubfields_encode hlaw hpage
  have htime := parseFlashPageTimestampMs_encode hlaw stored.page
  rw [parseStorageBuffer, readStorageBuffer_encode hlaw hbound]
  obtain ⟨byte, rest, hpageData⟩ := List.exists_cons_of_ne_nil stored.page.encode_ne_nil
  rw [hpageData] at hframes haudio htime ⊢
  dsimp only
  rw [hframes, haudio, htime]
  unfold PendantPage.surfaces
  by_cases hnone : stored.page.opusFrames = []
  · cases hwrappers : stored.page.wrappers.isEmpty with
    | true => simp [hnone, StoredPage.flashPage, hlaw.toInt _ hindex, Function.comp_def]
    | false => simp [hnone]
  · simp [hnone, StoredPage.flashPage, hlaw.toInt _ hindex, Function.comp_def]

end buffers

end Omi.Pendant
