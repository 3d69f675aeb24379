import Omi.Pendant.Varint

/-! The packets, messages, storage buffers and flash pages of the pendant, as the parsers of
`LimitlessProtocol.kt`, `LimitlessProtocol.swift` and `limitless_connection.dart` read them.
The three follow each other; where they differ the parser asks its dialect. Each loop has fuel
for one turn a byte. -/
namespace Omi.Pendant

/-- What a walk over fields does with a length that reaches past the end. -/
inductive Overrun where
  | stop
  | fault
  | skip
  deriving DecidableEq, Repr

/-- What is done with a length-delimited field of the audio data. -/
inductive AudioField where
  | stop
  | read
  | skip
  deriving DecidableEq, Repr

/-- Where the three implementations differ: their integers, their checks on a length, and what
happens when a check fails. -/
structure Dialect where
  toInt : ℤ → ℤ
  shiftLeft : ℕ → ℕ → ℕ
  /-- The position after a length. -/
  advance : ℤ → ℤ → ℤ
  fits : ℤ → ℤ → ℤ → Bool
  wrapperFits : ℤ → ℤ → ℤ → Bool
  packetOverrun : ℕ → Overrun
  bufferOverrun : ℕ → Overrun
  /-- `extractOpusRecursive`, from the length, the end of the audio and the size. -/
  audioField : ℤ → ℤ → ℤ → ℤ → AudioField
  /-- The next position after another field of a wrapper, unless the wrapper is left. -/
  otherField : ℤ → ℤ → ℤ → ℤ → Option ℤ
  /-- The same in `hasAudioSubfields`. -/
  skipSubfield : ℤ → ℤ → ℤ → ℤ
  /-- The next position after another field of a page, unless the page has no audio. -/
  skipField : ℤ → ℤ → ℤ → Option ℤ

namespace Dialect

@[irreducible] def wrap64 (value : ℤ) : ℤ := value.bmod 18446744073709551616

@[irreducible] def wrap32 (value : ℤ) : ℤ := value.bmod 4294967296

/-- `length < 0 || pos + length > stop` of Kotlin, with the sum in 64 bits. -/
def kotlinFits (next length stop : ℤ) : Bool := 0 ≤ length && wrap64 (next + length) ≤ stop

/-- Positions and indices are 32-bit integers. -/
def kotlin : Dialect where
  toInt := wrap32
  shiftLeft := shiftLeftMasked
  advance next length := wrap32 (next + wrap32 length)
  fits := kotlinFits
  wrapperFits := kotlinFits
  packetOverrun fieldNum := if fieldNum = 4 then .fault else .stop
  bufferOverrun _ := .stop
  audioField next length stop _ :=
    if !kotlinFits next length stop then .stop else if 0 < wrap32 length then .read else .skip
  otherField next length wrapperEnd _ :=
    if kotlinFits next length wrapperEnd then some (wrap32 (next + length)) else none
  skipSubfield next length wrapperEnd :=
    if kotlinFits next length wrapperEnd then wrap32 (next + length) else wrapperEnd
  skipField next length size :=
    if kotlinFits next length size then some (wrap32 (next + length)) else none

/-- `length >= 0, length <= stop - pos` of Swift. -/
def swiftFits (next length stop : ℤ) : Bool := 0 ≤ length && length ≤ stop - next

/-- Integers have 64 bits; a sum that overflows would end the program. -/
def swift : Dialect where
  toInt := id
  shiftLeft := shiftLeftMasked
  advance next length := next + length
  fits := swiftFits
  wrapperFits := swiftFits
  packetOverrun fieldNum := if fieldNum = 4 then .fault else .stop
  bufferOverrun _ := .stop
  audioField next length stop size :=
    if length < 0 || size < length then .stop
    else if 0 < length && next + length ≤ stop then .read else .skip
  otherField next length _ size :=
    if 0 ≤ length && length ≤ size then some (next + length) else none
  skipSubfield next length wrapperEnd :=
    if length < 0 || wrapperEnd < next + length then wrapperEnd else next + length
  skipField next length size :=
    if length < 0 || size < next + length then none else some (next + length)

/-- Integers have 64 bits; a slice that does not fit throws, and most lengths are not checked. -/
def dart : Dialect where
  toInt := id
  shiftLeft := shiftLeftLong
  advance next length := wrap64 (next + length)
  fits := swiftFits
  wrapperFits next length size := wrap64 (next + length) ≤ size
  packetOverrun fieldNum := if fieldNum = 4 then .fault else .skip
  bufferOverrun fieldNum := if fieldNum = 6 then .fault else .skip
  audioField next length stop _ :=
    if 0 < length && wrap64 (next + length) ≤ stop then .read else .skip
  otherField next length _ _ := some (wrap64 (next + length))
  skipSubfield next length _ := wrap64 (next + length)
  skipField next length _ := some (wrap64 (next + length))

end Dialect

variable (dialect : Dialect)

/-! ### Fields -/

/-- A field of a message: a varint, or the bytes of the one field that is read. -/
inductive Field where
  | varint (fieldNum : ℕ) (value : ℤ)
  | bytes (data : Bytes)
  deriving DecidableEq, Repr

/-- How a walk over fields ends. -/
inductive Ended where
  | finished
  | stopped
  | faulted
  deriving DecidableEq, Repr

/-- One of the three walks: the length-delimited field it reads, what it does with a length past
the end, and whether another wire type ends it. -/
structure Walk where
  wanted : ℕ
  overrun : ℕ → Overrun
  stopsAtUnknown : Bool

def Field.prepend (field : Field) (rest : List Field × Ended) : List Field × Ended :=
  (field :: rest.1, rest.2)

/-- The loop of `parseBlePacket`, `parsePendantMessage` and `parseStorageBuffer`. -/
def walkFields (walk : Walk) (data : Bytes) : ℕ → ℤ → List Field × Ended
  | 0, _ => ([], .stopped)
  | fuel + 1, pos =>
    if pos < data.length then
      match byteAt data pos with
      | none => ([], .faulted)
      | some tag =>
        let (value, next) := decodeVarint dialect.shiftLeft data (pos + 1)
        if tag % 8 = 0 then
          (Field.varint (tag / 8) value).prepend (walkFields walk data fuel next)
        else if tag % 8 = 2 then
          let stop := dialect.advance next value
          if dialect.fits next value data.length then
            if tag / 8 = walk.wanted then
              match slice data next stop with
              | none => ([], .faulted)
              | some bytes => (Field.bytes bytes).prepend (walkFields walk data fuel stop)
            else walkFields walk data fuel stop
          else
            match walk.overrun (tag / 8) with
            | .stop => ([], .stopped)
            | .fault => ([], .faulted)
            | .skip => walkFields walk data fuel stop
        else if walk.stopsAtUnknown then ([], .stopped)
        else walkFields walk data fuel (pos + 2)
    else ([], .finished)

/-- A whole message. -/
def fieldsOf (walk : Walk) (data : Bytes) : List Field × Ended :=
  walkFields dialect walk data (data.length + 1) 0

/-- The last varint of a number. -/
def lastVarint (fieldNum : ℕ) (fields : List Field) : Option ℤ :=
  (fields.filterMap fun field =>
    match field with
    | .varint num value => if num = fieldNum then some value else none
    | .bytes _ => none).getLast?

/-- All the bytes that were read. -/
def bytesOf (fields : List Field) : List Bytes :=
  fields.filterMap fun field =>
    match field with
    | .varint _ _ => none
    | .bytes data => some data

/-! ### Packets -/

structure BlePacket where
  index : ℤ
  seq : ℤ
  numFrags : ℤ
  payload : Bytes
  deriving DecidableEq, Repr

/-- The packet, unless its index, fragment count or payload is missing. -/
def parseBlePacket (data : Bytes) : Option BlePacket :=
  match fieldsOf dialect ⟨4, dialect.packetOverrun, true⟩ data with
  | (_, .faulted) => none
  | (fields, _) =>
    match lastVarint 1 fields, lastVarint 3 fields, (bytesOf fields).getLast? with
    | some index, some numFrags, some payload =>
      some ⟨dialect.toInt index, dialect.toInt ((lastVarint 2 fields).getD 0),
        dialect.toInt numFrags, payload⟩
    | _, _, _ => none

/-! ### Opus frames -/

def isValidOpusToc (byte : UInt8) : Bool :=
  byte = 0xb8 || byte = 0x78 || byte = 0xf8 || byte = 0xb0 || byte = 0x70 || byte = 0xf0

/-- A field of the audio data that is a frame. -/
def isOpusFrame (field : Bytes) : Bool :=
  10 ≤ field.length && field.length ≤ 200 && field.head?.any isValidOpusToc

/-- Frames, and whether nothing has thrown. -/
abbrev Extracted := List Bytes × Bool

/-- Goes on unless something has thrown. -/
def Extracted.followedBy (first second : Extracted) : Extracted :=
  if first.2 then (first.1 ++ second.1, second.2) else first

def extractOpusRecursive (data : Bytes) : ℕ → ℤ → ℤ → Extracted
  | 0, _, _ => ([], true)
  | fuel + 1, pos, stop =>
    if pos < stop - 1 then
      match byteAt data pos with
      | none => ([], false)
      | some tag =>
        let (length, next) := decodeVarint dialect.shiftLeft data (pos + 1)
        if tag % 8 = 2 then
          let after := dialect.advance next length
          match dialect.audioField next length stop data.length with
          | .stop => ([], true)
          | .skip => extractOpusRecursive data fuel after stop
          | .read =>
            match slice data next after with
            | none => ([], false)
            | some field =>
              Extracted.followedBy
                (if isOpusFrame field then ([field], true)
                else if 10 < field.length then extractOpusRecursive data fuel next after
                else ([], true))
                (extractOpusRecursive data fuel after stop)
        else if tag % 8 = 0 then extractOpusRecursive data fuel next stop
        else ([], true)
    else ([], true)

/-- The fields of one 0x1a wrapper. -/
def extractSubfields (data : Bytes) : ℕ → ℤ → ℤ → Extracted
  | 0, _, _ => ([], true)
  | fuel + 1, pos, wrapperEnd =>
    if pos < wrapperEnd - 1 then
      match byteAt data pos with
      | none => ([], false)
      | some marker =>
        let (value, next) := decodeVarint dialect.shiftLeft data (pos + 1)
        if marker = 0x08 then extractSubfields data fuel next wrapperEnd
        else if marker = 0x12 then
          if dialect.wrapperFits next value data.length then
            let audioEnd := dialect.advance next value
            (extractOpusRecursive dialect data data.length next audioEnd).followedBy
              (extractSubfields data fuel audioEnd wrapperEnd)
          else ([], true)
        else if marker % 8 = 0 then extractSubfields data fuel next wrapperEnd
        else if marker % 8 = 2 then
          match dialect.otherField next value wrapperEnd data.length with
          | none => ([], true)
          | some after => extractSubfields data fuel after wrapperEnd
        else extractSubfields data fuel (pos + 1) wrapperEnd
    else ([], true)

/-- The wrappers of a page; any other byte is stepped over. -/
def extractWrappers (data : Bytes) : ℕ → ℤ → Extracted
  | 0, _ => ([], true)
  | fuel + 1, pos =>
    if pos < (data.length : ℤ) - 2 then
      match byteAt data pos with
      | none => ([], false)
      | some marker =>
        if marker = 0x1a then
          let (wrapperLength, next) := decodeVarint dialect.shiftLeft data (pos + 1)
          if dialect.wrapperFits next wrapperLength data.length then
            let wrapperEnd := dialect.advance next wrapperLength
            (extractSubfields dialect data data.length next wrapperEnd).followedBy
              (extractWrappers data fuel wrapperEnd)
          else ([], true)
        else extractWrappers data fuel (pos + 1)
    else ([], true)

/-- The position after a varint field with the marker, if it stands here. -/
def skipMarked (data : Bytes) (marker : ℕ) (pos : ℤ) : ℤ :=
  if byteAt data pos = some marker then (decodeVarint dialect.shiftLeft data (pos + 1)).2 else pos

/-- The position after the timestamp (0x08) and the uptime (0x10) of a page. -/
def afterHeader (data : Bytes) : ℤ :=
  skipMarked dialect data 0x10 (skipMarked dialect data 0x08 0)

def extractOpusFramesFromFlashPage (flashPageData : Bytes) : List Bytes :=
  (extractWrappers dialect flashPageData flashPageData.length
    (afterHeader dialect flashPageData)).1

/-! ### Audio and diagnostic pages -/

/-- Whether a wrapper has a 0x12 subfield; what cannot be read counts as one. -/
def wrapperHasAudio (data : Bytes) : ℕ → ℤ → ℤ → Bool
  | 0, _, _ => false
  | fuel + 1, pos, wrapperEnd =>
    if pos < wrapperEnd - 1 then
      match byteAt data pos with
      | none => true
      | some marker =>
        let (value, next) := decodeVarint dialect.shiftLeft data (pos + 1)
        if marker = 0x12 then true
        else
          match marker % 8 with
          | 0 => wrapperHasAudio data fuel next wrapperEnd
          | 2 => wrapperHasAudio data fuel (dialect.skipSubfield next value wrapperEnd) wrapperEnd
          | 1 => wrapperHasAudio data fuel (pos + 9) wrapperEnd
          | 5 => wrapperHasAudio data fuel (pos + 5) wrapperEnd
          | _ => true
    else false

def pageHasAudio (data : Bytes) : ℕ → ℤ → Bool
  | 0, _ => false
  | fuel + 1, pos =>
    if pos < (data.length : ℤ) - 2 then
      match byteAt data pos with
      | none => true
      | some marker =>
        let (value, next) := decodeVarint dialect.shiftLeft data (pos + 1)
        if marker = 0x1a then
          if dialect.wrapperFits next value data.length then
            let wrapperEnd := dialect.advance next value
            wrapperHasAudio dialect data data.length next wrapperEnd ||
              pageHasAudio data fuel wrapperEnd
          else false
        else
          match marker % 8 with
          | 0 => pageHasAudio data fuel next
          | 2 =>
            match dialect.skipField next value data.length with
            | none => false
            | some after => pageHasAudio data fuel after
          | 1 => pageHasAudio data fuel (pos + 9)
          | 5 => pageHasAudio data fuel (pos + 5)
          | _ => true
    else false

def hasAudioSubfields (flashPageData : Bytes) : Bool :=
  pageHasAudio dialect flashPageData flashPageData.length (afterHeader dialect flashPageData)

/-! ### Storage buffers and messages -/

def parseFlashPageTimestampMs (flashPageData : Bytes) : ℤ :=
  if byteAt flashPageData 0 = some 0x08 then
    (decodeVarint dialect.shiftLeft flashPageData 1).1
  else 0

structure FlashPage where
  index : Option ℤ
  session : Option ℤ
  timestampMs : ℤ
  opusFrames : List Bytes
  deriving DecidableEq, Repr

/-- The fields of a storage buffer, as they stand there, and whether all could be walked. -/
structure StorageFields where
  session : Option ℤ
  index : Option ℤ
  flashPageData : Option Bytes
  whole : Bool
  deriving DecidableEq, Repr

def readStorageBuffer (storageData : Bytes) : Option StorageFields :=
  match fieldsOf dialect ⟨6, dialect.bufferOverrun, false⟩ storageData with
  | (_, .faulted) => none
  | (fields, ended) =>
    some ⟨lastVarint 2 fields, lastVarint 5 fields, (bytesOf fields).getLast?, ended = .finished⟩

/-- A page that has audio but yields no frame is not surfaced. -/
def parseStorageBuffer (storageData : Bytes) : Option FlashPage :=
  match readStorageBuffer dialect storageData with
  | none => none
  | some fields =>
    match fields.flashPageData with
    | none | some [] => none
    | some pageData =>
      let frames := extractOpusFramesFromFlashPage dialect pageData
      if frames = [] && hasAudioSubfields dialect pageData then none
      else
        some
          { index := fields.index.map dialect.toInt
            session := fields.session.map dialect.toInt
            timestampMs := parseFlashPageTimestampMs dialect pageData
            opusFrames := frames }

variable {dialect} in
theorem index_of_parse {storageData : Bytes} {page : FlashPage}
    (h : parseStorageBuffer dialect storageData = some page) :
    ∃ fields, readStorageBuffer dialect storageData = some fields ∧
      page.index = fields.index.map dialect.toInt := by
  unfold parseStorageBuffer at h
  cases hread : readStorageBuffer dialect storageData with
  | none =>
    rw [hread] at h
    cases h
  | some fields =>
    rw [hread] at h
    dsimp only at h
    refine ⟨fields, rfl, ?_⟩
    split at h
    · cases h
    · cases h
    · split_ifs at h
      obtain rfl := Option.some.inj h
      rfl

/-- The storage buffers of a message. -/
def storageBuffers (payload : Bytes) : List Bytes :=
  bytesOf (fieldsOf dialect ⟨2, fun _ => .stop, false⟩ payload).1

def parsePendantMessage (payload : Bytes) : List FlashPage :=
  (storageBuffers dialect payload).filterMap (parseStorageBuffer dialect)

end Omi.Pendant
