import Omi.Foundation.Loops
import Omi.Pendant.Protocol

/-! The loops of the notification path of `limitless_connection.dart`, turn by turn: what each does
with its position. Integers have 64 bits; a subscript or a slice that does not fit throws. -/
namespace Omi.Pendant.Dart
open Omi.Foundation Dialect

/-! ### Loops and frames -/

/-- The loops, each with what it has besides its bytes and its position: the end it runs to, and
whether a frame has been found or which page has been read. -/
inductive Loop where
  | parseBlePacket
  | handlePendantMessage
  | handleStorageBuffer (flashPageData : Option Bytes)
  | parseFlashPageInfo
  | chunk (chunkEnd : ℤ)
  | storageStatus (statusEnd : ℤ)
  | audioData (audioEnd : ℤ)
  | extractOpusFrames (found : Bool)
  | wrapper (wrapperEnd : ℤ) (found : Bool)
  | extractOpusRecursive (stop : ℤ) (found : Bool)
  | hasAudioSubfields
  | subfields (wrapperEnd : ℤ)
  deriving DecidableEq, Repr

/-- How a loop or a function ends: by an exception or not, where, and with a frame found or not;
the classifier finds audio. -/
structure Outcome where
  threw : Bool
  pos : ℤ := 0
  found : Bool := false
  deriving DecidableEq, Repr

/-- A turn of a loop at a position, one of the three calls a storage buffer ends with, or an end. -/
inductive Frame where
  | loop (loop : Loop) (data : Bytes) (pos : ℤ)
  | parseInfo (flashPageData : Bytes)
  | extractFrames (flashPageData : Bytes)
  | classify (flashPageData : Bytes)
  | ended (outcome : Outcome)

abbrev DartTurn := Turn Frame Outcome

def decode (data : Bytes) (pos : ℤ) : ℤ × ℤ := decodeVarint shiftLeftLong data pos

/-- The position after the length that is decoded behind a tag. -/
def jumpFrom (data : Bytes) (pos : ℤ) : ℤ :=
  wrap64 ((decode data (pos + 1)).2 + (decode data (pos + 1)).1)

/-! ### Where the functions begin -/

def skipField (data : Bytes) (marker : ℕ) (pos : ℤ) : ℤ :=
  if byteAt data pos = some marker then (decode data (pos + 1)).2 else pos

def parseBlePacket (data : Bytes) : Frame := .loop .parseBlePacket data 0

def handlePendantMessage (payload : Bytes) : Frame := .loop .handlePendantMessage payload 0

def handleStorageBuffer (storageData : Bytes) : Frame :=
  .loop (.handleStorageBuffer none) storageData 0

def parseFlashPageInfo (flashPageData : Bytes) : Frame :=
  .loop .parseFlashPageInfo flashPageData (skipField flashPageData 0x08 0)

def extractOpusFramesFromFlashPage (flashPageData : Bytes) : Frame :=
  .loop (.extractOpusFrames false) flashPageData
    (skipField flashPageData 0x10 (skipField flashPageData 0x08 0))

def hasAudioSubfields (flashPageData : Bytes) : Frame :=
  .loop .hasAudioSubfields flashPageData
    (skipField flashPageData 0x10 (skipField flashPageData 0x08 0))

/-! ### Turns -/

/-- Whether a frame has been found so far. -/
def Loop.found : Loop → Bool
  | .extractOpusFrames found | .wrapper _ found | .extractOpusRecursive _ found => found
  | _ => false

/-- The loop goes on. -/
def Loop.goOn (loop : Loop) (data : Bytes) (pos : ℤ) : DartTurn := .next (.loop loop data pos)

def threw (found : Bool := false) : DartTurn := .left { threw := true, found := found }

def leave (pos : ℤ) (found : Bool := false) : DartTurn :=
  .left { threw := false, pos := pos, found := found }

/-- What a loop does when an inner one has ended: an exception ends it as well. -/
def resumeAt (loop : Bool → Loop) (data : Bytes) (pos : ℤ → ℤ) (inner : Outcome) : Frame :=
  if inner.threw then .ended inner else .loop (loop inner.found) data (pos inner.pos)

section turns
variable (data : Bytes) (pos : ℤ) (tag : ℕ)

def packetTurn : DartTurn :=
  if tag % 8 = 0 then Loop.parseBlePacket.goOn data (decode data (pos + 1)).2
  else if tag % 8 = 2 then
    if tag / 8 = 4 ∧ slice data (decode data (pos + 1)).2 (jumpFrom data pos) = none then threw
    else Loop.parseBlePacket.goOn data (jumpFrom data pos)
  else leave pos

def messageTurn : DartTurn :=
  if tag % 8 = 2 then
    match slice data (decode data (pos + 1)).2 (jumpFrom data pos) with
    | none => threw
    | some fieldData =>
      if tag / 8 = 2 then
        .call (handleStorageBuffer fieldData) fun _ =>
          .loop .handlePendantMessage data (jumpFrom data pos)
      else Loop.handlePendantMessage.goOn data (jumpFrom data pos)
  else if tag % 8 = 0 then Loop.handlePendantMessage.goOn data (decode data (pos + 1)).2
  else Loop.handlePendantMessage.goOn data (pos + 2)

def storageTurn (flashPageData : Option Bytes) : DartTurn :=
  if tag % 8 = 0 then (Loop.handleStorageBuffer flashPageData).goOn data (decode data (pos + 1)).2
  else if tag % 8 = 2 then
    if tag / 8 = 6 then
      match slice data (decode data (pos + 1)).2 (jumpFrom data pos) with
      | none => threw
      | some fieldData => (Loop.handleStorageBuffer (some fieldData)).goOn data (jumpFrom data pos)
    else (Loop.handleStorageBuffer flashPageData).goOn data (jumpFrom data pos)
  else (Loop.handleStorageBuffer flashPageData).goOn data (pos + 2)

def infoTurn : DartTurn :=
  if tag = 0x1a then
    .call (.loop (.chunk (jumpFrom data pos)) data (decode data (pos + 1)).2)
      (resumeAt (fun _ => .parseFlashPageInfo) data fun _ => jumpFrom data pos)
  else Loop.parseFlashPageInfo.goOn data (pos + 1)

def chunkTurn (chunkEnd : ℤ) : DartTurn :=
  if tag = 0x62 then
    .call (.loop (.storageStatus (jumpFrom data pos)) data (decode data (pos + 1)).2)
      (resumeAt (fun _ => .chunk chunkEnd) data id)
  else if tag = 0x12 then
    .call (.loop (.audioData (jumpFrom data pos)) data (decode data (pos + 1)).2)
      (resumeAt (fun _ => .chunk chunkEnd) data fun _ => jumpFrom data pos)
  else (Loop.chunk chunkEnd).goOn data (pos + 1)

/-- The two loops over flags: a marker of the two and the byte of its flag, where it lies before
the end, are read together. -/
def flagTurn (loop : Loop) (first second : ℕ) (stop : ℤ) : DartTurn :=
  if (tag = first ∨ tag = second) ∧ pos + 1 < stop then
    if byteAt data (pos + 1) = none then threw else loop.goOn data (pos + 2)
  else loop.goOn data (pos + 1)

def extractTurn (found : Bool) : DartTurn :=
  if tag = 0x1a then
    if jumpFrom data pos ≤ data.length then
      .call (.loop (.wrapper (jumpFrom data pos) found) data (decode data (pos + 1)).2)
        (resumeAt .extractOpusFrames data fun _ => jumpFrom data pos)
    else leave pos found
  else (Loop.extractOpusFrames found).goOn data (pos + 1)

def wrapperTurn (wrapperEnd : ℤ) (found : Bool) : DartTurn :=
  if tag = 0x08 then (Loop.wrapper wrapperEnd found).goOn data (decode data (pos + 1)).2
  else if tag = 0x12 then
    if jumpFrom data pos ≤ data.length then
      .call
        (.loop (.extractOpusRecursive (jumpFrom data pos) found) data (decode data (pos + 1)).2)
        (resumeAt (.wrapper wrapperEnd) data fun _ => jumpFrom data pos)
    else leave pos found
  else if tag % 8 = 0 then (Loop.wrapper wrapperEnd found).goOn data (decode data (pos + 1)).2
  else if tag % 8 = 2 then (Loop.wrapper wrapperEnd found).goOn data (jumpFrom data pos)
  else (Loop.wrapper wrapperEnd found).goOn data (pos + 1)

def opusTurn (stop : ℤ) (found : Bool) : DartTurn :=
  if tag % 8 = 2 then
    if 0 < (decode data (pos + 1)).1 ∧ jumpFrom data pos ≤ stop then
      match slice data (decode data (pos + 1)).2 (jumpFrom data pos) with
      | none => threw found
      | some fieldData =>
        if isOpusFrame fieldData then
          (Loop.extractOpusRecursive stop true).goOn data (jumpFrom data pos)
        else if 10 < fieldData.length then
          .call
            (.loop (.extractOpusRecursive (jumpFrom data pos) found) data
              (decode data (pos + 1)).2)
            (resumeAt (.extractOpusRecursive stop) data fun _ => jumpFrom data pos)
        else (Loop.extractOpusRecursive stop found).goOn data (jumpFrom data pos)
    else (Loop.extractOpusRecursive stop found).goOn data (jumpFrom data pos)
  else if tag % 8 = 0 then
    (Loop.extractOpusRecursive stop found).goOn data (decode data (pos + 1)).2
  else leave pos found

/-- A field that the classifier skips; of an unknown wire type it says audio. -/
def skipTurn (loop : Loop) : DartTurn :=
  match tag % 8 with
  | 0 => loop.goOn data (decode data (pos + 1)).2
  | 2 => loop.goOn data (jumpFrom data pos)
  | 1 => loop.goOn data (pos + 9)
  | 5 => loop.goOn data (pos + 5)
  | _ => leave pos true

def classifyTurn : DartTurn :=
  if tag = 0x1a then
    if jumpFrom data pos ≤ data.length then
      .call (.loop (.subfields (jumpFrom data pos)) data (decode data (pos + 1)).2) fun inner =>
        if inner.found then .ended inner
        else resumeAt (fun _ => .hasAudioSubfields) data (fun _ => jumpFrom data pos) inner
    else leave pos
  else skipTurn data pos tag .hasAudioSubfields

def subfieldsTurn (wrapperEnd : ℤ) : DartTurn :=
  if tag = 0x12 then leave pos true else skipTurn data pos tag (.subfields wrapperEnd)

end turns

/-! ### The whole path -/

/-- The condition of each loop. -/
def Loop.continues (data : Bytes) (pos : ℤ) : Loop → Bool
  | .parseBlePacket | .handlePendantMessage | .handleStorageBuffer _ => pos < data.length
  | .parseFlashPageInfo | .extractOpusFrames _ | .hasAudioSubfields => pos < (data.length : ℤ) - 2
  | .storageStatus stop => pos < stop
  | .chunk stop | .audioData stop | .wrapper stop _ | .extractOpusRecursive stop _
  | .subfields stop => pos < wrap64 (stop - 1)

/-- The body of each loop, at a tag. -/
def Loop.body (data : Bytes) (pos : ℤ) (tag : ℕ) : Loop → DartTurn
  | .parseBlePacket => packetTurn data pos tag
  | .handlePendantMessage => messageTurn data pos tag
  | .handleStorageBuffer flashPageData => storageTurn data pos tag flashPageData
  | .parseFlashPageInfo => infoTurn data pos tag
  | .chunk chunkEnd => chunkTurn data pos tag chunkEnd
  | .storageStatus statusEnd => flagTurn data pos tag (.storageStatus statusEnd) 0x08 0x10 statusEnd
  | .audioData audioEnd => flagTurn data pos tag (.audioData audioEnd) 0x40 0x48 audioEnd
  | .extractOpusFrames found => extractTurn data pos tag found
  | .wrapper wrapperEnd found => wrapperTurn data pos tag wrapperEnd found
  | .extractOpusRecursive stop found => opusTurn data pos tag stop found
  | .hasAudioSubfields => classifyTurn data pos tag
  | .subfields wrapperEnd => subfieldsTurn data pos tag wrapperEnd

/-- What comes behind each loop. -/
def Loop.exit (pos : ℤ) : Loop → DartTurn
  | .handleStorageBuffer (some (byte :: rest)) => .next (.parseInfo (byte :: rest))
  | other => leave pos other.found

def Loop.turn (data : Bytes) (pos : ℤ) (loop : Loop) : DartTurn :=
  if loop.continues data pos then
    match byteAt data pos with
    | none => threw loop.found
    | some tag => loop.body data pos tag
  else loop.exit pos

/-- The functions a storage buffer ends with catch what they throw. -/
def Frame.turn : Frame → DartTurn
  | .loop kind data pos => kind.turn data pos
  | .parseInfo flashPageData =>
    .call (parseFlashPageInfo flashPageData) fun _ => .extractFrames flashPageData
  | .extractFrames flashPageData =>
    .call (extractOpusFramesFromFlashPage flashPageData) fun extracted =>
      if extracted.found then .ended { threw := false } else .classify flashPageData
  | .classify flashPageData =>
    .call (hasAudioSubfields flashPageData) fun _ => .ended { threw := false }
  | .ended outcome => .left outcome

end Omi.Pendant.Dart
