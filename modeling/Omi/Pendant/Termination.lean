import Mathlib.Data.Prod.Lex
import Omi.Pendant.DartLoops

/-! When the loops of the notification path finish: every length they add to a position leads
forward. -/
namespace Omi.Pendant.Dart
open Omi.Foundation Dialect

/-! ### What is claimed of a run -/

/-- Whether the loop adds the length behind the tag to its position, where it goes on. -/
def Loop.adds (tag : ℕ) : Loop → Bool
  | .parseFlashPageInfo | .extractOpusFrames _ => tag = 0x1a
  | .chunk _ => tag = 0x12
  | .storageStatus _ | .audioData _ => false
  | _ => tag % 8 = 2

/-- The function finishes, and in every loop it comes to the position grows from turn to turn. -/
structure Terminates (frame : Frame) : Prop where
  finishes : Finishes Frame.turn frame
  advances : ∀ loop data pos, Reaches Frame.turn frame (.loop loop data pos) →
    ∀ loop' data' pos', Follows Frame.turn (.loop loop data pos) (.loop loop' data' pos') →
      pos < pos'

/-- Every length that a loop adds to its position, where it goes on, leads past the tag. -/
def LengthsLeadOn (frame : Frame) : Prop :=
  ∀ loop data pos tag, Reaches Frame.turn frame (.loop loop data pos) →
    byteAt data pos = some tag → loop.adds tag →
      (∃ loop' data' pos', Follows Frame.turn (.loop loop data pos) (.loop loop' data' pos')) →
        pos < jumpFrom data pos

/-! ### What is left to do -/

/-- Inner loops have lower ranks than those that run them. -/
def Loop.rank : Loop → ℕ
  | .storageStatus _ | .audioData _ | .extractOpusRecursive _ _ => 1
  | .chunk _ | .wrapper _ _ | .subfields _ => 2
  | .parseFlashPageInfo | .extractOpusFrames _ | .hasAudioSubfields => 3
  | .handleStorageBuffer _ => 7
  | .parseBlePacket | .handlePendantMessage => 8

/-- The rank, and the bytes behind the position. -/
def Frame.measure : Frame → ℕ ×ₗ ℕ
  | .loop kind data pos => toLex (kind.rank, (data.length - pos).toNat)
  | .parseInfo _ => toLex (6, 0)
  | .extractFrames _ => toLex (5, 0)
  | .classify _ => toLex (4, 0)
  | .ended _ => toLex (0, 0)

/-- Where a loop gets to from a tag. -/
inductive GoesTo (loop : Loop) (data : Bytes) (pos : ℤ) (tag : ℕ) : Frame → Prop
  | ended (outcome : Outcome) : GoesTo loop data pos tag (.ended outcome)
  | on (loop' : Loop) (pos' : ℤ) (hrank : loop'.rank = loop.rank)
    (hadds : loop.adds tag = true → pos' = jumpFrom data pos)
    (hpasses : loop.adds tag = false → pos < pos') : GoesTo loop data pos tag (.loop loop' data pos')

/-- A turn at a tag that goes where a loop gets to, and runs what is lower. -/
inductive GoodTurn (loop : Loop) (data : Bytes) (pos : ℤ) (tag : ℕ) : DartTurn → Prop
  | left (outcome : Outcome) : GoodTurn loop data pos tag (.left outcome)
  | next (later : Frame) (hlater : GoesTo loop data pos tag later) :
    GoodTurn loop data pos tag (.next later)
  | call (inner : Frame) (resume : Outcome → Frame)
    (hinner : inner.measure < (Frame.loop loop data pos).measure)
    (hresume : ∀ outcome, Ends Frame.turn inner outcome →
      GoesTo loop data pos tag (resume outcome)) :
    GoodTurn loop data pos tag (.call inner resume)

section turns
variable {loop loop' : Loop} {data : Bytes} {pos pos' : ℤ} {tag : ℕ}

theorem pos_of_byteAt (h : byteAt data pos = some tag) : 0 ≤ pos ∧ pos < data.length := by
  unfold byteAt at h
  split_ifs at h with hpos
  obtain ⟨byte, hbyte, -⟩ := Option.map_eq_some_iff.mp h
  obtain ⟨hlt, -⟩ := List.getElem?_eq_some_iff.mp hbyte
  omega

theorem le_decodeVarintBytes (shiftLeft : ℕ → ℕ → ℕ) (result shift start : ℕ) (bytes : Bytes) :
    start ≤ (decodeVarintBytes shiftLeft result shift start bytes).2 := by
  induction bytes generalizing result shift start with
  | nil => exact le_rfl
  | cons byte rest ih =>
    rw [decodeVarintBytes]
    split_ifs
    · exact Nat.le_succ start
    · exact (Nat.le_succ start).trans (ih _ _ _)

/-- A varint behind a tag ends behind the tag. -/
theorem lt_decode (h : byteAt data pos = some tag) : pos < (decode data (pos + 1)).2 := by
  have hpos := (pos_of_byteAt h).1
  have hle := le_decodeVarintBytes shiftLeftLong 0 0 (pos + 1).toNat (data.drop (pos + 1).toNat)
  have hend : (decode data (pos + 1)).2 =
      (decodeVarintBytes shiftLeftLong 0 0 (pos + 1).toNat (data.drop (pos + 1).toNat)).2 := rfl
  omega

theorem stage_lt {stage stage' left left' : ℕ} (h : stage < stage') :
    toLex (stage, left) < toLex (stage', left') := by
  apply Prod.Lex.toLex_lt_toLex.mpr
  exact .inl h

theorem measure_lt_of_rank (h : loop'.rank < loop.rank) (data' : Bytes) :
    (Frame.loop loop' data' pos').measure < (Frame.loop loop data pos).measure := by
  exact stage_lt h

theorem measure_lt_of_pos (hrank : loop'.rank = loop.rank) (hinside : pos < data.length)
    (h : pos < pos') :
    (Frame.loop loop' data pos').measure < (Frame.loop loop data pos).measure := by
  apply Prod.Lex.toLex_lt_toLex.mpr
  exact .inr ⟨hrank, by dsimp only; omega⟩

/-- A loop that passes over bytes without adding a length. -/
theorem GoodTurn.pass (hrank : loop'.rank = loop.rank) (hadds : loop.adds tag = false)
    (h : pos < pos') : GoodTurn loop data pos tag (loop'.goOn data pos') := by
  apply GoodTurn.next
  exact .on loop' pos' hrank (fun hadds' => absurd (hadds.symm.trans hadds') Bool.false_ne_true)
    fun _ => h

/-- A loop that adds the length. -/
theorem GoodTurn.jump (hrank : loop'.rank = loop.rank) (hadds : loop.adds tag = true) :
    GoodTurn loop data pos tag (loop'.goOn data (jumpFrom data pos)) := by
  apply GoodTurn.next
  exact .on loop' _ hrank (fun _ => rfl) fun hadds' =>
    absurd (hadds'.symm.trans hadds) Bool.false_ne_true

theorem GoesTo.resumeJump (resumed : Bool → Loop)
    (hrank : ∀ found, (resumed found).rank = loop.rank) (hadds : loop.adds tag = true)
    (outcome : Outcome) :
    GoesTo loop data pos tag (resumeAt resumed data (fun _ => jumpFrom data pos) outcome) := by
  unfold resumeAt
  split_ifs
  · exact .ended outcome
  · exact .on _ _ (hrank _) (fun _ => rfl) fun hadds' =>
      absurd (hadds'.symm.trans hadds) Bool.false_ne_true

/-! ### The turns -/

section bodies
variable (h : byteAt data pos = some tag)
include h

theorem packetTurn_good :
    GoodTurn .parseBlePacket data pos tag (packetTurn data pos tag) := by
  unfold packetTurn
  split_ifs with hvarint hbytes hslice
  · exact .pass rfl (by simp [Loop.adds, hvarint]) (lt_decode h)
  · exact .left _
  · exact .jump rfl (by simp [Loop.adds, hbytes])
  · exact .left _

theorem messageTurn_good :
    GoodTurn .handlePendantMessage data pos tag (messageTurn data pos tag) := by
  unfold messageTurn
  by_cases hbytes : tag % 8 = 2
  · have hadds : Loop.handlePendantMessage.adds tag = true := by simp [Loop.adds, hbytes]
    rw [if_pos hbytes]
    split
    · exact .left _
    next fieldData hslice =>
      split_ifs
      · apply GoodTurn.call
        · exact measure_lt_of_rank (by simp [Loop.rank]) fieldData
        · intro outcome _
          exact .on _ _ rfl (fun _ => rfl) fun hadds' =>
            absurd (hadds'.symm.trans hadds) Bool.false_ne_true
      · exact .jump rfl hadds
  · have hadds : Loop.handlePendantMessage.adds tag = false := by simp [Loop.adds, hbytes]
    rw [if_neg hbytes]
    split_ifs
    · exact .pass rfl hadds (lt_decode h)
    · exact .pass rfl hadds (by omega)

theorem storageTurn_good (flashPageData : Option Bytes) :
    GoodTurn (.handleStorageBuffer flashPageData) data pos tag
      (storageTurn data pos tag flashPageData) := by
  unfold storageTurn
  split_ifs with hvarint hbytes hfield
  · exact .pass rfl (by simp [Loop.adds, hvarint]) (lt_decode h)
  · split
    · exact .left _
    · exact .jump rfl (by simp [Loop.adds, hbytes])
  · exact .jump rfl (by simp [Loop.adds, hbytes])
  · exact .pass rfl (by simp [Loop.adds, hbytes]) (by omega)

omit h in
theorem infoTurn_good : GoodTurn .parseFlashPageInfo data pos tag (infoTurn data pos tag) := by
  unfold infoTurn
  split_ifs with hmarker
  · apply GoodTurn.call
    · exact measure_lt_of_rank (by simp [Loop.rank]) data
    · intro outcome _
      exact .resumeJump (fun _ => .parseFlashPageInfo) (fun _ => rfl) (by simp [Loop.adds, hmarker]) outcome
  · exact .pass rfl (by simp [Loop.adds, hmarker]) (by omega)

omit h in
theorem flagTurn_good {first second : ℕ} {stop : ℤ} (hadds : loop.adds tag = false) :
    GoodTurn loop data pos tag (flagTurn data pos tag loop first second stop) := by
  unfold flagTurn
  split_ifs
  · exact .left _
  · exact .pass rfl hadds (by omega)
  · exact .pass rfl hadds (by omega)

omit h in
/-- The loop over a status ends behind where it began. -/
theorem le_of_status {stop : ℤ} {outcome : Outcome}
    (hends : Ends Frame.turn (.loop (.storageStatus stop) data pos) outcome)
    (hthrew : outcome.threw = false) : pos ≤ outcome.pos := by
  obtain ⟨fuel, hrun⟩ := hends
  induction fuel generalizing pos with
  | zero => cases hrun
  | succ fuel ih =>
    rw [runLoop, Frame.turn, Loop.turn] at hrun
    split_ifs at hrun with hmore
    · cases hbyte : byteAt data pos with
      | none =>
        rw [hbyte] at hrun
        cases hrun
        cases hthrew
      | some tag =>
        rw [hbyte] at hrun
        dsimp only [Loop.body] at hrun
        unfold flagTurn at hrun
        split_ifs at hrun
        · cases hrun
          cases hthrew
        · have hrest := ih hrun
          omega
        · have hrest := ih hrun
          omega
    · cases hrun
      exact le_rfl

theorem chunkTurn_good (chunkEnd : ℤ) :
    GoodTurn (.chunk chunkEnd) data pos tag (chunkTurn data pos tag chunkEnd) := by
  unfold chunkTurn
  split_ifs with hstatus haudio
  · apply GoodTurn.call
    · exact measure_lt_of_rank (by simp [Loop.rank]) data
    · intro outcome hends
      unfold resumeAt
      split_ifs with hthrew
      · exact .ended outcome
      · have hbehind := le_of_status hends (Bool.not_eq_true _ ▸ hthrew)
        have hadds : (Loop.chunk chunkEnd).adds tag = false := by simp [Loop.adds, hstatus]
        refine .on _ _ rfl (fun hadds' => ?_) fun _ => (lt_decode h).trans_le hbehind
        exact absurd (hadds.symm.trans hadds') Bool.false_ne_true
  · apply GoodTurn.call
    · exact measure_lt_of_rank (by simp [Loop.rank]) data
    · intro outcome _
      exact .resumeJump (fun _ => .chunk chunkEnd) (fun _ => rfl) (by simp [Loop.adds, haudio]) outcome
  · exact .pass rfl (by simp [Loop.adds, haudio]) (by omega)

omit h in
theorem extractTurn_good (found : Bool) :
    GoodTurn (.extractOpusFrames found) data pos tag (extractTurn data pos tag found) := by
  unfold extractTurn
  split_ifs with hmarker hfits
  · have hadds : (Loop.extractOpusFrames found).adds tag = true := by simp [Loop.adds, hmarker]
    apply GoodTurn.call
    · exact measure_lt_of_rank (by simp [Loop.rank]) data
    · intro outcome _
      exact .resumeJump .extractOpusFrames (fun _ => rfl) hadds outcome
  · exact .left _
  · exact .pass rfl (by simp [Loop.adds, hmarker]) (by omega)

theorem wrapperTurn_good (wrapperEnd : ℤ) (found : Bool) :
    GoodTurn (.wrapper wrapperEnd found) data pos tag
      (wrapperTurn data pos tag wrapperEnd found) := by
  unfold wrapperTurn
  split_ifs with hoffset haudio hfits hvarint hbytes
  · exact .pass rfl (by simp [Loop.adds, hoffset]) (lt_decode h)
  · have hadds : (Loop.wrapper wrapperEnd found).adds tag = true := by simp [Loop.adds, haudio]
    apply GoodTurn.call
    · exact measure_lt_of_rank (by simp [Loop.rank]) data
    · intro outcome _
      exact .resumeJump (.wrapper wrapperEnd) (fun _ => rfl) hadds outcome
  · exact .left _
  · exact .pass rfl (by simp [Loop.adds, hvarint]) (lt_decode h)
  · exact .jump rfl (by simp [Loop.adds, hbytes])
  · exact .pass rfl (by simp [Loop.adds, hbytes]) (by omega)

theorem opusTurn_good (stop : ℤ) (found : Bool) :
    GoodTurn (.extractOpusRecursive stop found) data pos tag
      (opusTurn data pos tag stop found) := by
  unfold opusTurn
  by_cases hbytes : tag % 8 = 2
  · have hadds : (Loop.extractOpusRecursive stop found).adds tag = true := by
      simp [Loop.adds, hbytes]
    rw [if_pos hbytes]
    by_cases hfits : 0 < (decode data (pos + 1)).1 ∧ jumpFrom data pos ≤ stop
    · rw [if_pos hfits]
      cases hslice : slice data (decode data (pos + 1)).2 (jumpFrom data pos) with
      | none => exact .left _
      | some fieldData =>
        dsimp only
        split_ifs
        · exact .jump rfl hadds
        · have hinside := (pos_of_byteAt h).2
          have hbehind := lt_decode h
          apply GoodTurn.call
          · apply measure_lt_of_pos _ hinside hbehind
            rw [Loop.rank, Loop.rank]
          · intro outcome _
            exact .resumeJump (.extractOpusRecursive stop) (fun _ => rfl) hadds outcome
        · exact .jump rfl hadds
    · rw [if_neg hfits]
      exact .jump rfl hadds
  rw [if_neg hbytes]
  split_ifs with hvarint
  · exact .pass rfl (by simp [Loop.adds, hvarint]) (lt_decode h)
  · exact .left _

theorem skipTurn_good (hadds : loop.adds tag = decide (tag % 8 = 2)) :
    GoodTurn loop data pos tag (skipTurn data pos tag loop) := by
  unfold skipTurn
  split
  next hwire => exact .pass rfl (by simp [hadds, hwire]) (lt_decode h)
  next hwire => exact .jump rfl (by simp [hadds, hwire])
  next hwire => exact .pass rfl (by simp [hadds, hwire]) (by omega)
  next hwire => exact .pass rfl (by simp [hadds, hwire]) (by omega)
  next => exact .left _

theorem classifyTurn_good :
    GoodTurn .hasAudioSubfields data pos tag (classifyTurn data pos tag) := by
  unfold classifyTurn
  split_ifs with hmarker hfits
  · apply GoodTurn.call
    · exact measure_lt_of_rank (by simp [Loop.rank]) data
    · intro outcome _
      split_ifs
      · exact .ended outcome
      · exact .resumeJump (fun _ => .hasAudioSubfields) (fun _ => rfl) (by simp [Loop.adds, hmarker]) outcome
  · exact .left _
  · exact skipTurn_good h rfl

theorem subfieldsTurn_good (wrapperEnd : ℤ) :
    GoodTurn (.subfields wrapperEnd) data pos tag (subfieldsTurn data pos tag wrapperEnd) := by
  unfold subfieldsTurn
  split_ifs
  · exact .left _
  · exact skipTurn_good h rfl

/-- Every loop, at every tag. -/
theorem body_good : GoodTurn loop data pos tag (loop.body data pos tag) := by
  cases loop with
  | parseBlePacket => exact packetTurn_good h
  | handlePendantMessage => exact messageTurn_good h
  | handleStorageBuffer flashPageData => exact storageTurn_good h flashPageData
  | parseFlashPageInfo => exact infoTurn_good
  | chunk chunkEnd => exact chunkTurn_good h chunkEnd
  | storageStatus statusEnd => exact flagTurn_good rfl
  | audioData audioEnd => exact flagTurn_good rfl
  | extractOpusFrames found => exact extractTurn_good found
  | wrapper wrapperEnd found => exact wrapperTurn_good h wrapperEnd found
  | extractOpusRecursive stop found => exact opusTurn_good h stop found
  | hasAudioSubfields => exact classifyTurn_good h
  | subfields wrapperEnd => exact subfieldsTurn_good h wrapperEnd

end bodies

/-- What one turn of a loop can be. -/
theorem turn_cases (loop : Loop) (data : Bytes) (pos : ℤ) :
    (∃ outcome, loop.turn data pos = .left outcome) ∨
    (∃ tag, byteAt data pos = some tag ∧ GoodTurn loop data pos tag (loop.turn data pos)) ∨
    (∃ page, loop.rank = 7 ∧ loop.turn data pos = .next (.parseInfo page)) := by
  rw [Loop.turn]
  split_ifs
  · cases hbyte : byteAt data pos with
    | none => exact .inl ⟨_, rfl⟩
    | some tag => exact .inr (.inl ⟨tag, rfl, body_good hbyte⟩)
  · unfold Loop.exit
    split
    · exact .inr (.inr ⟨_, rfl, rfl⟩)
    · exact .inl ⟨_, rfl⟩

theorem GoodTurn.follows {later : Frame} {turn : DartTurn} (h : GoodTurn loop data pos tag turn)
    (hturn : Frame.turn (.loop loop data pos) = turn)
    (hfollows : Follows Frame.turn (.loop loop data pos) later) :
    GoesTo loop data pos tag later := by
  cases hfollows with
  | next hnext =>
    rw [hnext] at hturn
    subst hturn
    cases h with
    | next _ hlater => exact hlater
  | resumed hcall hends =>
    rw [hcall] at hturn
    subst hturn
    cases h with
    | call _ _ _ hresume => exact hresume _ hends

/-- What comes after a turn of a loop. -/
theorem follows_cases {later : Frame} (h : Follows Frame.turn (.loop loop data pos) later) :
    (∃ tag, byteAt data pos = some tag ∧ GoesTo loop data pos tag later) ∨
    (∃ page, loop.rank = 7 ∧ later = .parseInfo page) := by
  obtain ⟨outcome, hleft⟩ | ⟨tag, hbyte, hgood⟩ | ⟨page, hrank, hpage⟩ := turn_cases loop data pos
  · cases h with
    | next hnext => cases hleft.symm.trans hnext
    | resumed hcall => cases hleft.symm.trans hcall
  · exact .inl ⟨tag, hbyte, hgood.follows rfl h⟩
  · cases h with
    | next hnext =>
      cases hpage.symm.trans hnext
      exact .inr ⟨page, hrank, rfl⟩
    | resumed hcall => cases hpage.symm.trans hcall

end turns

/-! ### The path finishes -/

/-- What is run inside lies lower. -/
theorem measure_inner {frame inner : Frame} {resume : Outcome → Frame}
    (h : frame.turn = .call inner resume) : inner.measure < frame.measure := by
  cases frame with
  | loop loop data pos =>
    change loop.turn data pos = _ at h
    obtain ⟨outcome, hleft⟩ | ⟨tag, -, hgood⟩ | ⟨page, -, hpage⟩ := turn_cases loop data pos
    · cases hleft.symm.trans h
    · rw [h] at hgood
      cases hgood with
      | call _ _ hinner => exact hinner
    · cases hpage.symm.trans h
  | parseInfo page =>
    cases h
    exact stage_lt (by decide)
  | extractFrames page =>
    cases h
    exact stage_lt (by decide)
  | classify page =>
    cases h
    exact stage_lt (by decide)
  | ended outcome => cases h

theorem rank_pos (loop : Loop) : 0 < loop.rank := by
  cases loop <;> simp [Loop.rank]

/-- What comes after a turn lies lower, where the position has grown. -/
theorem measure_follows {frame later : Frame} (h : Follows Frame.turn frame later)
    (hgrows : ∀ loop data pos loop' data' pos', frame = .loop loop data pos →
      later = .loop loop' data' pos' → pos < pos') :
    later.measure < frame.measure := by
  cases frame with
  | loop loop data pos =>
    obtain ⟨tag, hbyte, hgoes⟩ | ⟨page, hrank, rfl⟩ := follows_cases h
    · cases hgoes with
      | ended outcome => exact stage_lt (rank_pos loop)
      | on loop' pos' hrank =>
        have hpos := hgrows _ _ _ _ _ _ rfl rfl
        exact measure_lt_of_pos hrank (pos_of_byteAt hbyte).2 hpos
    · apply stage_lt
      omega
  | parseInfo page =>
    cases h with
    | next hnext => cases hnext
    | resumed hcall =>
      cases hcall
      exact stage_lt (by decide)
  | extractFrames page =>
    cases h with
    | next hnext => cases hnext
    | @resumed _ _ outcome hcall =>
      cases hcall
      dsimp only
      split_ifs
      · exact stage_lt (by decide)
      · exact stage_lt (by decide)
  | classify page =>
    cases h with
    | next hnext => cases hnext
    | resumed hcall =>
      cases hcall
      exact stage_lt (by decide)
  | ended outcome =>
    cases h with
    | next hnext => cases hnext
    | resumed hcall => cases hcall

/-- Where the lengths lead on, so does every turn. -/
theorem LengthsLeadOn.advances {frame : Frame} (h : LengthsLeadOn frame) {loop loop' : Loop}
    {data data' : Bytes} {pos pos' : ℤ} (hreaches : Reaches Frame.turn frame (.loop loop data pos))
    (hfollows : Follows Frame.turn (.loop loop data pos) (.loop loop' data' pos')) :
    pos < pos' := by
  obtain ⟨tag, hbyte, hgoes⟩ | ⟨page, -, hpage⟩ := follows_cases hfollows
  · cases hgoes with
    | on _ _ _ hadds hpasses =>
      cases htag : loop.adds tag with
      | false => exact hpasses htag
      | true =>
        rw [hadds htag]
        exact h loop data pos tag hreaches hbyte htag ⟨loop', data, pos', hfollows⟩
  · cases hpage

/-- The parsers finish, with every position behind the one before, exactly where each length that
they add to a position leads past the tag of its field. -/
theorem terminates_iff (frame : Frame) : Terminates frame ↔ LengthsLeadOn frame := by
  constructor
  · intro h loop data pos tag hreaches hbyte hadds ⟨loop', data', pos', hfollows⟩
    have hpos := h.advances loop data pos hreaches loop' data' pos' hfollows
    obtain ⟨tag', hbyte', hgoes⟩ | ⟨page, -, hpage⟩ := follows_cases hfollows
    · cases hbyte.symm.trans hbyte'
      cases hgoes with
      | on _ _ _ hjump => exact hjump hadds ▸ hpos
    · cases hpage
  · intro h
    have hgrows : ∀ reached, Reaches Frame.turn frame reached →
        ∀ later, Follows Frame.turn reached later → later.measure < reached.measure := by
      intro reached hreached later hfollows
      apply measure_follows hfollows
      rintro loop data pos loop' data' pos' rfl rfl
      exact h.advances hreached hfollows
    constructor
    · apply finishes_of_wellFounded (InvImage.wf Frame.measure wellFounded_lt) hgrows
      exact fun reached _ inner resume hcall => measure_inner hcall
    · intro loop data pos hreaches loop' data' pos' hfollows
      exact h.advances hreaches hfollows

/-- A packet whose first length is -11: from behind the varint it leads back to the tag. -/
def packetBackwards : Bytes := [0x2a, 0xf5, 0xff, 0xff, 0xff, 0xff, 0xff, 0xff, 0xff, 0xff, 0x01]

theorem not_terminates_backwards : ¬ ∀ data : Bytes, Terminates (parseBlePacket data) := by
  intro h
  have hbyte : byteAt packetBackwards 0 = some 0x2a := by decide
  have hjump : jumpFrom packetBackwards 0 = 0 := by decide +kernel
  have hturn : (parseBlePacket packetBackwards).turn = .next (parseBlePacket packetBackwards) := by
    change Loop.turn packetBackwards 0 .parseBlePacket = _
    rw [Loop.turn, if_pos (by decide), hbyte]
    dsimp only [Loop.body]
    rw [packetTurn, if_neg (by decide), if_pos (by decide), if_neg (by decide), hjump]
    rfl
  exact not_finishes_of_cycle hturn (h packetBackwards).finishes

end Omi.Pendant.Dart
