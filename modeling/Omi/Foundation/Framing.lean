import Mathlib.Data.List.Basic

/-! Streams of frames, each behind a fixed-width header that holds its length. -/
namespace Omi.Foundation

/-- How a stream is laid out, and which lengths its reader takes for legal. -/
structure Framing (α : Type*) where
  width : ℕ
  width_pos : 0 < width
  header : ℕ → List α
  length : List α → ℕ
  legal : ℕ → Bool
  length_header : ∀ n, (header n).length = width
  header_inv : ∀ n, legal n = true → length (header n) = n

namespace Framing
variable {α σ : Type*} (framing : Framing α)

/-- The frames one after the other, each behind its header. -/
def encode (frames : List (List α)) : List α :=
  frames.flatMap fun frame => framing.header frame.length ++ frame

/-- The frames that lie wholly in the first `count` symbols of the stream. -/
def contained : List (List α) → ℕ → List (List α)
  | [], _ => []
  | frame :: rest, count =>
    if framing.width + frame.length ≤ count then
      frame :: contained rest (count - (framing.width + frame.length))
    else []

/-- Consume the frames in order, up to one that is refused. -/
def feed (consume : σ → List α → Option σ) (state : σ) : List (List α) → σ
  | [] => state
  | frame :: rest =>
    match consume state frame with
    | none => state
    | some next => feed consume next rest

/-- Read frames until the stream ends or becomes unreadable, with whether it did the latter. -/
def scan (consume : σ → List α → Option σ) (state : σ) (stream : List α) : σ × Bool :=
  let header := stream.take framing.width
  if _hend : header = [] then (state, false)
  else if header.length < framing.width then (state, true)
  else if framing.legal (framing.length header) = false then (state, true)
  else
    let frame := (stream.drop framing.width).take (framing.length header)
    if frame.length < framing.length header then (state, true)
    else
      match consume state frame with
      | none => (state, true)
      | some next =>
        scan consume next ((stream.drop framing.width).drop (framing.length header))
termination_by stream.length
decreasing_by
  have hne : stream ≠ [] := by
    rintro rfl
    exact _hend List.take_nil
  have hlength := List.length_pos_iff.2 hne
  have hwidth := framing.width_pos
  simp only [List.length_drop]
  omega

variable {framing}

theorem contained_eq_self {frames : List (List α)} {count : ℕ}
    (h : (framing.encode frames).length ≤ count) : framing.contained frames count = frames := by
  induction frames generalizing count with
  | nil => rfl
  | cons frame rest ih =>
    simp only [encode, List.flatMap_cons, List.length_append, framing.length_header] at h
    have hrest : (framing.encode rest).length ≤ count - (framing.width + frame.length) := by
      unfold encode
      omega
    simp only [contained, if_pos (show framing.width + frame.length ≤ count by omega), ih hrest]

theorem contained_prefix (frames : List (List α)) (count : ℕ) :
    framing.contained frames count <+: frames := by
  induction frames generalizing count with
  | nil => exact List.prefix_rfl
  | cons frame rest ih =>
    unfold contained
    split_ifs
    · exact (List.prefix_cons_inj frame).2 (ih _)
    · exact List.nil_prefix

/-- The contained frames are those whose encoding fits, one after the other. -/
theorem length_encode_take_le_iff (frames : List (List α)) (count k : ℕ)
    (hk : k ≤ frames.length) :
    (framing.encode (frames.take k)).length ≤ count ↔
      k ≤ (framing.contained frames count).length := by
  induction frames generalizing count k with
  | nil =>
    obtain rfl : k = 0 := Nat.le_zero.1 hk
    simp [encode]
  | cons frame rest ih =>
    cases k with
    | zero => simp [encode]
    | succ k =>
      have hlength : (framing.encode ((frame :: rest).take (k + 1))).length =
          framing.width + frame.length + (framing.encode (rest.take k)).length := by
        simp [encode, framing.length_header, Nat.add_assoc]
      have hrest := ih (count - (framing.width + frame.length)) k (Nat.le_of_succ_le_succ hk)
      rw [hlength, contained]
      split_ifs with hfits
      · rw [List.length_cons]
        omega
      · simp only [List.length_nil]
        omega

/-- Reading a prefix of an encoded stream consumes the frames that lie wholly in it. -/
theorem scan_take_encode (consume : σ → List α → Option σ) (state : σ)
    {frames : List (List α)} (hlegal : ∀ frame ∈ frames, framing.legal frame.length = true)
    (count : ℕ) :
    (framing.scan consume state ((framing.encode frames).take count)).1 =
      feed consume state (framing.contained frames count) := by
  induction frames generalizing state count with
  | nil =>
    rw [scan]
    simp [encode, contained, feed]
  | cons frame rest ih =>
    have hframe := hlegal frame List.mem_cons_self
    have hinv := framing.header_inv frame.length hframe
    have hwidth := framing.length_header frame.length
    have hencode : framing.encode (frame :: rest) =
        framing.header frame.length ++ (frame ++ framing.encode rest) := by
      simp [encode]
    rw [hencode]
    by_cases hheader : framing.width ≤ count
    · -- the prefix holds the header
      have hsplit : (framing.header frame.length ++ (frame ++ framing.encode rest)).take count =
          framing.header frame.length ++
            (frame ++ framing.encode rest).take (count - framing.width) := by
        rw [List.take_append, hwidth, List.take_of_length_le (by omega)]
      have hne : framing.header frame.length ≠ [] := by
        intro hnil
        have hpos := framing.width_pos
        rw [hnil] at hwidth
        simp at hwidth
        omega
      rw [hsplit, scan]
      simp only [List.take_left' hwidth, List.drop_left' hwidth, hne, dite_false, hwidth,
        Nat.lt_irrefl, if_false, hinv, hframe, Bool.true_eq_false]
      by_cases hwhole : framing.width + frame.length ≤ count
      · -- and the whole frame
        have hbody : (frame ++ framing.encode rest).take (count - framing.width) =
            frame ++ (framing.encode rest).take (count - (framing.width + frame.length)) := by
          rw [List.take_append, List.take_of_length_le (by omega)]
          congr 2
          omega
        rw [hbody]
        simp only [List.take_left, List.drop_left, Nat.lt_irrefl, if_false, contained, hwhole,
          if_true, feed]
        cases consume state frame with
        | none => rfl
        | some next =>
          exact ih next (fun other hother => hlegal other (List.mem_cons_of_mem frame hother)) _
      · have hshort : (List.take frame.length ((frame ++ framing.encode rest).take
            (count - framing.width))).length < frame.length := by
          simp only [List.length_take]
          omega
        simp only [hshort, if_true, contained, hwhole, if_false, feed]
    · have hwhole : ¬framing.width + frame.length ≤ count := by omega
      simp only [contained, hwhole, if_false, feed]
      rw [scan]
      have hshort : (List.take framing.width ((framing.header frame.length ++
          (frame ++ framing.encode rest)).take count)).length < framing.width := by
        simp only [List.length_take]
        omega
      split_ifs
      · rfl
      · rfl

end Framing

end Omi.Foundation
