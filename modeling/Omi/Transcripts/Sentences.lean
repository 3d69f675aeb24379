import Mathlib
import Omi.Foundation.PyText

/-! The text of transcript segments: sentences, and what stays of a text without its whitespace
(`models/transcript_segment.py`). A text is the list of its characters. -/
namespace Omi.Transcripts
open Omi.Foundation

abbrev Text := List Char

/-- `str.isalpha` and `str.islower` of a character. -/
structure CharClass where
  isAlpha : Char → Bool
  isLower : Char → Bool

/-- The letters and case of ASCII. -/
def asciiClass : CharClass where
  isAlpha := Char.isAlpha
  isLower := Char.isLower

/-! ### Sentences -/

def sentenceEnders : List Char := ['.', '?', '!', '。', '！', '？', '؟', '۔', '।', '॥']

def isEnder (c : Char) : Bool := c ∈ sentenceEnders

/-- `text[-1] in SENTENCE_ENDERS`. -/
def endsSentence (text : Text) : Bool := text.getLast?.any isEnder

/-- `SENTENCE_SPLIT_RE.split`: a cut after each ender, with the whitespace that follows it. -/
def splitFrom (current : Text) (skipping : Bool) : Text → List Text
  | [] => [current]
  | c :: rest =>
    if skipping && isPySpace c then splitFrom current true rest
    else if isEnder c then (current ++ [c]) :: splitFrom [] true rest
    else splitFrom (current ++ [c]) false rest

/-- `[p for p in SENTENCE_SPLIT_RE.split(text) if p]`. -/
def sentenceParts (text : Text) : List Text :=
  (splitFrom [] false text).filter (· ≠ [])

/-- `" ".join(parts)`. -/
def joinSpaced : List Text → Text
  | [] => []
  | [part] => part
  | part :: next :: rest => part ++ ' ' :: joinSpaced (next :: rest)

/-- The last sentence, where it is incomplete, and the text before it. -/
def extractLastIncompleteSentence (text : Text) : Option Text × Text :=
  let text := stripList text
  if text = [] then (none, [])
  else
    let parts := sentenceParts text
    match parts.getLast? with
    | none => (none, text)
    | some last =>
      if endsSentence last then (none, text)
      else (some last, stripList (joinSpaced parts.dropLast))

def splitFirstSentence (text : Text) : Text × Text :=
  match sentenceParts (stripList text) with
  | [] => ([], [])
  | first :: rest => (first, stripList (joinSpaced rest))

variable (chars : CharClass)

def startsWithLowercaseCased (text : Text) : Bool :=
  ((stripList text).find? chars.isAlpha).any chars.isLower

def isSentenceComplete (text : Text) : Bool :=
  endsSentence (stripList text) && !startsWithLowercaseCased chars (stripList text)

def canBackwardMergeFirstSentence (firstSentence rest lastIncomplete : Text) : Bool :=
  rest ≠ [] && firstSentence ≠ [] && decide (firstSentence.length < lastIncomplete.length)

def canBackwardMergeSingleSentence (firstSentence lastIncomplete : Text) : Bool :=
  firstSentence ≠ [] && !isSentenceComplete chars firstSentence &&
    decide (firstSentence.length < lastIncomplete.length)

/-! ### Punctuation spacing -/

/-- `text.replace(' ' + c, c)`. -/
def dropSpaceBefore (c : Char) : Text → Text
  | a :: b :: rest =>
    if a = ' ' ∧ b = c then c :: dropSpaceBefore c rest else a :: dropSpaceBefore c (b :: rest)
  | text => text

def normalizeText (text : Text) : Text :=
  dropSpaceBefore '?' (dropSpaceBefore '.' (dropSpaceBefore ',' (dropSpaceBefore ' '
    (stripList text))))

/-! ### Without whitespace -/

/-- The text with all whitespace removed. -/
def bare (text : Text) : Text := text.filter fun c => !isPySpace c

@[simp] theorem bare_nil : bare [] = [] := rfl

@[simp] theorem bare_append (front back : Text) : bare (front ++ back) = bare front ++ bare back :=
  List.filter_append front back

@[simp] theorem bare_space (text : Text) : bare (' ' :: text) = bare text := rfl

theorem bare_cons_of_space {c : Char} (h : isPySpace c = true) (text : Text) :
    bare (c :: text) = bare text := by
  simp [bare, h]

theorem bare_cons (c : Char) (text : Text) : bare (c :: text) = bare [c] ++ bare text :=
  bare_append [c] text

theorem bare_dropWhile (text : Text) : bare (text.dropWhile isPySpace) = bare text := by
  induction text with
  | nil => rfl
  | cons c rest ih =>
    cases hspace : isPySpace c with
    | true => rw [List.dropWhile_cons_of_pos hspace, ih, bare_cons_of_space hspace]
    | false => rw [List.dropWhile_cons_of_neg (by simp [hspace])]

theorem bare_reverse (text : Text) : bare text.reverse = (bare text).reverse :=
  List.filter_reverse

@[simp] theorem bare_stripList (text : Text) : bare (stripList text) = bare text := by
  rw [stripList, bare_reverse, bare_dropWhile, bare_reverse, bare_dropWhile, List.reverse_reverse]

theorem bare_splitFrom (current : Text) (skipping : Bool) (text : Text) :
    bare (splitFrom current skipping text).flatten = bare current ++ bare text := by
  induction text generalizing current skipping with
  | nil => simp [splitFrom]
  | cons c rest ih =>
    rw [splitFrom]
    split_ifs with hskip hender
    · have hspace : isPySpace c = true := (Bool.and_eq_true _ _ ▸ hskip).2
      rw [ih, bare_cons_of_space hspace]
    · rw [List.flatten_cons, bare_append, ih, bare_append, bare_nil, List.nil_append,
        List.append_assoc, ← bare_cons]
    · rw [ih, bare_append, List.append_assoc, ← bare_cons]

theorem flatten_filter_ne_nil (parts : List Text) :
    (parts.filter (· ≠ [])).flatten = parts.flatten := by
  induction parts with
  | nil => rfl
  | cons part rest ih =>
    cases part with
    | nil => simpa using ih
    | cons c part =>
      rw [List.filter_cons_of_pos (by simp), List.flatten_cons, List.flatten_cons, ih]

theorem bare_sentenceParts (text : Text) : bare (sentenceParts text).flatten = bare text := by
  rw [sentenceParts, flatten_filter_ne_nil, bare_splitFrom, bare_nil, List.nil_append]

theorem bare_joinSpaced (parts : List Text) : bare (joinSpaced parts) = bare parts.flatten := by
  induction parts with
  | nil => rfl
  | cons part rest ih =>
    cases rest with
    | nil => simp [joinSpaced]
    | cons next rest =>
      rw [joinSpaced, bare_append, bare_space, ih, ← bare_append]
      rfl

/-- The last sentence and what is before it are the text. -/
theorem extractLastIncompleteSentence_bare {text lastIncomplete before : Text}
    (h : extractLastIncompleteSentence text = (some lastIncomplete, before)) :
    bare text = bare before ++ bare lastIncomplete := by
  unfold extractLastIncompleteSentence at h
  dsimp only at h
  split_ifs at h
  · cases h
  · cases hlast : (sentenceParts (stripList text)).getLast? with
    | none =>
      rw [hlast] at h
      cases h
    | some last =>
      rw [hlast] at h
      dsimp only at h
      split_ifs at h
      · cases h
      · cases h
        have hparts := bare_sentenceParts (stripList text)
        rw [← List.dropLast_append_getLast? _ hlast, List.flatten_append, bare_append,
          bare_stripList] at hparts
        rw [bare_stripList, bare_joinSpaced, ← hparts, List.flatten_singleton]

theorem splitFirstSentence_bare {text first rest : Text}
    (h : splitFirstSentence text = (first, rest)) : bare text = bare first ++ bare rest := by
  unfold splitFirstSentence at h
  have hparts := bare_sentenceParts (stripList text)
  rw [bare_stripList] at hparts
  cases hsentences : sentenceParts (stripList text) with
  | nil =>
    rw [hsentences] at h hparts
    cases h
    exact hparts.symm
  | cons sentence sentences =>
    rw [hsentences] at h hparts
    cases h
    rw [← hparts, List.flatten_cons, bare_append, bare_stripList, bare_joinSpaced]

/-- What is left of a stripped text has more than whitespace. -/
theorem bare_ne_nil_of_stripList {text : Text} (h : stripList text ≠ []) : bare text ≠ [] := by
  intro hbare
  refine h ((stripList_eq_nil_iff text).mpr fun c hc => ?_)
  have hspace := List.filter_eq_nil_iff.mp hbare c hc
  simpa using hspace

theorem splitFirstSentence_rest {text first rest : Text}
    (h : splitFirstSentence text = (first, rest)) (hrest : rest ≠ []) : bare rest ≠ [] := by
  unfold splitFirstSentence at h
  cases hsentences : sentenceParts (stripList text) with
  | nil =>
    rw [hsentences] at h
    cases h
    exact absurd rfl hrest
  | cons sentence sentences =>
    rw [hsentences] at h
    cases h
    rw [bare_stripList]
    exact bare_ne_nil_of_stripList hrest

theorem bare_dropSpaceBefore (c : Char) (text : Text) : bare (dropSpaceBefore c text) = bare text := by
  fun_induction dropSpaceBefore c text with
  | case1 a b rest hpair ih =>
    obtain ⟨rfl, rfl⟩ := hpair
    rw [bare_space, bare_cons, ih, ← bare_cons]
  | case2 a b rest hpair ih => rw [bare_cons, ih, ← bare_cons]
  | case3 text => rfl

@[simp] theorem bare_normalizeText (text : Text) : bare (normalizeText text) = bare text := by
  simp only [normalizeText, bare_dropSpaceBefore, bare_stripList]

end Omi.Transcripts
