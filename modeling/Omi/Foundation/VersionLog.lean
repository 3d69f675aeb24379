import Mathlib.Data.List.Induction
import Mathlib.Order.Basic
import Omi.Foundation.Runs

/-! Logs of commits over keyed documents: the current document of a key is the last one that a commit
wrote under it. Where each commit only writes documents that succeed the current ones, a document
that is read again under the same revision is the same document. -/
namespace Omi.Foundation

variable {κ δ β : Type*} [DecidableEq κ] {key : δ → κ}

/-- The last document that the log has under a key. -/
def latest (key : δ → κ) (log : List (List δ)) (k : κ) : Option δ :=
  log.flatten.reverse.find? fun doc => key doc = k

@[simp] theorem latest_nil (k : κ) : latest key [] k = none := rfl

theorem latest_concat (log : List (List δ)) (docs : List δ) (k : κ) :
    latest key (log ++ [docs]) k =
      (docs.reverse.find? fun doc => key doc = k).or (latest key log k) := by
  simp [latest, List.find?_append]

theorem key_of_latest {log : List (List δ)} {k : κ} {doc : δ} (h : latest key log k = some doc) :
    key doc = k := by
  have hfound := List.find?_some h
  simpa using hfound

/-- The current document was written by some commit. -/
theorem exists_mem_of_latest {log : List (List δ)} {k : κ} {doc : δ}
    (h : latest key log k = some doc) : ∃ docs ∈ log, doc ∈ docs := by
  have hmem := List.mem_of_find?_eq_some h
  exact List.mem_flatten.mp (List.mem_reverse.mp hmem)

section succession
variable [Preorder β] {revision : δ → β} {final : δ → Prop}

/-- A document may take the place of the current one: that one is of a lower revision, and not
final. -/
def Succeeds (revision : δ → β) (final : δ → Prop) (current : Option δ) (doc : δ) : Prop :=
  ∀ old ∈ current, revision old < revision doc ∧ ¬ final old

/-- A document is the same one, or a later revision of one that was not final. -/
def Continues (revision : δ → β) (final : δ → Prop) (old doc : δ) : Prop :=
  doc = old ∨ revision old < revision doc ∧ ¬ final old

theorem Continues.trans {old mid doc : δ} (h : Continues revision final old mid)
    (h' : Continues revision final mid doc) : Continues revision final old doc := by
  obtain rfl | ⟨hlater, hopen⟩ := h
  · exact h'
  · obtain rfl | ⟨hlater', -⟩ := h'
    · exact .inr ⟨hlater, hopen⟩
    · exact .inr ⟨hlater.trans hlater', hopen⟩

theorem Continues.revision_le {old doc : δ} (h : Continues revision final old doc) :
    revision old ≤ revision doc := by
  obtain rfl | ⟨hlater, -⟩ := h
  · exact le_rfl
  · exact hlater.le

theorem Continues.eq_of_revision {old doc : δ} (h : Continues revision final old doc)
    (hsame : revision doc ≤ revision old) : doc = old := by
  obtain hdoc | ⟨hlater, -⟩ := h
  · exact hdoc
  · exact absurd hsame hlater.not_ge

theorem Continues.eq_of_final {old doc : δ} (h : Continues revision final old doc)
    (hfinal : final old) : doc = old := by
  obtain hdoc | ⟨-, hopen⟩ := h
  · exact hdoc
  · exact absurd hfinal hopen

/-- A commit only writes documents that succeed the current ones. -/
def CommitSucceeds (key : δ → κ) (revision : δ → β) (final : δ → Prop) (before : List (List δ))
    (docs : List δ) : Prop :=
  ∀ doc ∈ docs, Succeeds revision final (latest key before (key doc)) doc

/-- As a log goes on, the current document of a key stays there and is followed only by later
revisions, up to a final one. -/
theorem latest_continues {log more : List (List δ)} {k : κ} {doc : δ}
    (hlawful : Lawful (CommitSucceeds key revision final) (log ++ more))
    (hdoc : latest key log k = some doc) :
    ∃ doc', latest key (log ++ more) k = some doc' ∧ Continues revision final doc doc' := by
  induction more using List.reverseRecOn with
  | nil => exact ⟨doc, by simpa using hdoc, .inl rfl⟩
  | append_singleton more docs ih =>
    rw [← List.append_assoc] at hlawful ⊢
    obtain ⟨hbefore, hcommit⟩ := lawful_concat_iff.mp hlawful
    obtain ⟨current, hcurrent, hcontinues⟩ := ih hbefore
    rw [latest_concat, hcurrent]
    cases hfound : docs.reverse.find? fun doc => key doc = k with
    | none => exact ⟨current, rfl, hcontinues⟩
    | some written =>
      have hmem := List.mem_reverse.mp (List.mem_of_find?_eq_some hfound)
      have hkey : key written = k := by
        have hsome := List.find?_some hfound
        simpa using hsome
      have hlater := hcommit written hmem current (by rw [hkey]; exact hcurrent)
      exact ⟨written, rfl, hcontinues.trans (.inr hlater)⟩

end succession

end Omi.Foundation
