import Omi.Foundation.Checks
import Omi.Foundation.StableSort

/-! Lists that are read page by page: positions in rows under distinct keys, merges of sorted rows,
and pagers, each of whose pages is the front of what its cursor has left. -/
namespace Omi.Foundation

/-! ### Positions -/

section positions
variable {κ ρ : Type*} [LinearOrder κ] (key : ρ → κ)

/-- The rows behind a position, which is the key of the last row that was passed. -/
def rowsAfter (position : Option κ) (rows : List ρ) : List ρ :=
  rows.filter fun row => position.all (· < key row)

variable {key} {rows before after : List ρ} {row : ρ} {position : Option κ}

@[simp] theorem rowsAfter_none : rowsAfter key none rows = rows := by
  simp [rowsAfter]

@[simp] theorem mem_rowsAfter :
    row ∈ rowsAfter key position rows ↔ row ∈ rows ∧ ∀ p ∈ position, p < key row := by
  cases position <;> simp [rowsAfter]

/-- Rows in the order of distinct keys. -/
theorem sortBy_strict (hkeys : (rows.map key).Nodup) :
    (sortBy key rows).Pairwise fun a b => key a < key b := by
  have hdistinct : ((sortBy key rows).map key).Nodup :=
    ((sortBy_perm key rows).map key).nodup_iff.mpr hkeys
  have hne : (sortBy key rows).Pairwise fun a b => key a ≠ key b := List.pairwise_map.mp hdistinct
  exact (sortBy_pairwise key rows).imp₂ (fun _ _ hle hne => hle.lt_of_ne hne) hne

/-- What is left behind a row that was passed is what was left behind it before. -/
theorem rowsAfter_append (hrows : rows.Pairwise fun a b => key a < key b)
    (h : rowsAfter key position rows = before ++ row :: after) :
    rowsAfter key (some (key row)) rows = after := by
  have hrow : row ∈ rowsAfter key position rows := by simp [h]
  have hbehind := (mem_rowsAfter.mp hrow).2
  have hfilter : rowsAfter key (some (key row)) rows =
      (rowsAfter key position rows).filter fun other => key row < key other := by
    rw [rowsAfter, rowsAfter, List.filter_filter]
    refine List.filter_congr fun other _ => ?_
    by_cases hlater : key row < key other
    · have hpassed : position.all (· < key other) = true := by
        cases position with
        | none => rfl
        | some p => simpa using (hbehind p rfl).trans hlater
      simp [hlater, hpassed]
    · simp [hlater]
  have hsorted : (before ++ row :: after).Pairwise fun a b => key a < key b := by
    rw [← h]
    exact hrows.sublist List.filter_sublist
  obtain ⟨-, htail, hbefore⟩ := List.pairwise_append.mp hsorted
  rw [List.pairwise_cons] at htail
  rw [hfilter, h, List.filter_append, List.filter_cons_of_neg (by simp)]
  have hnone : before.filter (fun other => key row < key other) = [] := by
    rw [List.filter_eq_nil_iff]
    intro other hother
    simpa using (hbefore other hother row List.mem_cons_self).le
  have hall : after.filter (fun other => key row < key other) = after := by
    rw [List.filter_eq_self]
    intro other hother
    simpa using htail.1 other hother
  rw [hnone, hall, List.nil_append]

end positions

/-! ### Merges -/

section merges
variable {κ α : Type*} [LinearOrder κ] (key : α → κ)

/-- Sorted lists as one, with an element of the first list before its equals in the second. -/
def mergeBy (xs ys : List α) : List α := List.merge xs ys fun a b => key a ≤ key b

variable {key} {xs ys : List α} {x y : α}

@[simp] theorem mem_mergeBy : x ∈ mergeBy key xs ys ↔ x ∈ xs ∨ x ∈ ys := List.mem_merge

theorem mergeBy_perm : (mergeBy key xs ys).Perm (xs ++ ys) := List.merge_perm_append _

@[simp] theorem mergeBy_nil : mergeBy key xs [] = xs := List.merge_right xs

@[simp] theorem nil_mergeBy : mergeBy key [] ys = ys := List.nil_merge ys

theorem mergeBy_pairwise (hxs : xs.Pairwise fun a b => key a ≤ key b)
    (hys : ys.Pairwise fun a b => key a ≤ key b) :
    (mergeBy key xs ys).Pairwise fun a b => key a ≤ key b := by
  have hmerged := @List.pairwise_merge _ (fun a b => decide (key a ≤ key b))
    (by simpa using fun a b c => le_trans) (by simpa using fun a b => le_total (key a) (key b))
    xs ys (by simpa using hxs) (by simpa using hys)
  simpa [mergeBy] using hmerged

/-- The head of the first list comes first unless it is behind the head of the second. -/
theorem mergeBy_cons_left (h : ∀ other ∈ ys.head?, key x ≤ key other) :
    mergeBy key (x :: xs) ys = x :: mergeBy key xs ys := by
  cases ys with
  | nil => simp
  | cons other ys => exact List.cons_merge_cons_pos _ _ _ (by simpa using h other rfl)

theorem mergeBy_cons_right (h : ∀ other ∈ xs.head?, key y < key other) :
    mergeBy key xs (y :: ys) = y :: mergeBy key xs ys := by
  cases xs with
  | nil => simp
  | cons other xs =>
    exact List.cons_merge_cons_neg _ _ _ (by simpa using h other rfl)

end merges

/-! ### Pagers -/

/-- What comes after a page: more behind a cursor, nothing, or the end of a reading that was cut
short. -/
inductive Next (σ : Type) where
  | more (cursor : σ)
  | done
  | cut
  deriving DecidableEq

/-- What is left after a page, of what each cursor has left: nothing after the last one, and any part
where the reading was cut short. -/
def Next.Leaves {σ β : Type} (left : σ → β) (nothing rest : β) : Next σ → Prop
  | .more cursor => rest = left cursor
  | .done => rest = nothing
  | .cut => True

/-- What comes after a page, behind cursors of another kind. -/
def Next.map {σ ρ : Type} (f : σ → ρ) : Next σ → Next ρ
  | .more cursor => .more (f cursor)
  | .done => .done
  | .cut => .cut

theorem Next.leaves_map {σ ρ β : Type} {f : σ → ρ} {left : ρ → β} {nothing rest : β}
    {next : Next σ} : (next.map f).Leaves left nothing rest ↔
      next.Leaves (fun cursor => left (f cursor)) nothing rest := by
  cases next <;> exact Iff.rfl

/-- A list that is read page by page: a request and a cursor give a page, and what comes after it. -/
structure Pager (ε σ τ α : Type) where
  read : τ → σ → Except ε (List α × Next σ)

namespace Pager
variable {ε σ τ α : Type} (pager : Pager ε σ τ α)

/-- Read one page for each request, until there is no cursor left. -/
def readAll : List τ → σ → Except ε (List (List α) × Next σ)
  | [], cursor => pure ([], .more cursor)
  | request :: requests, cursor => do
    let (page, next) ← pager.read request cursor
    match next with
    | .more cursor => do
      let (pages, last) ← readAll requests cursor
      pure (page :: pages, last)
    | .done => pure ([page], .done)
    | .cut => pure ([page], .cut)

/-- Each page is the front of what the request lists behind the cursor, and the next cursor has the
rest; a page that is the last one is all of it. -/
structure Lists (listing : τ → σ → List α) (sound : σ → Prop) : Prop where
  page : ∀ {request cursor page next}, sound cursor →
    pager.read request cursor = .ok (page, next) →
      ∃ rest, page ++ rest = listing request cursor ∧ next.Leaves (listing request) [] rest
  sound : ∀ {request cursor page next}, sound cursor →
    pager.read request cursor = .ok (page, .more next) → sound next

variable {pager} {listing : τ → σ → List α} {sound : σ → Prop} {requests : List τ} {cursor : σ}
  {pages : List (List α)} {last : Next σ}

/-- What the pages have of a kind of element is what the first cursor has of it and the last one has
not, where that does not change from request to request. -/
theorem Lists.countP (h : pager.Lists listing sound) (p : α → Bool) {left : σ → ℕ}
    (hleft : ∀ request ∈ requests, ∀ cursor, sound cursor →
      (listing request cursor).countP p = left cursor) (hcursor : sound cursor)
    (hread : pager.readAll requests cursor = .ok (pages, last)) :
    ∃ rest, pages.flatten.countP p + rest = left cursor ∧ last.Leaves left 0 rest := by
  induction requests generalizing cursor pages with
  | nil =>
    cases hread
    exact ⟨left cursor, by simp, rfl⟩
  | cons request requests ih =>
    obtain ⟨hfirst, hrest⟩ := List.forall_mem_cons.mp hleft
    obtain ⟨⟨page, next⟩, hpage, hread⟩ := bind_eq_ok_iff.mp hread
    obtain ⟨rest, hlisted, hnext⟩ := h.page hcursor hpage
    have hcount := congrArg (List.countP p) hlisted
    rw [List.countP_append, hfirst cursor hcursor] at hcount
    cases next with
    | done =>
      cases hread
      obtain rfl : rest = [] := hnext
      exact ⟨0, by simpa using hcount, rfl⟩
    | cut =>
      cases hread
      exact ⟨rest.countP p, by simpa using hcount, trivial⟩
    | more next =>
      obtain ⟨⟨more, stop⟩, hmore, hresult⟩ := bind_eq_ok_iff.mp hread
      cases hresult
      have hsound := h.sound hcursor hpage
      obtain rfl : rest = listing request next := hnext
      obtain ⟨rest, htail, hlast⟩ := ih hrest hsound hmore
      rw [hfirst next hsound] at hcount
      refine ⟨rest, ?_, hlast⟩
      rw [List.flatten_cons, List.countP_append]
      omega

/-- Where every request lists the same, the pages are the front of that list, and the last cursor has
the rest. -/
theorem Lists.flatten (h : pager.Lists listing sound) {whole : σ → List α}
    (hsame : ∀ request ∈ requests, ∀ cursor, listing request cursor = whole cursor)
    (hcursor : sound cursor) (hread : pager.readAll requests cursor = .ok (pages, last)) :
    ∃ rest, pages.flatten ++ rest = whole cursor ∧ last.Leaves whole [] rest := by
  induction requests generalizing cursor pages with
  | nil =>
    cases hread
    exact ⟨whole cursor, by simp, rfl⟩
  | cons request requests ih =>
    obtain ⟨hfirst, hrest⟩ := List.forall_mem_cons.mp hsame
    obtain ⟨⟨page, next⟩, hpage, hread⟩ := bind_eq_ok_iff.mp hread
    obtain ⟨rest, hlisted, hnext⟩ := h.page hcursor hpage
    rw [hfirst cursor] at hlisted
    cases next with
    | done =>
      cases hread
      exact ⟨rest, by simpa using hlisted, hnext⟩
    | cut =>
      cases hread
      exact ⟨rest, by simpa using hlisted, trivial⟩
    | more next =>
      obtain ⟨⟨more, stop⟩, hmore, hresult⟩ := bind_eq_ok_iff.mp hread
      cases hresult
      obtain rfl : rest = listing request next := hnext
      obtain ⟨rest, htail, hlast⟩ := ih hrest (h.sound hcursor hpage) hmore
      refine ⟨rest, ?_, hlast⟩
      rw [List.flatten_cons, List.append_assoc, htail, ← hfirst next, hlisted]

/-- Reads that neither fail nor are cut short, and give something unless nothing is left, come to an
end. -/
theorem Lists.readAll_ends (h : pager.Lists listing sound) {whole : σ → List α}
    {accepts : τ → σ → Prop} {follows : τ → τ → Prop}
    (hsame : ∀ request ∈ requests, ∀ cursor, listing request cursor = whole cursor)
    (htotal : ∀ request ∈ requests, ∀ cursor, sound cursor → accepts request cursor →
      ∃ page next, pager.read request cursor = .ok (page, next) ∧ (next = .done ∨
        ∃ after, next = .more after ∧ page ≠ [] ∧
          ∀ later, follows request later → accepts later after))
    (hfollows : requests.IsChain follows) (hcursor : sound cursor)
    (haccepts : ∀ request ∈ requests.head?, accepts request cursor)
    (hlong : (whole cursor).length < requests.length) :
    ∃ pages, pager.readAll requests cursor = .ok (pages, .done) := by
  induction requests generalizing cursor with
  | nil => cases hlong
  | cons request requests ih =>
    obtain ⟨hfirst, hrest⟩ := List.forall_mem_cons.mp hsame
    obtain ⟨hread, hreads⟩ := List.forall_mem_cons.mp htotal
    obtain ⟨hlater, hchain⟩ := List.isChain_cons.mp hfollows
    obtain ⟨page, next, hpage, hnext⟩ := hread cursor hcursor (haccepts request rfl)
    obtain rfl | ⟨after, rfl, hsome, hafter⟩ := hnext
    · refine ⟨[page], ?_⟩
      rw [readAll, hpage]
      rfl
    · have hshorter : (whole after).length < requests.length := by
        obtain ⟨rest, hlisted, hleft⟩ := h.page hcursor hpage
        obtain rfl : rest = listing request after := hleft
        have hlength := congrArg List.length hlisted
        rw [hfirst cursor, hfirst after, List.length_append] at hlength
        rw [List.length_cons] at hlong
        have hpositive := List.length_pos_of_ne_nil hsome
        omega
      have haccepted : ∀ later ∈ requests.head?, accepts later after :=
        fun later hhead => hafter later (hlater later hhead)
      obtain ⟨pages, hpages⟩ := ih hrest hreads hchain (h.sound hcursor hpage) haccepted hshorter
      refine ⟨page :: pages, ?_⟩
      rw [readAll, hpage]
      dsimp only [bind, Except.bind]
      rw [hpages]
      rfl

end Pager

end Omi.Foundation
