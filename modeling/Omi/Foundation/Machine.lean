import Mathlib
import Omi.Foundation.Runs

/-! Runs of a machine that answers every action it is given, and the rules by which
facts about one step become facts about every run. -/
namespace Omi.Foundation

/-- A deterministic machine: each action moves the state and returns an answer. -/
structure Machine (σ α ρ : Type*) where
  step : σ → α → σ × ρ

namespace Machine
variable {σ α ρ β : Type*} (M : Machine σ α ρ)

/-- The state after a list of actions. -/
def state (s : σ) : List α → σ
  | [] => s
  | a :: as => state (M.step s a).1 as

/-- The actions of a run, each with the answer it got. -/
def trace (s : σ) : List α → List (α × ρ)
  | [] => []
  | a :: as => (a, (M.step s a).2) :: trace (M.step s a).1 as

@[simp] theorem state_nil (s : σ) : M.state s [] = s := rfl

@[simp] theorem state_cons (s : σ) (a : α) (as : List α) :
    M.state s (a :: as) = M.state (M.step s a).1 as := rfl

@[simp] theorem trace_nil (s : σ) : M.trace s [] = [] := rfl

@[simp] theorem trace_cons (s : σ) (a : α) (as : List α) :
    M.trace s (a :: as) = (a, (M.step s a).2) :: M.trace (M.step s a).1 as := rfl

theorem state_append (s : σ) (as bs : List α) :
    M.state s (as ++ bs) = M.state (M.state s as) bs := by
  induction as generalizing s with
  | nil => rfl
  | cons a as ih => exact ih _

theorem trace_append (s : σ) (as bs : List α) :
    M.trace s (as ++ bs) = M.trace s as ++ M.trace (M.state s as) bs := by
  induction as generalizing s with
  | nil => rfl
  | cons a as ih => simp [ih]

variable {M} {I : σ → Prop}

/-- The first of some events of a run, in their order, splits the run. -/
theorem sublist_trace_cons {s : σ} {as : List α} {e : α × ρ} {es : List (α × ρ)}
    (h : (e :: es).Sublist (M.trace s as)) :
    ∃ before after, as = before ++ e.1 :: after ∧ e.2 = (M.step (M.state s before) e.1).2 ∧
      es.Sublist (M.trace (M.step (M.state s before) e.1).1 after) := by
  induction as generalizing s with
  | nil => simp at h
  | cons a as ih =>
    rw [trace_cons] at h
    cases h with
    | cons _ htail =>
      obtain ⟨before, after, rfl, hreply, hrest⟩ := ih htail
      exact ⟨a :: before, after, rfl, hreply, hrest⟩
    | cons_cons _ hrest => exact ⟨[], as, rfl, rfl, hrest⟩

theorem map_fst_trace (s : σ) (as : List α) : (M.trace s as).map Prod.fst = as := by
  induction as generalizing s with
  | nil => rfl
  | cons a as ih => simp [ih]

theorem fst_mem_of_mem_trace {s : σ} {as : List α} {e : α × ρ} (h : e ∈ M.trace s as) :
    e.1 ∈ as := by
  rw [← map_fst_trace (M := M) s as]
  exact List.mem_map_of_mem h

/-- What every step keeps holds after every run. -/
theorem invariant (step : ∀ s a, I s → I (M.step s a).1) {s : σ} (hs : I s) (as : List α) :
    I (M.state s as) := by
  induction as generalizing s with
  | nil => exact hs
  | cons a as ih => exact ih (step s a hs)

/-- The same for runs all of whose events are `ok`. -/
theorem invariant_of_trace (ok : α → ρ → Prop)
    (step : ∀ s a, I s → ok a (M.step s a).2 → I (M.step s a).1) {s : σ} (hs : I s)
    (as : List α) (hok : ∀ e ∈ M.trace s as, ok e.1 e.2) : I (M.state s as) := by
  induction as generalizing s with
  | nil => exact hs
  | cons a as ih =>
    have hhead := hok (a, (M.step s a).2) (by simp)
    exact ih (step s a hs hhead) fun e he => hok e (by simp [he])

/-- The same for runs all of whose actions are `ok`. -/
theorem invariant_of_mem (ok : α → Prop) (step : ∀ s a, I s → ok a → I (M.step s a).1)
    {s : σ} (hs : I s) (as : List α) (hok : ∀ a ∈ as, ok a) : I (M.state s as) :=
  invariant_of_trace (fun a _ => ok a) (fun s a hI ha => step s a hI ha) hs as
    fun _ he => hok _ (fst_mem_of_mem_trace he)

section everyStep
variable {condition : σ → α → Prop} {s : σ}

theorem everyStep_append {as bs : List α} :
    EveryStep (fun s a => (M.step s a).1) condition s (as ++ bs) ↔
      EveryStep (fun s a => (M.step s a).1) condition s as ∧
        EveryStep (fun s a => (M.step s a).1) condition (M.state s as) bs := by
  induction as generalizing s with
  | nil => exact (iff_of_eq (true_and _)).symm
  | cons a as ih => exact (and_congr_right fun _ => ih).trans and_assoc.symm

/-- The same for runs each of whose steps meets a condition. -/
theorem invariant_of_everyStep {as : List α}
    (hevery : EveryStep (fun s a => (M.step s a).1) condition s as)
    (step : ∀ s a, I s → condition s a → I (M.step s a).1) (hs : I s) : I (M.state s as) := by
  induction as generalizing s with
  | nil => exact hs
  | cons a as ih => exact ih hevery.2 (step s a hs hevery.1)

/-- Where an answer is good exactly if its step meets the condition, and a good answer keeps the
invariant, all answers of a run are good exactly if all its steps meet the condition. -/
theorem forall_trace_iff {good : ρ → Prop}
    (answer : ∀ s a, I s → (good (M.step s a).2 ↔ condition s a))
    (step : ∀ s a, I s → good (M.step s a).2 → I (M.step s a).1) (hs : I s) (as : List α) :
    (∀ e ∈ M.trace s as, good e.2) ↔
      EveryStep (fun s a => (M.step s a).1) condition s as := by
  induction as generalizing s with
  | nil => simp [EveryStep]
  | cons a as ih =>
    rw [trace_cons, List.forall_mem_cons]
    constructor
    · rintro ⟨hfirst, hrest⟩
      have hnext := step s a hs hfirst
      exact ⟨(answer s a hs).mp hfirst, (ih hnext).mp hrest⟩
    · rintro ⟨hfirst, hrest⟩
      have hgood := (answer s a hs).mpr hfirst
      have hnext := step s a hs hgood
      exact ⟨hgood, (ih hnext).mpr hrest⟩

/-- Events that each use up one of a stock that no step refills are no more than the stock. -/
theorem countP_trace_le (stock : σ → ℕ) {p : α × ρ → Bool}
    (step : ∀ s a, condition s a →
      (p (a, (M.step s a).2)).toNat + stock (M.step s a).1 ≤ stock s) {as : List α}
    (hevery : EveryStep (fun s a => (M.step s a).1) condition s as) :
    (M.trace s as).countP p ≤ stock s := by
  induction as generalizing s with
  | nil => exact Nat.zero_le _
  | cons a as ih =>
    have hstock := step s a hevery.1
    have hrest : (M.trace (M.step s a).1 as).countP p ≤ stock (M.step s a).1 := ih hevery.2
    cases hp : p (a, (M.step s a).2) with
    | false =>
      rw [hp, Bool.toNat_false] at hstock
      rw [trace_cons, List.countP_cons_of_neg (by simp [hp])]
      omega
    | true =>
      rw [hp, Bool.toNat_true] at hstock
      rw [trace_cons, List.countP_cons_of_pos hp]
      omega

end everyStep

/-- A state that no action moves is the state after every run. -/
theorem state_eq_self {s : σ} (fixed : ∀ a, (M.step s a).1 = s) (as : List α) :
    M.state s as = s :=
  invariant (I := fun t => t = s) (fun t a ht => by rw [ht]; exact fixed a) rfl as

/-- An event that leaves a lasting mark, and cannot happen once the mark is there,
happens at most once. -/
theorem countP_trace_le_one (marked : σ → Prop) {p : α × ρ → Bool}
    (step : ∀ s a, I s → I (M.step s a).1)
    (keep : ∀ s a, I s → marked s → marked (M.step s a).1)
    (mark : ∀ s a, I s → p (a, (M.step s a).2) = true → marked (M.step s a).1)
    (block : ∀ s a, I s → marked s → p (a, (M.step s a).2) = false)
    {s : σ} (hs : I s) (as : List α) : (M.trace s as).countP p ≤ 1 := by
  have never : ∀ (as : List α) (t : σ), I t → marked t → (M.trace t as).countP p = 0 := by
    intro as
    induction as with
    | nil => intro t _ _; rfl
    | cons a as ih =>
      intro t ht hm
      simp [block t a ht hm, ih _ (step t a ht) (keep t a ht hm)]
  induction as generalizing s with
  | nil => simp
  | cons a as ih =>
    by_cases hp : p (a, (M.step s a).2) = true
    · simp [hp, never as _ (step s a hs) (mark s a hs hp)]
    · simpa [hp] using ih (step s a hs)

/-- Values emitted above a measure that never falls, and that the measure then
reaches, are strictly increasing along every run. -/
theorem pairwise_lt_trace [Preorder β] (μ : σ → β) {f : α × ρ → Option β}
    (step : ∀ s a, I s → I (M.step s a).1)
    (mono : ∀ s a, I s → μ s ≤ μ (M.step s a).1)
    (emit : ∀ s a b, I s → f (a, (M.step s a).2) = some b → μ s < b ∧ b ≤ μ (M.step s a).1)
    {s : σ} (hs : I s) (as : List α) :
    ((M.trace s as).filterMap f).Pairwise (· < ·) ∧
      ∀ b ∈ (M.trace s as).filterMap f, μ s < b := by
  induction as generalizing s with
  | nil => simp
  | cons a as ih =>
    obtain ⟨hpair, hlow⟩ := ih (step s a hs)
    have hle := mono s a hs
    cases hf : f (a, (M.step s a).2) with
    | none => simpa [hf] using ⟨hpair, fun b c d hb hc => hle.trans_lt (hlow b (by
        simpa using ⟨c, d, hb, hc⟩))⟩
    | some b =>
      obtain ⟨hb, hb'⟩ := emit s a b hs hf
      simp only [trace_cons, List.filterMap_cons, hf, List.pairwise_cons, List.mem_cons]
      refine ⟨⟨fun c hc => hb'.trans_lt (hlow c hc), hpair⟩, ?_⟩
      rintro c (rfl | hc)
      · exact hb
      · exact hle.trans_lt (hlow c hc)

end Machine
end Omi.Foundation
