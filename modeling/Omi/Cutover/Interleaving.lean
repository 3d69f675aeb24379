import Omi.Cutover.Coordinator
import Omi.Foundation.CompareAndSet
import Omi.Foundation.Runs

/-! Any number of operators whose operations read the record of one account and write it later:
what each write replaces, and what the records can become. -/
namespace Omi.Cutover
open Omi.Foundation

abbrev CutoverUpdate := Update (Option AccountCutoverRecord) Bool

/-- What an operation read, what stood there when it wrote, and what it wrote. -/
structure CutoverWrite where
  read : Versioned (Option AccountCutoverRecord)
  replaced : Versioned (Option AccountCutoverRecord)
  written : AccountCutoverRecord
deriving DecidableEq

/-- The document, the operations between read and write, every token so far, and the writes.
The ticket of an update is its `require_existing`. -/
structure CutoverWorld where
  store : Versioned (Option AccountCutoverRecord)
  updates : List CutoverUpdate := []
  tokens : List String := []
  log : List CutoverWrite := []

/-- An operation reads the record, with a token that it may mint; one of those on their way
goes on to its write. -/
inductive CutoverAction where
  | read (operation : Operation) (minted : String)
  | write (index : ℕ)

namespace CutoverWorld

/-- The update that an operation leaves behind its read. -/
def update (world : CutoverWorld) (operation : Operation) (next : AccountCutoverRecord)
    (requireExisting : Bool) : CutoverUpdate :=
  { seen := world.store
    next := some next
    minted := operation.chosenToken.isNone
    ticket := requireExisting }

/-- The tokens that are known once an operation has minted and taken its own. -/
def learn (world : CutoverWorld) (operation : Operation) (minted : String) : List String :=
  operation.chosenToken.toList ++ minted :: world.tokens

/-- A minted token is one that has not been there before. -/
def read (world : CutoverWorld) (operation : Operation) (minted : String) : CutoverWorld :=
  if minted ∈ world.tokens then world
  else match operation.plan (currentRecord world.store.value) minted with
    | .ok (.persist next requireExisting) =>
      { world with
        updates := world.updates ++ [world.update operation next requireExisting]
        tokens := world.learn operation minted }
    | _ => world

/-- The compare-and-set of an update, with what it expects taken from the record it read. -/
def cas (world : CutoverWorld) (update : CutoverUpdate) : Except String AccountCutoverRecord :=
  casSetAccountCutoverRecord world.store.value (currentRecord update.next)
    (currentRecord update.seen.value).accountGeneration
    (currentRecord update.seen.value).checkpointToken update.ticket

/-- The world after a write: the operation is over, also if it is refused. -/
def write (world : CutoverWorld) (index : ℕ) (update : CutoverUpdate) : CutoverWorld :=
  match world.cas update with
  | .ok written =>
    { world with
      store := ⟨some written, world.store.version + 1⟩
      updates := world.updates.eraseIdx index
      log := world.log ++ [⟨update.seen, world.store, written⟩] }
  | .error _ => { world with updates := world.updates.eraseIdx index }

def step (world : CutoverWorld) : CutoverAction → CutoverWorld
  | .read operation minted => world.read operation minted
  | .write index =>
    match world.updates[index]? with
    | some update => world.write index update
    | none => world

/-- The account as the first operator finds it: no document, or any one. -/
def start (document : Option AccountCutoverRecord) : CutoverWorld :=
  { store := ⟨document, 0⟩
    tokens := (generationAndToken document).2.toList }

/-- A write with a token that its caller chose, over the record that still matches, finds no
other operation on its way that read a record of that generation with that token. -/
def ChosenUnseen (world : CutoverWorld) : CutoverAction → Prop
  | .read _ _ => True
  | .write index => ∀ update, world.updates[index]? = some update → update.minted = false →
    generationAndToken update.seen.value = generationAndToken world.store.value →
    ∀ other ∈ world.updates.eraseIdx index,
      generationAndToken other.seen.value ≠ generationAndToken update.next

instance (world : CutoverWorld) (action : CutoverAction) : Decidable (world.ChosenUnseen action) :=
  match action with
  | .read _ _ => isTrue trivial
  | .write index => inferInstanceAs (Decidable
      (∀ update ∈ world.updates[index]?, update.minted = false →
        generationAndToken update.seen.value = generationAndToken world.store.value →
        ∀ other ∈ world.updates.eraseIdx index,
          generationAndToken other.seen.value ≠ generationAndToken update.next))

end CutoverWorld

/-! ### One step -/

/-- The tokens of a record are known. -/
def TokenKnown (tokens : List String) (document : Option AccountCutoverRecord) : Prop :=
  ∀ token, (generationAndToken document).2 = some token → token ∈ tokens

theorem TokenKnown.mono {tokens more : List String} {document : Option AccountCutoverRecord}
    (h : TokenKnown tokens document) (hsubset : tokens ⊆ more) : TokenKnown more document :=
  fun token htoken => hsubset (h token htoken)

/-- An update on its way: its tokens are known, and what it writes follows what it read. -/
structure UpdateSound (tokens : List String) (update : CutoverUpdate) : Prop where
  seen : TokenKnown tokens update.seen.value
  next : TokenKnown tokens update.next
  present : some (currentRecord update.next) = update.next
  advances : Advances (currentRecord update.seen.value) (currentRecord update.next)
  fenced : (currentRecord update.seen.value).Fenced → (currentRecord update.next).Fenced

namespace CutoverWorld

/-- What every run keeps. -/
structure Sound (world : CutoverWorld) : Prop where
  store : TokenKnown world.tokens world.store.value
  updates : ∀ update ∈ world.updates, UpdateSound world.tokens update
  log : ∀ write ∈ world.log,
    (currentRecord write.replaced.value).accountGeneration ≤ write.written.accountGeneration

/-- The document and the records read from it are fenced. -/
structure AllFenced (world : CutoverWorld) : Prop where
  store : (currentRecord world.store.value).Fenced
  updates : ∀ update ∈ world.updates, (currentRecord update.seen.value).Fenced

/-- What a run with unseen chosen tokens keeps beside. -/
structure Disciplined (world : CutoverWorld) : Prop where
  stamped : Stamped generationAndToken world.store world.updates
  log : ∀ write ∈ world.log,
    write.read = write.replaced ∧ Advances (currentRecord write.replaced.value) write.written

variable {world : CutoverWorld}

/-- What a read does: nothing, or one more update, which its plan explains. -/
theorem read_cases (world : CutoverWorld) (operation : Operation) (minted : String) :
    world.read operation minted = world ∨
      ∃ next required, minted ∉ world.tokens ∧
        Planned operation (currentRecord world.store.value) next minted ∧
        world.read operation minted = { world with
          updates := world.updates ++ [world.update operation next required]
          tokens := world.learn operation minted } := by
  unfold read
  by_cases hknown : minted ∈ world.tokens
  · rw [if_pos hknown]
    exact .inl rfl
  rw [if_neg hknown]
  cases hplan : operation.plan (currentRecord world.store.value) minted with
  | error code => exact .inl rfl
  | ok plan =>
    cases plan with
    | answer => exact .inl rfl
    | persist next required => exact .inr ⟨next, required, hknown, Operation.plan_ok hplan, rfl⟩

/-- What a write does: the update is over, and if it is not refused, its record stands over one
with the generation and the token that it read. -/
theorem write_cases (world : CutoverWorld) (index : ℕ) (update : CutoverUpdate) :
    world.write index update = { world with updates := world.updates.eraseIdx index } ∨
      (generationAndToken update.seen.value = generationAndToken world.store.value ∧
        world.write index update = { world with
          store := ⟨some (currentRecord update.next), world.store.version + 1⟩
          updates := world.updates.eraseIdx index
          log := world.log ++ [⟨update.seen, world.store, currentRecord update.next⟩] }) := by
  unfold write
  cases hcas : world.cas update with
  | error code => exact .inl rfl
  | ok written =>
    obtain ⟨rfl, hstamp⟩ := casSet_ok hcas
    exact .inr ⟨hstamp, rfl⟩

theorem subset_learn (operation : Operation) (minted : String) :
    world.tokens ⊆ world.learn operation minted := by
  intro token htoken
  simp [learn, htoken]

theorem mem_updates_read {operation : Operation} {next : AccountCutoverRecord} {required : Bool}
    {update : CutoverUpdate}
    (h : update ∈ world.updates ++ [world.update operation next required]) :
    update ∈ world.updates ∨ update = world.update operation next required := by
  rcases List.mem_append.mp h with hold | hnew
  · exact .inl hold
  · exact .inr (List.mem_singleton.mp hnew)

theorem Sound.read (h : world.Sound) (operation : Operation) (minted : String) :
    (world.read operation minted).Sound := by
  rcases world.read_cases operation minted with hsame | ⟨next, required, -, hplanned, hread⟩
  · rw [hsame]
    exact h
  rw [hread]
  have hmore := world.subset_learn operation minted
  refine ⟨h.store.mono hmore, ?_, h.log⟩
  intro update hupdate
  rcases mem_updates_read hupdate with hold | rfl
  · obtain ⟨hseen, hnext, hpresent, hadvances, hfenced⟩ := h.updates update hold
    exact ⟨hseen.mono hmore, hnext.mono hmore, hpresent, hadvances, hfenced⟩
  · refine ⟨h.store.mono hmore, ?_, rfl, hplanned.advances, hplanned.fenced⟩
    intro token htoken
    have hnext : next.checkpointToken = some token := htoken
    rw [hplanned.token] at hnext
    cases hchosen : operation.chosenToken with
    | none => simp_all [learn]
    | some chosen => simp_all [learn]

theorem Sound.write (h : world.Sound) {index : ℕ} {update : CutoverUpdate}
    (hget : world.updates[index]? = some update) : (world.write index update).Sound := by
  have hrest : world.updates.eraseIdx index ⊆ world.updates :=
    (List.eraseIdx_sublist _ _).subset
  have hsound := h.updates update (List.mem_of_getElem? hget)
  rcases world.write_cases index update with hrefused | ⟨hstamp, hwritten⟩
  · rw [hrefused]
    exact ⟨h.store, fun other hother => h.updates other (hrest hother), h.log⟩
  rw [hwritten]
  refine ⟨?_, fun other hother => h.updates other (hrest hother), ?_⟩
  · show TokenKnown world.tokens (some (currentRecord update.next))
    rw [hsound.present]
    exact hsound.next
  · intro write hwrite
    rcases List.mem_append.mp hwrite with hold | hnew
    · exact h.log write hold
    · rw [List.mem_singleton.mp hnew]
      have hgeneration : (currentRecord world.store.value).accountGeneration =
          (currentRecord update.seen.value).accountGeneration := by
        rw [← generationAndToken_fst, ← generationAndToken_fst, hstamp]
      exact hgeneration.trans_le hsound.advances.generation

theorem Sound.step (h : world.Sound) (action : CutoverAction) : (world.step action).Sound := by
  cases action with
  | read operation minted => exact h.read operation minted
  | write index =>
    simp only [CutoverWorld.step]
    cases hget : world.updates[index]? with
    | none => exact h
    | some update => exact h.write hget

theorem AllFenced.step (h : world.AllFenced) (hsound : world.Sound) (action : CutoverAction) :
    (world.step action).AllFenced := by
  cases action with
  | read operation minted =>
    simp only [CutoverWorld.step]
    rcases world.read_cases operation minted with hsame | ⟨next, required, -, -, hread⟩
    · rw [hsame]
      exact h
    rw [hread]
    refine ⟨h.store, fun update hupdate => ?_⟩
    rcases mem_updates_read hupdate with hold | rfl
    · exact h.updates update hold
    · exact h.store
  | write index =>
    simp only [CutoverWorld.step]
    cases hget : world.updates[index]? with
    | none => exact h
    | some update =>
      have hrest : world.updates.eraseIdx index ⊆ world.updates :=
        (List.eraseIdx_sublist _ _).subset
      have hmem := List.mem_of_getElem? hget
      show (world.write index update).AllFenced
      rcases world.write_cases index update with hrefused | ⟨-, hwritten⟩
      · rw [hrefused]
        exact ⟨h.store, fun other hother => h.updates other (hrest hother)⟩
      · rw [hwritten]
        refine ⟨?_, fun other hother => h.updates other (hrest hother)⟩
        exact (hsound.updates update hmem).fenced (h.updates update hmem)

/-- The token that an operation mints stands in no record that was read or stored. -/
theorem ne_of_minted {operation : Operation} {next : AccountCutoverRecord} {minted : String}
    {document : Option AccountCutoverRecord} (hknown : TokenKnown world.tokens document)
    (hminted : minted ∉ world.tokens)
    (hplanned : Planned operation (currentRecord world.store.value) next minted)
    (hchosen : operation.chosenToken.isNone = true) :
    generationAndToken document ≠ generationAndToken (some next) := by
  intro hsame
  have htoken : next.checkpointToken = some minted := by
    rw [hplanned.token, Option.isNone_iff_eq_none.mp hchosen]
    rfl
  refine hminted (hknown minted ?_)
  rw [hsame]
  exact htoken

theorem Disciplined.step (h : world.Disciplined) (hsound : world.Sound) (action : CutoverAction)
    (hchosen : world.ChosenUnseen action) : (world.step action).Disciplined := by
  cases action with
  | read operation minted =>
    simp only [CutoverWorld.step]
    rcases world.read_cases operation minted with hsame | ⟨next, required, hminted, hplanned, hread⟩
    · rw [hsame]
      exact h
    rw [hread]
    refine ⟨h.stamped.read rfl fun hmint => ⟨?_, fun other hother => ?_⟩, h.log⟩
    · exact ne_of_minted hsound.store hminted hplanned hmint
    · exact ne_of_minted (hsound.updates other hother).seen hminted hplanned hmint
  | write index =>
    simp only [CutoverWorld.step]
    cases hget : world.updates[index]? with
    | none => exact h
    | some update =>
      have hrest : world.updates.eraseIdx index ⊆ world.updates :=
        (List.eraseIdx_sublist _ _).subset
      have hmem := List.mem_of_getElem? hget
      have hupdate := hsound.updates update hmem
      show (world.write index update).Disciplined
      rcases world.write_cases index update with hrefused | ⟨hstamp, hwritten⟩
      · rw [hrefused]
        exact ⟨h.stamped.of_subset hrest, h.log⟩
      obtain ⟨hexact, hstamped⟩ := h.stamped.write hmem hstamp hrest fun hmint =>
        hchosen update hget hmint hstamp
      rw [hwritten]
      constructor
      · rw [hupdate.present]
        exact hstamped
      · intro write hwrite
        rcases List.mem_append.mp hwrite with hold | hnew
        · exact h.log write hold
        · rw [List.mem_singleton.mp hnew]
          refine ⟨hexact, ?_⟩
          rw [← hexact]
          exact hupdate.advances

theorem sound_start (document : Option AccountCutoverRecord) : (start document).Sound := by
  refine ⟨?_, by simp [start], by simp [start]⟩
  intro token htoken
  have htoken' : (generationAndToken document).2 = some token := htoken
  simp [start, htoken']

theorem sound_run (document : Option AccountCutoverRecord) (actions : List CutoverAction) :
    (actions.foldl step (start document)).Sound := by
  induction actions using List.reverseRecOn with
  | nil => exact sound_start document
  | append_singleton actions action ih =>
    rw [List.foldl_append]
    exact ih.step action

end CutoverWorld

open CutoverWorld

/-- In every run the generation does not decrease, and the quarantine of a fenced record stays.
In a run whose chosen tokens are unseen, each write replaces exactly the record that its
operation read, moves along the legal transitions, and raises the generation on every entry
into `migrating` and `new`. -/
theorem cutoverCas (document : Option AccountCutoverRecord) (actions : List CutoverAction) :
    let world := actions.foldl step (start document)
    (∀ write ∈ world.log,
      (currentRecord write.replaced.value).accountGeneration ≤ write.written.accountGeneration) ∧
    ((currentRecord document).Fenced → (currentRecord world.store.value).Fenced) ∧
    (EveryStep step ChosenUnseen (start document) actions → ∀ write ∈ world.log,
      write.read = write.replaced ∧ Advances (currentRecord write.replaced.value) write.written) := by
  intro world
  refine ⟨(sound_run document actions).log, fun hfenced => ?_, fun hunseen => ?_⟩
  · have hrun : ∀ actions : List CutoverAction, (actions.foldl step (start document)).AllFenced := by
      intro actions
      induction actions using List.reverseRecOn with
      | nil => exact ⟨hfenced, by simp [start]⟩
      | append_singleton actions action ih =>
        rw [List.foldl_append]
        exact ih.step (sound_run document actions) action
    exact (hrun actions).store
  · have hstart : (start document).Sound ∧ (start document).Disciplined :=
      ⟨sound_start document, Stamped.nil, by simp [start]⟩
    have hstep : ∀ (world : CutoverWorld) (action : CutoverAction),
        world.Sound ∧ world.Disciplined → world.ChosenUnseen action →
          (world.step action).Sound ∧ (world.step action).Disciplined :=
      fun world action h hcondition => ⟨h.1.step action, h.2.step h.1 action hcondition⟩
    exact (hunseen.invariant hstart hstep).2.log

/-- Two operators checkpoint a migration with tokens of their own, both from what they read with
the token `t0`: the second is refused. The migration is rolled back and begun again. -/
theorem cutoverCas_twoCheckpoints :
    let world := [CutoverAction.read (.begin true "cutover-u" "go") "t0", .write 0,
        .read (.checkpoint .offlineQueueFenced (some "t0") (some "fenced-a")) "t1",
        .read (.checkpoint .paused (some "t0") (some "paused-b")) "t2", .write 1, .write 0,
        .read (.rollbackLossy 1 true) "t3", .write 0,
        .read (.begin true "cutover-v" "again") "t4", .write 0].foldl step (start none)
    world.log.map (fun write => (write.written.checkpointToken, write.written.accountGeneration)) =
      [(some "t0", 1), (some "paused-b", 1), (some "t3", 1), (some "t4", 2)] ∧
    ∀ write ∈ world.log,
      write.read = write.replaced ∧ Advances (currentRecord write.replaced.value) write.written :=
  ⟨by decide +kernel, (cutoverCas none _).2.2 (by decide +kernel)⟩

/-- Two operators checkpoint a migration that both read with the token `t0`. One of them
chooses `t0` as the next token; the other then writes over its record. -/
theorem not_cutoverCas :
    ¬ ∀ write ∈ ([CutoverAction.read (.begin true "cutover-u" "go") "t0", .write 0,
        .read (.checkpoint .paused none none) "t1",
        .read (.checkpoint .failed none (some "t0")) "t2", .write 1, .write 0].foldl step
          (start none)).log, write.read = write.replaced := by
  decide +kernel

end Omi.Cutover
