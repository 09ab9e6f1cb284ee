import PointLedger.Proofs.MemorySteps
import PointLedger.Proofs.Posting

/-!
Programs among others. A call holds at most one transaction, and its outcome is decided at one of
its steps: at that step the books change exactly as `Books.apply` says, and at no other step of
the call do they change at all. `Program.Ensures` states this for the rest of a program from any
point on, whatever other calls do in between, as long as they leave alone what the call holds: its
transaction and the rows of the accounts that it has locked.
-/

namespace PointLedger

/-- How much a call has drawn so far. -/
structure Draws where
  clock : Nat := 0
  fresh : Nat := 0
  random : Nat := 0
  deriving DecidableEq, Repr, Inhabited

/-- How far a call has come. -/
structure Progress where
  /-- The transaction that the call has started and not yet ended. -/
  tx : Option TxId := none
  /-- The result that the call will end with, once it is decided. -/
  outcome : Option (Except LedgerError Entry) := none

/-- The call has not been decided to succeed. -/
def Progress.Unposted (g : Progress) : Prop := ∀ entry, g.outcome ≠ some (.ok entry)

/-- What happens to the store between two steps of a call that holds the transaction `held`. -/
structure Undisturbed (c : Call) (held : Option TxId) (before after : Memory) : Prop where
  entries : before.books.entries <+: after.books.entries
  pool : after.books.hasPoolOf c.entryId = before.books.hasPoolOf c.entryId
  staged : ∀ tx t, held = some tx → before.tx? tx = some t → after.tx? tx = some t
  rows : ∀ tx t a, held = some tx → before.tx? tx = some t → a.lockKey ∈ t.locks →
    after.books.rows a = before.books.rows a

namespace Undisturbed

variable {c : Call} {held : Option TxId} {m m₁ m₂ : Memory}

theorem refl (c : Call) (held : Option TxId) (m : Memory) : Undisturbed c held m m :=
  ⟨List.prefix_rfl, rfl, fun _ _ _ live => live, fun _ _ _ _ _ _ => rfl⟩

/-- A store with the same books and the same live transactions. -/
theorem of_same (books : m₁.books = m.books) (live : m₁.live = m.live) :
    Undisturbed c held m m₁ where
  entries := books ▸ List.prefix_rfl
  pool := by rw [books]
  staged tx t _ held := (Memory.tx?_eq_of_live_eq live tx).trans held
  rows _ _ _ _ _ _ := by rw [books]

theorem trans (first : Undisturbed c held m m₁) (second : Undisturbed c held m₁ m₂) :
    Undisturbed c held m m₂ where
  entries := first.entries.trans second.entries
  pool := second.pool.trans first.pool
  staged tx t own live := second.staged tx t own (first.staged tx t own live)
  rows tx t a own live locked :=
    (second.rows tx t a own (first.staged tx t own live) locked).trans
      (first.rows tx t a own live locked)

end Undisturbed

/-- What one step of a call does to the books and to what is decided about the call. -/
inductive Effect (c : Call) (before after : Memory) (g g' : Progress) : Prop where
  | silent (books : after.books = before.books) (outcome : g'.outcome = g.outcome)
  /-- The call takes effect. It changes rows only under the lock of its account. -/
  | decided (result : Except LedgerError Entry) (pending : g.outcome = none)
      (outcome : g'.outcome = some result)
      (applied : before.books.apply c = (result, after.books))
      (locked : after.books = before.books ∨ ∃ tx t a, g.tx = some tx ∧ before.tx? tx = some t ∧
        before.books.target c = some a ∧ a.lockKey ∈ t.locks)

/-- One step of a call. -/
structure Moves (c : Call) (before after : Memory) (g g' : Progress) : Prop where
  /-- The transactions of others stay as they are. -/
  others : ∀ tx t, before.tx? tx = some t → g.tx ≠ some tx → after.tx? tx = some t
  live : ∀ tx t, after.tx? tx = some t →
    g'.tx = some tx ∨ (g.tx ≠ some tx ∧ before.tx? tx = some t)
  own : ∀ tx, g'.tx = some tx →
    (∃ t, after.tx? tx = some t) ∧ (g.tx = some tx ∨ before.tx? tx = none)
  effect : Effect c before after g g'

namespace Program

/-- From here on every step of the program is a step of the call, and it ends in `post`. With
`overdue` any request under the timer may be left without an answer. -/
def Ensures {α : Type} (c : Call) (overdue : Prop) (post : α → Draws → Memory → Progress → Prop) :
    Program α → Draws → Memory → Progress → Prop
  | .done value, d, m, g => ∀ m₁, Undisturbed c g.tx m m₁ → post value d m₁ g
  | .ask request next, d, m, g =>
    ∀ m₁, m₁.WellFormed → Undisturbed c g.tx m m₁ →
      ∀ answer m₂, m₁.perform request = (some answer, m₂) →
        ∃ g', Moves c m₁ m₂ g g' ∧ (next answer).Ensures c overdue post d m₂ g'
  | .askInTime request next, d, m, g =>
    ∀ m₁, m₁.WellFormed → Undisturbed c g.tx m m₁ →
      (∀ answer m₂, m₁.perform request = (some answer, m₂) →
        ∃ g', Moves c m₁ m₂ g g' ∧ (next (some answer)).Ensures c overdue post d m₂ g') ∧
      (overdue → (next none).Ensures c overdue post d m₁ g)
  | .startTimer _ next, d, m, g => next.Ensures c overdue post d m g
  | .clock next, d, m, g =>
    (next (c.source.clock d.clock)).Ensures c overdue post { d with clock := d.clock + 1 } m g
  | .fresh next, d, m, g =>
    (next (c.source.fresh d.fresh)).Ensures c overdue post { d with fresh := d.fresh + 1 } m g
  | .random next, d, m, g =>
    (next (c.source.random d.random)).Ensures c overdue post { d with random := d.random + 1 } m g
  | .report _ next, d, m, g =>
    ∀ m₁, m₁.WellFormed → Undisturbed c g.tx m m₁ →
      ∃ g', Moves c m₁ m₁ g g' ∧ next.Ensures c overdue post d m₁ g'

namespace Ensures

variable {α β ε : Type} {c : Call} {overdue : Prop} {d : Draws} {m m₁ : Memory} {g : Progress}
  {post post' : α → Draws → Memory → Progress → Prop}

/-- What others do in between breaks no promise. -/
theorem undisturbed {program : Program α} (ensured : program.Ensures c overdue post d m g)
    (same : Undisturbed c g.tx m m₁) : program.Ensures c overdue post d m₁ g := by
  induction program generalizing d with
  | done value => exact fun m₂ later => ensured m₂ (same.trans later)
  | ask request next ih => exact fun m₂ wf later => ensured m₂ wf (same.trans later)
  | askInTime request next ih => exact fun m₂ wf later => ensured m₂ wf (same.trans later)
  | startTimer limit next ih => exact ih ensured
  | clock next ih => exact ih _ ensured
  | fresh next ih => exact ih _ ensured
  | random next ih => exact ih _ ensured
  | report signal next ih => exact fun m₂ wf later => ensured m₂ wf (same.trans later)

theorem mono {program : Program α} (ensured : program.Ensures c overdue post d m g)
    (weaker : ∀ value d m g, post value d m g → post' value d m g) :
    program.Ensures c overdue post' d m g := by
  induction program generalizing d m g with
  | done value => exact fun m₁ same => weaker _ _ _ _ (ensured m₁ same)
  | ask request next ih =>
    intro m₁ wf same answer m₂ ran
    obtain ⟨g', moves, rest⟩ := ensured m₁ wf same answer m₂ ran
    exact ⟨g', moves, ih answer rest⟩
  | askInTime request next ih =>
    intro m₁ wf same
    obtain ⟨answered, late⟩ := ensured m₁ wf same
    refine ⟨fun answer m₂ ran => ?_, fun expired => ih none (late expired)⟩
    obtain ⟨g', moves, rest⟩ := answered answer m₂ ran
    exact ⟨g', moves, ih (some answer) rest⟩
  | startTimer limit next ih => exact ih ensured
  | clock next ih => exact ih _ ensured
  | fresh next ih => exact ih _ ensured
  | random next ih => exact ih _ ensured
  | report signal next ih =>
    intro m₁ wf same
    obtain ⟨g', moves, rest⟩ := ensured m₁ wf same
    exact ⟨g', moves, ih rest⟩

/-- One program after the other. -/
theorem bind {program : Program α} {next : α → Program β}
    {post : β → Draws → Memory → Progress → Prop}
    (ensured : program.Ensures c overdue
      (fun value d m g => (next value).Ensures c overdue post d m g) d m g) :
    (program.bind next).Ensures c overdue post d m g := by
  induction program generalizing d m g with
  | done value => exact ensured m (.refl c g.tx m)
  | ask request rest ih =>
    intro m₁ wf same answer m₂ ran
    obtain ⟨g', moves, later⟩ := ensured m₁ wf same answer m₂ ran
    exact ⟨g', moves, ih answer later⟩
  | askInTime request rest ih =>
    intro m₁ wf same
    obtain ⟨answered, late⟩ := ensured m₁ wf same
    refine ⟨fun answer m₂ ran => ?_, fun expired => ih none (late expired)⟩
    obtain ⟨g', moves, later⟩ := answered answer m₂ ran
    exact ⟨g', moves, ih (some answer) later⟩
  | startTimer limit rest ih => exact ih ensured
  | clock rest ih => exact ih _ ensured
  | fresh rest ih => exact ih _ ensured
  | random rest ih => exact ih _ ensured
  | report signal rest ih =>
    intro m₁ wf same
    obtain ⟨g', moves, later⟩ := ensured m₁ wf same
    exact ⟨g', moves, ih later⟩

end Ensures
end Program
end PointLedger
