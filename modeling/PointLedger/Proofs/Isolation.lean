import PointLedger.Engine.Inquiry
import PointLedger.Proofs.InterleavedChains

/-!
Histories that only grow, and accounts that leave each other alone. An inquiry makes requests that
read what is committed and no others, so it leaves the store as it is, in whatever way the store
answers. A call that succeeds appends one entry and changes no row of another account; since the new
entry comes last in time, what was listed of a chain stays the beginning of what is listed later.
Calls that take turns on one store do to its books what calls do one after the other.
-/

namespace PointLedger

/-! ### Operations that only read -/

/-- What an operation that only reads is asked for. -/
inductive Inquiry where
  | listing (config : EngineConfig) (query : EntryQuery)
  | entry (id : EntryId)
  | balance (account : Account)
  | verification (account : Account)
  | reconciliation (account : Account)

namespace Inquiry

/-- What an inquiry gives when it succeeds. -/
@[reducible] def Answer : Inquiry → Type
  | .listing _ _ => PageResponse Entry
  | .entry _ => Entry
  | .balance _ => BalanceSnapshot
  | .verification _ => ChainReport
  | .reconciliation _ => Reconciliation

/-- The program that an inquiry runs. -/
def program : (q : Inquiry) → Program (Except LedgerError q.Answer)
  | .listing config query => Ledger.listEntries config query
  | .entry id => Ledger.getEntry id
  | .balance account => Ledger.getBalance account
  | .verification account => Ledger.verifyChain account
  | .reconciliation account => Ledger.reconcile account

end Inquiry

/-- True for the requests that read what is committed. -/
def Request.readsCommitted : Request → Bool
  | .findEntries _ | .countEntries _ | .findEntry _ | .findPools _ | .findBalance _ => true
  | _ => false

theorem Memory.perform_of_readsCommitted {request : Request} (m : Memory)
    (reads : request.readsCommitted = true) : (m.perform request).2 = m := by
  cases request with
  | findEntries _ | countEntries _ | findEntry _ | findPools _ | findBalance _ => rfl
  | _ => cases reads

namespace World

variable {request : Request} (w : World)

/-- A world that answers a request to read in its own way leaves the store alone. -/
theorem memory_receive_of_readsCommitted (reads : request.readsCommitted = true) :
    (w.receive request).2.memory = w.memory := by
  have kept (w : World) : (w.dropEnded request).memory = w.memory := by
    cases request with
    | commit _ | rollback _ => cases reads
    | _ => rfl
  unfold receive
  rcases FaultRule.take w.faults request.name with ⟨act, faults⟩
  rcases act with _ | error | error | _ | millis
  · rfl
  · exact kept _
  · rfl
  · cases empty : request.emptyAnswer with
    | none => rfl
    | some answer => exact kept _
  · rfl

theorem memory_call_of_readsCommitted (reads : request.readsCommitted = true)
    (failure : Option StoreError) : (w.call request failure).2.memory = w.memory := by
  have same := w.memory.perform_of_readsCommitted reads
  have plain : request ≠ .beginTx := by
    rintro rfl
    cases reads
  unfold call
  rcases ran : w.memory.perform request with ⟨answer, after⟩
  rw [ran] at same
  rcases answer with _ | answer
  · exact same
  · rcases failure with _ | error
    · exact same
    · simp only [dropStarted]
      split
      · exact absurd rfl plain
      · exact same

theorem memory_answer_of_readsCommitted (reads : request.readsCommitted = true) :
    (w.answer request).2.memory = w.memory ∧ (w.answerInTime request).2.memory = w.memory := by
  have received := w.memory_receive_of_readsCommitted reads
  unfold answer answerInTime
  rcases taken : w.receive request with ⟨answer | ⟨delay, failure⟩, w'⟩
  · rw [taken] at received
    exact ⟨received, received⟩
  · rw [taken] at received
    have called := ({ w' with now := w'.now + delay } : World).memory_call_of_readsCommitted reads
      failure
    dsimp only
    rcases ran : ({ w' with now := w'.now + delay } : World).call request failure with
      ⟨answer, w''⟩
    rw [ran] at called
    have kept : w''.memory = w.memory := called.trans received
    refine ⟨?_, ?_⟩
    · cases answer <;> exact kept
    · split
      · exact received
      · cases answer <;> exact kept

end World

/-! ### Inquiries -/

namespace Program

/-- The program asks for what is committed and for nothing else. -/
def OnlyReads {α : Type} : Program α → Prop
  | .done _ => True
  | .ask request next => request.readsCommitted = true ∧ ∀ answer, (next answer).OnlyReads
  | .askInTime request next => request.readsCommitted = true ∧ ∀ answer, (next answer).OnlyReads
  | .startTimer _ next => next.OnlyReads
  | .clock next => ∀ time, (next time).OnlyReads
  | .fresh next => ∀ id, (next id).OnlyReads
  | .random next => ∀ bytes, (next bytes).OnlyReads
  | .report _ next => next.OnlyReads

namespace OnlyReads

variable {α β : Type}

theorem bind {program : Program α} {next : α → Program β} (reads : program.OnlyReads)
    (rest : ∀ value, (next value).OnlyReads) : (program.bind next).OnlyReads := by
  induction program with
  | done value => exact rest value
  | ask request next ih => exact ⟨reads.1, fun answer => ih answer (reads.2 answer)⟩
  | askInTime request next ih => exact ⟨reads.1, fun answer => ih answer (reads.2 answer)⟩
  | startTimer limit next ih => exact ih reads
  | clock next ih => exact fun time => ih time (reads time)
  | fresh next ih => exact fun id => ih id (reads id)
  | random next ih => exact fun bytes => ih bytes (reads bytes)
  | report signal next ih => exact ih reads

/-- Asking, and going on with what is answered. -/
theorem ask {request : Request} {next : request.Answer → Attempt β}
    (reads : request.readsCommitted = true) (rest : ∀ value, (next value).run.OnlyReads) :
    (Attempt.ask request >>= next).run.OnlyReads := by
  refine ⟨reads, fun answer => ?_⟩
  rcases answer with error | value
  · exact trivial
  · exact rest value

theorem observe {operation : Operation} {attempt : Attempt α} (reads : attempt.run.OnlyReads) :
    (Ledger.observe operation attempt).OnlyReads := by
  refine bind reads fun result => ?_
  cases result <;> exact trivial

/-- However the store answers, a program that only reads leaves it as it is. -/
theorem run {program : Program α} (reads : program.OnlyReads) (w : World) :
    (w.run program).2.memory = w.memory := by
  induction program generalizing w with
  | done value => rfl
  | ask request next ih =>
    exact (ih _ (reads.2 _) _).trans (w.memory_answer_of_readsCommitted reads.1).1
  | askInTime request next ih =>
    exact (ih _ (reads.2 _) _).trans (w.memory_answer_of_readsCommitted reads.1).2
  | startTimer limit next ih => exact ih reads (w.startTimer limit)
  | clock next ih => exact ih _ (reads _) w.clock.2
  | fresh next ih => exact ih _ (reads _) w.fresh.2
  | random next ih => exact ih _ (reads _) w.random.2
  | report signal next ih => exact ih reads (w.report signal)

end OnlyReads
end Program

theorem Inquiry.onlyReads_program (q : Inquiry) : q.program.OnlyReads := by
  cases q with
  | listing config query =>
    refine .observe ?_
    unfold Attempt.ofExcept
    cases validateQuery query with
    | error violation => exact trivial
    | ok _ => exact .ask rfl fun _ => .ask rfl fun _ => trivial
  | entry id =>
    refine .observe (.ask rfl fun found => ?_)
    cases found <;> exact trivial
  | balance account => exact .observe (.ask rfl fun _ => trivial)
  | verification account => exact .observe (.ask rfl fun _ => trivial)
  | reconciliation account =>
    exact .observe (.ask rfl fun _ => .ask rfl fun _ => .ask rfl fun _ => trivial)

/-! ### Runs of all operations -/

/-- What someone does with a ledger: makes a call that writes, or inquires. -/
inductive Action where
  | call (c : Call)
  | inquiry (source : Source) (q : Inquiry)

/-- The calls among some actions. -/
def Action.calls (actions : List Action) : List Call :=
  actions.filterMap fun
    | .call c => some c
    | .inquiry _ _ => none

namespace Memory

/-- The store after an action on it. -/
def act (m : Memory) : Action → Memory
  | .call c => (c.run m).2
  | .inquiry source q => (World.run { source, memory := m } q.program).2.memory

/-- The store after actions one after the other. -/
def attend (m : Memory) (actions : List Action) : Memory := actions.foldl act m

/-- Inquiries leave no trace in a run. -/
theorem attend_eq_serve (m : Memory) (actions : List Action) :
    m.attend actions = (m.serve (Action.calls actions)).2 := by
  induction actions generalizing m with
  | nil => rfl
  | cons first rest ih =>
    cases first with
    | call c => exact ih (c.run m).2
    | inquiry source q =>
      have same : m.act (.inquiry source q) = m := q.onlyReads_program.run { source, memory := m }
      rw [attend, List.foldl_cons, same]
      exact ih m

end Memory

namespace Books

variable {b : Books} {c : Call}

/-- One entry was appended. It belongs to the account that the call is about, and every row of every
other account is as it was. -/
def Extends (b : Books) (c : Call) (after : Books) : Prop :=
  ∃ e, b.target c = some e.account ∧ after.entries = b.entries ++ [e] ∧
    ∀ a, a ≠ e.account → after.rows a = b.rows a

/-- A call fails and changes nothing, or it succeeds and extends the books. -/
theorem apply_frame (distinct : (b.pools.map (·.id)).Nodup) (c : Call) :
    (∀ error, (b.apply c).1 = .error error → (b.apply c).2 = b) ∧
      ∀ result, (b.apply c).1 = .ok result → b.Extends c (b.apply c).2 := by
  cases posted : b.post c with
  | error refusal =>
    simp only [Books.apply, posted]
    exact ⟨fun _ _ => trivial, fun _ succeeded => by cases succeeded⟩
  | ok added =>
    obtain ⟨result, after⟩ := added
    obtain ⟨e, adds⟩ := posted_of_post distinct posted
    simp only [Books.apply, posted]
    exact ⟨fun _ failed => (by cases failed),
      fun _ _ => ⟨e, adds.target, adds.entries, adds.others⟩⟩

theorem entries_apply (b : Books) (c : Call) : b.entries <+: (b.apply c).2.entries := by
  cases posted : b.post c with
  | error refusal => simp [Books.apply, posted]
  | ok added =>
    obtain ⟨result, after⟩ := added
    obtain ⟨e, -, entries, -⟩ := continues_of_post posted
    simp [Books.apply, posted, entries]

/-- Calls append to what was there, and so do more calls to what fewer of them leave. -/
theorem entries_applyAll (b : Books) {earlier calls : List Call} (before : earlier <+: calls) :
    (b.applyAll earlier).2.entries <+: (b.applyAll calls).2.entries := by
  obtain ⟨later, rfl⟩ := before
  induction earlier generalizing b with
  | cons c earlier ih => exact ih (b.apply c).2
  | nil =>
    induction later generalizing b with
    | nil => exact List.prefix_rfl
    | cons c later ih => exact (b.entries_apply c).trans (ih (b.apply c).2)

end Books

namespace Memory

theorem ClockInRange.of_prefix {m : Memory} {earlier calls : List Call}
    (fits : m.ClockInRange calls) (before : earlier <+: calls) : m.ClockInRange earlier := by
  induction earlier generalizing m calls with
  | nil => exact trivial
  | cons c earlier ih =>
    obtain ⟨later, rfl⟩ := before
    exact ⟨fits.1, ih fits.2 ⟨later, rfl⟩⟩

/-- What was listed of a chain is the beginning of what is listed later. -/
theorem findEntries_chain_of_prefix {earlier calls : List Call} (before : earlier <+: calls)
    (fits : ({} : Memory).ClockInRange calls) (a : Account) :
    (({} : Memory).serve earlier).2.books.findEntries (.chain a) <+:
      (({} : Memory).serve calls).2.books.findEntries (.chain a) := by
  have listed {calls : List Call} (fits : ({} : Memory).ClockInRange calls) :
      (({} : Memory).serve calls).2.books.findEntries (.chain a) =
        (Books.applyAll {} calls).2.entries.filter (·.account == a) := by
    rw [Books.findEntries_chain (chained_of_serve atRest_empty (fun _ => chained_nil) fits a),
      (serve_eq_applyAll atRest_empty calls).2.1]
    rfl
  rw [listed fits, listed (fits.of_prefix before)]
  exact (Books.entries_applyAll {} before).filter _

/-- What actions on an empty store have come to, and what the next one may do. -/
structure OnlyGrows (actions : List Action) (m : Memory) : Prop where
  /-- An inquiry changes nothing, whatever answers it gets. -/
  inquiry : ∀ (w : World) (q : Inquiry), w.memory = m → (w.run q.program).2.memory = m
  /-- A call that fails changes nothing in the books. -/
  refused : ∀ (c : Call) error, (c.run m).1 = .error error → (c.run m).2.books = m.books
  /-- A call that succeeds appends one entry and changes no row of another account. -/
  extended : ∀ (c : Call) result, (c.run m).1 = .ok result → m.books.Extends c (c.run m).2.books
  /-- What was listed of a chain at an earlier time is the beginning of what is listed now. -/
  listed : ({} : Memory).ClockInRange (Action.calls actions) → ∀ earlier, earlier <+: actions →
    ∀ a, (({} : Memory).attend earlier).books.findEntries (.chain a) <+:
      m.books.findEntries (.chain a)

theorem onlyGrows_attend {actions : List Action}
    (apart : (Action.calls actions).Pairwise Call.Apart) :
    OnlyGrows actions (({} : Memory).attend actions) := by
  obtain ⟨-, books, rest⟩ := serve_eq_applyAll atRest_empty (Action.calls actions)
  have distinct : ((({} : Memory).attend actions).books.pools.map (·.id)).Nodup := by
    rw [attend_eq_serve, books]
    exact (Books.sourced_applyAll apart).distinct apart
  have atRest : (({} : Memory).attend actions).AtRest := attend_eq_serve {} actions ▸ rest
  constructor
  · intro w q here
    exact (q.onlyReads_program.run w).trans here
  · intro c error failed
    obtain ⟨result, after, -⟩ := c.run_eq_apply atRest
    exact after.trans ((Books.apply_frame distinct c).1 error (result ▸ failed))
  · intro c value succeeded
    obtain ⟨result, after, -⟩ := c.run_eq_apply atRest
    rw [after]
    exact (Books.apply_frame distinct c).2 value (result ▸ succeeded)
  · intro fits earlier before a
    rw [attend_eq_serve, attend_eq_serve]
    exact findEntries_chain_of_prefix (before.filterMap _) fits a

end Memory

/-! ### Calls that take turns -/

namespace Concurrent

variable {ι : Type} [DecidableEq ι] {calls : ι → Call}

theorem ClockInRange.of_append {s : Concurrent ι} {earlier later : List ι}
    (fits : s.ClockInRange calls (earlier ++ later)) : s.ClockInRange calls earlier := by
  induction earlier generalizing s with
  | nil => exact trivial
  | cons i earlier ih => exact ⟨fits.1, ih fits.2⟩

/-- What calls that take turns on an empty store have come to, and what the next turn may do. -/
structure OnlyGrows (calls : ι → Call) (schedule : List ι) : Prop where
  /-- A turn changes nothing in the books, or it appends an entry for the call whose turn it is and
  changes no row of another account. -/
  extended : ∀ i, ((run calls schedule).turn calls i).memory.books =
      (run calls schedule).memory.books ∨
    (run calls schedule).memory.books.Extends (calls i)
      ((run calls schedule).turn calls i).memory.books
  /-- What was listed of a chain at an earlier time is the beginning of what is listed now. -/
  listed : ({} : Concurrent ι).ClockInRange calls schedule → ∀ earlier, earlier <+: schedule →
    ∀ a, (run calls earlier).memory.books.findEntries (.chain a) <+:
      (run calls schedule).memory.books.findEntries (.chain a)

theorem onlyGrows_run (apart : ∀ i j, i ≠ j → (calls i).Apart (calls j)) (schedule : List ι) :
    OnlyGrows calls schedule := by
  obtain ⟨order, g, explains, before⟩ := exists_explains apart schedule
  constructor
  · intro i
    obtain ⟨-, books⟩ := explains.books_turn apart i
    rcases books with same | posted
    · exact .inl same
    · have frame := Books.apply_frame (explains.ordered.distinct apart) (calls i)
      rw [posted]
      cases result : ((run calls schedule).memory.books.apply (calls i)).1 with
      | error error => exact .inl (frame.1 error result)
      | ok value => exact .inr (frame.2 value result)
  · rintro fits earlier begun a
    obtain ⟨order₀, g₀, explains₀, sooner⟩ := before earlier begun
    have grown : (run calls earlier).memory.books.entries <+:
        (run calls schedule).memory.books.entries := by
      rw [← explains₀.ordered.books, ← explains.ordered.books]
      exact Books.entries_applyAll {} (sooner.map calls)
    obtain ⟨later, rfl⟩ := begun
    rw [Books.findEntries_chain (chained apart earlier fits.of_append a),
      Books.findEntries_chain (chained apart (earlier ++ later) fits a)]
    exact grown.filter _

end Concurrent

/-! ### The history -/

/-- Whatever is done on an empty store, calls and inquiries one after the other or calls in turns,
its history only grows, and accounts leave each other alone. -/
theorem Memory.history_only_grows (actions : List Action)
    (apart : (Action.calls actions).Pairwise Call.Apart) :
    OnlyGrows actions (({} : Memory).attend actions) ∧
      ∀ schedule, Concurrent.OnlyGrows (Action.calls actions).get schedule := by
  refine ⟨onlyGrows_attend apart, Concurrent.onlyGrows_run fun i j different => ?_⟩
  have ordered := List.pairwise_iff_get.mp apart
  rcases Nat.lt_or_gt_of_ne (Fin.val_ne_of_ne different) with before | after
  · exact ordered i j before
  · exact fun k l => (ordered j i after l k).symm

/-- Ann's account before and after a debit, with a credit of Bob's and an inquiry in between. -/
theorem Memory.history_only_grows_two_accounts :
    let credit (n : Nat) (user reference : String) := Call.numbered n
      (.add ⟨"acme", user, .credit, ⟨10, by decide⟩, reference, "", []⟩)
    let debit (n : Nat) (reference : String) := Call.numbered n
      (.add ⟨"acme", "ann", .debit, ⟨4, by decide⟩, reference, "", []⟩)
    let earlier : List Action := [.call (credit 0 "ann" "first"), .call (credit 1 "bob" "second")]
    let actions := earlier ++ [.inquiry (credit 2 "ann" "").source (.balance ⟨"acme", "ann"⟩),
      .call (debit 2 "third")]
    let m := ({} : Memory).attend actions
    (({} : Memory).ClockInRange (Action.calls actions) ∧
      ((debit 3 "fourth").run m).1.isOk = true ∧ ((debit 3 "first").run m).1.isOk = false ∧
      (m.books.rows ⟨"acme", "ann"⟩).entries.length = 2 ∧
      ((({} : Memory).attend earlier).books.rows ⟨"acme", "ann"⟩).entries.length = 1) ∧
    OnlyGrows actions m ∧ ∀ schedule, Concurrent.OnlyGrows (Action.calls actions).get schedule := by
  intro credit debit earlier actions m
  have fits : ({} : Memory).ClockInRange (Action.calls actions) := by decide +kernel
  have apart : (Action.calls actions).Pairwise Call.Apart := by
    simp [Action.calls, actions, earlier, credit, debit, Call.numbered_apart]
  exact ⟨⟨fits, by decide +kernel, by decide +kernel, by decide +kernel, by decide +kernel⟩,
    history_only_grows actions apart⟩

end PointLedger
