import PointLedger.Proofs.MemorySteps

/-!
A store in memory in anyone's hands. Whoever holds handles makes any requests with any rows, in any
order, and drops handles. `Transaction.Becomes` lists once what a request does to what a transaction
holds, and `Memory.Evolves` what a step does to the store. From it comes the induction on which the
rules of the store rest: what holds of empty books, and of what each transaction holds over them, and
is broken neither by a request in a transaction nor by a commit, holds after any use.
-/

namespace PointLedger

/-- What someone does with a store. -/
inductive StoreStep where
  | request (request : Request)
  /-- The handle of a transaction is dropped. -/
  | drop (tx : TxId)
  deriving DecidableEq, Repr

namespace Memory

/-- The store after a step. A request for a lock that another transaction holds leaves everything
as it is, and may be made again. -/
def step (m : Memory) : StoreStep → Memory
  | .request request => (m.perform request).2
  | .drop tx => m.endTx tx

/-- The store after steps one after the other. -/
def steps (m : Memory) (steps : List StoreStep) : Memory := steps.foldl step m

theorem steps_append (m : Memory) (earlier later : List StoreStep) :
    m.steps (earlier ++ later) = (m.steps earlier).steps later := List.foldl_append

end Memory

/-! ### What a request does to a transaction -/

namespace Transaction

variable {b : Books} {t t' : Transaction} {tx : TxId}

/-- The ways in which a request changes what a transaction holds over the books. A row is staged
only under the lock of its account. -/
inductive Becomes (b : Books) (t : Transaction) : Request → Transaction → Prop where
  | locked (tx : TxId) (a : Account) :
      Becomes b t (.lockAccount tx a) { t with locks := t.locks ++ [a.lockKey] }
  | entry (tx : TxId) (e : Entry) (own : e.account.lockKey ∈ t.locks)
      (unstaged : t.entries.any (·.hasReference e.organizationId e.referenceId) = false)
      (uncommitted : b.hasReferenceOf e = false) :
      Becomes b t (.createEntry tx e) { t with entries := t.entries ++ [e] }
  | pool (tx : TxId) (p : CreditPool) (own : p.account.lockKey ∈ t.locks)
      (unstaged : ∀ q ∈ t.newPools, q.entryId ≠ p.entryId)
      (uncommitted : ∀ q ∈ b.pools, q.entryId ≠ p.entryId) :
      Becomes b t (.createPool tx p) { t with newPools := t.newPools ++ [p] }
  | newPool (tx : TxId) (p : CreditPool) (own : p.account.lockKey ∈ t.locks)
      (staged : ∃ q ∈ t.newPools, q.id = p.id) :
      Becomes b t (.updatePool tx p)
        { t with newPools := upsert (·.id == p.id) (fun _ => false) p t.newPools }
  | oldPool (tx : TxId) (p : CreditPool) (own : p.account.lockKey ∈ t.locks)
      (after : CreditPool → Bool) (committed : ∃ q ∈ b.pools, q.id = p.id) :
      Becomes b t (.updatePool tx p)
        { t with poolUpdates := upsert (·.id == p.id) after p t.poolUpdates }
  | balance (tx : TxId) (row : Balance) (own : row.account.lockKey ∈ t.locks)
      (uncommitted : ∀ old ∈ b.balances, old.account ≠ row.account) :
      Becomes b t (.createBalance tx row) { t with newBalances := putBalance t.newBalances row }
  | newBalance (tx : TxId) (row : Balance) (own : row.account.lockKey ∈ t.locks) :
      Becomes b t (.updateBalance tx row) { t with newBalances := putBalance t.newBalances row }
  | oldBalance (tx : TxId) (row : Balance) (own : row.account.lockKey ∈ t.locks)
      (committed : ∃ old ∈ b.balances, old.account = row.account) :
      Becomes b t (.updateBalance tx row)
        { t with balanceUpdates := putBalance t.balanceUpdates row }

theorem ensureLocked_eq_ok {a : Account} (locked : t.ensureLocked a = .ok ()) :
    a.lockKey ∈ t.locks := by
  unfold ensureLocked at locked
  split at locked
  · rename_i held
    exact List.contains_iff_mem.mp held
  · cases locked

theorem becomes_createEntry {e : Entry} (created : t.createEntry b e = .ok t') :
    t.Becomes b (.createEntry tx e) t' := by
  obtain ⟨_, locked, rest⟩ := eq_ok_of_bind created
  split at rest
  · cases rest
  · rename_i free
    rw [Bool.or_eq_true, not_or, Bool.not_eq_true, Bool.not_eq_true] at free
    cases rest
    exact .entry tx e (ensureLocked_eq_ok locked) free.1 free.2

theorem becomes_createPool {p : CreditPool} (created : t.createPool b p = .ok t') :
    t.Becomes b (.createPool tx p) t' := by
  obtain ⟨_, locked, rest⟩ := eq_ok_of_bind created
  split at rest
  · cases rest
  · rename_i free
    rw [Bool.or_eq_true, not_or, Bool.not_eq_true, Bool.not_eq_true] at free
    cases rest
    refine .pool tx p (ensureLocked_eq_ok locked) ?_ ?_
    · simpa using free.1
    · simpa using free.2

theorem becomes_updatePool {p : CreditPool} (updated : t.updatePool b p = .ok t') :
    t.Becomes b (.updatePool tx p) t' := by
  obtain ⟨_, locked, rest⟩ := eq_ok_of_bind updated
  have own := ensureLocked_eq_ok locked
  split at rest
  · rename_i staged
    cases rest
    exact .newPool tx p own (by simpa using staged)
  · split at rest
    · rename_i committed
      cases rest
      exact .oldPool tx p own _ (by simpa using committed)
    · cases rest

theorem becomes_createBalance {row : Balance} (created : t.createBalance b row = .ok t') :
    t.Becomes b (.createBalance tx row) t' := by
  obtain ⟨_, locked, rest⟩ := eq_ok_of_bind created
  split at rest
  · cases rest
  · rename_i free
    rw [Bool.or_eq_true, not_or, Bool.not_eq_true, Bool.not_eq_true] at free
    cases rest
    exact .balance tx row (ensureLocked_eq_ok locked) (by simpa using free.2)

theorem becomes_updateBalance {row : Balance} (updated : t.updateBalance b row = .ok t') :
    t.Becomes b (.updateBalance tx row) t' := by
  obtain ⟨_, locked, rest⟩ := eq_ok_of_bind updated
  have own := ensureLocked_eq_ok locked
  split at rest
  · cases rest
    exact .newBalance tx row own
  · split at rest
    · rename_i committed
      cases rest
      exact .oldBalance tx row own (by simpa using committed)
    · cases rest

end Transaction

/-! ### What a step does to a store -/

namespace Memory

/-- The ways in which a step changes a store, the table of known locks apart. -/
inductive Evolves (m : Memory) (s : StoreStep) (after : Memory) : Prop where
  | nothing (books : after.books = m.books) (live : after.live = m.live)
  | begun (same : after = (m.perform .beginTx).2)
  | changed (request : Request) (asked : s = .request request) (tx : TxId) (t t' : Transaction)
      (held : m.tx? tx = some t) (becomes : t.Becomes m.books request t')
      (books : after.books = m.books) (live : after.live = (m.setTx tx t').live)
  | ended (tx : TxId) (books : after.books = m.books) (live : after.live = (m.endTx tx).live)
  | committed (tx : TxId) (t : Transaction) (held : m.tx? tx = some t)
      (accepted : m.books.commit t = .ok after.books) (live : after.live = (m.endTx tx).live)

private theorem evolves_readIn {α : Type} {s : StoreStep} (m : Memory) (tx : TxId)
    (read : Transaction → Except StoreError α) : m.Evolves s (m.readIn tx read).2 := by
  unfold readIn
  split <;> exact .nothing rfl rfl

private theorem evolves_stage {request : Request} (m : Memory) (tx : TxId)
    {write : Transaction → Except StoreError Transaction}
    (becomes : ∀ t t', write t = .ok t' → t.Becomes m.books request t') :
    m.Evolves (.request request) (m.stage tx write).2 := by
  unfold stage
  split
  · exact .nothing rfl rfl
  · rename_i t held
    split
    · exact .nothing rfl rfl
    · rename_i t' written
      exact .changed request rfl tx t t' held (becomes t t' written) rfl rfl

private theorem evolves_lock (m : Memory) (tx : TxId) (a : Account) :
    m.Evolves (.request (.lockAccount tx a)) (m.lock tx a.lockKey).2 := by
  unfold lock
  split
  · exact .nothing rfl rfl
  · rename_i t held
    split
    · exact .nothing rfl rfl
    · dsimp only
      split
      · exact .nothing (by simp) (by simp)
      · exact .changed (.lockAccount tx a) rfl tx t _ held (.locked tx a) (by simp [setTx])
          (by simp [setTx])

/-- Every step changes a store in one of these ways. -/
theorem evolves_step (m : Memory) (s : StoreStep) : m.Evolves s (m.step s) := by
  cases s with
  | drop tx => exact .ended tx rfl rfl
  | request request =>
  simp only [step]
  cases request with
  | beginTx => exact .begun rfl
  | commit tx =>
    simp only [perform]
    split
    · exact .nothing rfl rfl
    · rename_i t held
      split
      · exact .ended tx rfl rfl
      · rename_i books committed
        exact .committed tx t held committed rfl
  | rollback tx =>
    simp only [perform]
    split
    · exact .nothing rfl rfl
    · exact .ended tx rfl rfl
  | lockAccount tx a => exact m.evolves_lock tx a
  | findEntries _ | countEntries _ | findEntry _ | findPools _ | findBalance _ =>
    exact .nothing rfl rfl
  | findEntryIn tx _ | lastEntry tx _ | openPools tx _ | balanceForUpdate tx _ =>
    exact m.evolves_readIn tx _
  | createEntry tx e => exact m.evolves_stage tx fun _ _ => Transaction.becomes_createEntry
  | createPool tx p => exact m.evolves_stage tx fun _ _ => Transaction.becomes_createPool
  | updatePool tx p => exact m.evolves_stage tx fun _ _ => Transaction.becomes_updatePool
  | createBalance tx row => exact m.evolves_stage tx fun _ _ => Transaction.becomes_createBalance
  | updateBalance tx row => exact m.evolves_stage tx fun _ _ => Transaction.becomes_updateBalance

theorem WellFormed.step {m : Memory} (wf : m.WellFormed) (s : StoreStep) :
    (m.step s).WellFormed := by
  cases s with
  | request request => exact (perform_changes rfl).wellFormed wf
  | drop tx => exact (m.changes_endTx tx).wellFormed wf

end Memory

/-! ### What no use of a store breaks -/

/-- Of the books, and of what each transaction holds over them, something is true that no step
breaks, as long as all requests are of this kind. -/
structure Upheld (kind : Request → Prop) (P : Books → Prop) (Q : Books → Transaction → Prop) :
    Prop where
  empty : P {}
  begun : ∀ b, P b → Q b {}
  staged : ∀ request, kind request → ∀ b t t', P b → Q b t → t.Becomes b request t' → Q b t'
  committed : ∀ b t b', P b → Q b t → b.commit t = .ok b' → P b'
  /-- A commit breaks nothing for another transaction, which holds other locks. -/
  others : ∀ b t b' u, P b → Q b t → Q b u → (∀ key ∈ t.locks, key ∉ u.locks) →
    b.commit t = .ok b' → Q b' u

namespace Upheld

variable {kind : Request → Prop} {P : Books → Prop} {Q : Books → Transaction → Prop} {m : Memory}

/-- It is true of the store and of every live transaction. -/
structure On (P : Books → Prop) (Q : Books → Transaction → Prop) (m : Memory) : Prop where
  wellFormed : m.WellFormed
  books : P m.books
  live : ∀ tx t, m.tx? tx = some t → Q m.books t

theorem step (upheld : Upheld kind P Q) (on : On P Q m) {s : StoreStep}
    (proper : ∀ request, s = .request request → kind request) : On P Q (m.step s) := by
  refine ⟨on.wellFormed.step s, ?_, ?_⟩
  · cases m.evolves_step s with
    | nothing books _ => exact books ▸ on.books
    | begun same => exact same ▸ on.books
    | changed _ _ _ _ _ _ _ books _ => exact books ▸ on.books
    | ended _ books _ => exact books ▸ on.books
    | committed tx t held accepted _ =>
      exact upheld.committed _ t _ on.books (on.live tx t held) accepted
  · intro tx u live
    cases m.evolves_step s with
    | nothing books same =>
      rw [Memory.tx?_eq_of_live_eq same] at live
      exact books ▸ on.live tx u live
    | begun same =>
      rw [same, Memory.tx?_perform_beginTx on.wellFormed] at live
      rw [same]
      split at live
      · cases live
        exact upheld.begun _ on.books
      · exact on.live tx u live
    | changed request asked own t t' held becomes books same =>
      rw [Memory.tx?_eq_of_live_eq same, Memory.tx?_setTx, held] at live
      rw [books]
      split at live
      · cases live
        exact upheld.staged request (proper request asked) _ t _ on.books (on.live own t held)
          becomes
      · exact on.live tx u live
    | ended own books same =>
      rw [Memory.tx?_eq_of_live_eq same, Memory.tx?_endTx] at live
      split at live
      · cases live
      · exact books ▸ on.live tx u live
    | committed own t held accepted same =>
      rw [Memory.tx?_eq_of_live_eq same, Memory.tx?_endTx] at live
      split at live
      · cases live
      · rename_i other
        exact upheld.others _ t _ u on.books (on.live own t held) (on.live tx u live)
          (on.wellFormed.exclusive own t tx u held live (Ne.symm other)) accepted

/-- It is true after any steps on an empty store. -/
theorem steps (upheld : Upheld kind P Q) (steps : List StoreStep)
    (proper : ∀ request, .request request ∈ steps → kind request) :
    On P Q (({} : Memory).steps steps) := by
  have run : ∀ m : Memory, On P Q m → On P Q (m.steps steps) := by
    induction steps with
    | nil => exact fun m on => on
    | cons first rest ih =>
      intro m on
      refine ih (fun request member => proper request (List.mem_cons_of_mem _ member)) _ ?_
      exact upheld.step on fun request same => proper request (same ▸ List.mem_cons_self)
  refine run {} ⟨⟨?_, ?_⟩, upheld.empty, ?_⟩
  · intro tx t held
    cases held
  · intro tx t tx' t' held
    cases held
  · intro tx t held
    cases held

end Upheld
end PointLedger
