import PointLedger.Proofs.Outcome
import PointLedger.Store.Memory

/-!
What one request does to a store in memory. `perform_changes` lists it once for all requests; the
facts about other transactions, about locks and about the books are read off that list. In a
well-formed store the live transactions have distinct handles below the next one, and no two of them
hold the same lock; every request keeps it well-formed.
-/

namespace PointLedger

/-- True for the request for a lock. -/
def Request.isLock : Request → Bool
  | .lockAccount _ _ => true
  | _ => false

namespace Memory

/-! ### The live transactions -/

private theorem lookup_replace (tx tx' : TxId) (t : Transaction)
    (live : List (TxId × Transaction)) :
    List.lookup tx' (live.map fun row => if row.1 == tx then (tx, t) else row) =
      if tx' = tx then (List.lookup tx live).map fun _ => t else List.lookup tx' live := by
  induction live with
  | nil => simp
  | cons row rest ih =>
    obtain ⟨handle, held⟩ := row
    by_cases asked : tx' = handle
    · subst asked
      by_cases same : tx' = tx <;> simp [same]
    · have missed : (tx' == handle) = false := by simpa using asked
      by_cases same : handle = tx
      · subst same
        simpa [List.lookup_cons, missed, asked] using ih
      · by_cases own : tx' = tx
        · subst own
          simpa [List.lookup_cons, missed, same] using ih
        · simpa [List.lookup_cons, missed, same, own] using ih

private theorem lookup_drop (tx tx' : TxId) (live : List (TxId × Transaction)) :
    List.lookup tx' (live.filter fun row => !(row.1 == tx)) =
      if tx' = tx then none else List.lookup tx' live := by
  induction live with
  | nil => simp
  | cons row rest ih =>
    obtain ⟨handle, held⟩ := row
    by_cases asked : tx' = handle
    · subst asked
      by_cases same : tx' = tx
      · simpa [same] using ih
      · simp [same]
    · have missed : (tx' == handle) = false := by simpa using asked
      by_cases same : handle = tx
      · subst same
        simpa [List.lookup_cons, missed, asked] using ih
      · simpa [List.lookup_cons, missed, same] using ih

theorem tx?_setTx (m : Memory) (tx tx' : TxId) (t : Transaction) :
    (m.setTx tx t).tx? tx' = if tx' = tx then (m.tx? tx).map fun _ => t else m.tx? tx' :=
  lookup_replace tx tx' t m.live

theorem tx?_endTx (m : Memory) (tx tx' : TxId) :
    (m.endTx tx).tx? tx' = if tx' = tx then none else m.tx? tx' :=
  lookup_drop tx tx' m.live

theorem tx?_eq_of_live_eq {m m' : Memory} (live : m'.live = m.live) (tx : TxId) :
    m'.tx? tx = m.tx? tx := by
  rw [tx?, tx?, live]

theorem mem_live_of_tx? {m : Memory} {tx : TxId} {t : Transaction} (held : m.tx? tx = some t) :
    (tx, t) ∈ m.live := by
  obtain ⟨before, after, split, -⟩ := List.lookup_eq_some_iff.mp held
  rw [split]
  simp

theorem exists_tx?_of_mem_live {m : Memory} {row : TxId × Transaction} (member : row ∈ m.live) :
    ∃ t, m.tx? row.1 = some t := by
  cases found : m.tx? row.1 with
  | some t => exact ⟨t, rfl⟩
  | none =>
    have absent := List.lookup_eq_none_iff.mp found row member
    simp at absent

/-- A live transaction has taken the lock with a key. -/
def Holds (m : Memory) (tx : TxId) (key : String) : Prop :=
  ∃ t, (tx, t) ∈ m.live ∧ key ∈ t.locks

instance (m : Memory) (tx : TxId) (key : String) : Decidable (m.Holds tx key) :=
  decidable_of_iff (∃ row ∈ m.live, row.1 = tx ∧ key ∈ row.2.locks)
    ⟨fun ⟨row, live, own, taken⟩ => ⟨row.2, own ▸ live, taken⟩,
      fun ⟨t, live, taken⟩ => ⟨(tx, t), live, rfl, taken⟩⟩

/-- A lock that no other transaction holds is in the locks of none of them. -/
theorem not_mem_locks_of_free {m : Memory} {tx tx' : TxId} {t' : Transaction} {key : String}
    (free : m.isHeldByOther tx key = false) (held : m.tx? tx' = some t') (other : tx' ≠ tx) :
    key ∉ t'.locks := by
  have none := List.any_eq_false.mp free (tx', t') (mem_live_of_tx? held)
  simpa [other] using none

@[simp] theorem books_knowLock (m : Memory) (key : String) : (m.knowLock key).books = m.books := by
  unfold knowLock; split <;> rfl

@[simp] theorem live_knowLock (m : Memory) (key : String) : (m.knowLock key).live = m.live := by
  unfold knowLock; split <;> rfl

@[simp] theorem started_knowLock (m : Memory) (key : String) :
    (m.knowLock key).started = m.started := by
  unfold knowLock; split <;> rfl

@[simp] theorem isHeldByOther_knowLock (m : Memory) (tx : TxId) (key key' : String) :
    (m.knowLock key).isHeldByOther tx key' = m.isHeldByOther tx key' := by
  simp [isHeldByOther]

/-! ### What one request does -/

/-- The ways in which a request changes a store; the table of known locks may grow besides. -/
inductive Changes (m : Memory) (request : Request) (after : Memory) : Prop where
  | nothing (books : after.books = m.books) (live : after.live = m.live)
      (started : after.started = m.started)
  | begun (asked : request = .beginTx) (books : after.books = m.books)
      (live : after.live = m.live ++ [(⟨m.started⟩, ({} : Transaction))])
      (started : after.started = m.started + 1)
  /-- A transaction stages a row or takes a lock that is free. -/
  | rewritten (tx : TxId) (t t' : Transaction) (named : request.tx? = some tx)
      (held : m.tx? tx = some t)
      (locks : t'.locks = t.locks ∨
        ∃ key, t'.locks = t.locks ++ [key] ∧ m.isHeldByOther tx key = false)
      (books : after.books = m.books) (live : after.live = (m.setTx tx t').live)
      (started : after.started = m.started)
  | ended (tx : TxId) (named : request.tx? = some tx) (live : after.live = (m.endTx tx).live)
      (started : after.started = m.started)
      (books : after.books = m.books ∨
        ∃ t, request = .commit tx ∧ m.tx? tx = some t ∧ m.books.commit t = .ok after.books)

private theorem readIn_changes {α : Type} {m after : Memory} {tx : TxId} {request : Request}
    {read : Transaction → Except StoreError α} {answer : Option (Except StoreError α)}
    (ran : m.readIn tx read = (answer, after)) : m.Changes request after := by
  unfold readIn at ran
  split at ran <;> cases ran <;> exact .nothing rfl rfl rfl

private theorem stage_changes {m after : Memory} {tx : TxId} {request : Request}
    {write : Transaction → Except StoreError Transaction} {answer : Option (Except StoreError Unit)}
    (named : request.tx? = some tx)
    (keeps : ∀ t t', write t = .ok t' → t'.locks = t.locks)
    (ran : m.stage tx write = (answer, after)) : m.Changes request after := by
  unfold stage at ran
  split at ran
  · cases ran; exact .nothing rfl rfl rfl
  · rename_i t held
    split at ran
    · cases ran; exact .nothing rfl rfl rfl
    · rename_i t' written
      cases ran
      exact .rewritten tx t t' named held (.inl (keeps t t' written)) rfl rfl rfl

private theorem lock_changes {m after : Memory} {tx : TxId} {account : Account}
    {answer : Option (Except StoreError Unit)}
    (ran : m.lock tx account.lockKey = (answer, after)) :
    m.Changes (.lockAccount tx account) after := by
  unfold lock at ran
  split at ran
  · cases ran; exact .nothing rfl rfl rfl
  · rename_i t held
    split at ran
    · cases ran; exact .nothing rfl rfl rfl
    · dsimp only at ran
      split at ran
      · cases ran; exact .nothing (by simp) (by simp) (by simp)
      · rename_i free
        cases ran
        refine .rewritten tx t { t with locks := t.locks ++ [account.lockKey] } rfl held
          (.inr ⟨_, rfl, by simpa using free⟩) ?_ ?_ ?_ <;> simp [setTx]

/-- Staging a row takes no lock. -/
private theorem locks_of_staged (t : Transaction) (b : Books) :
    (∀ e t', t.createEntry b e = .ok t' → t'.locks = t.locks) ∧
    (∀ p t', t.createPool b p = .ok t' → t'.locks = t.locks) ∧
    (∀ p t', t.updatePool b p = .ok t' → t'.locks = t.locks) ∧
    (∀ row t', t.createBalance b row = .ok t' → t'.locks = t.locks) ∧
    (∀ row t', t.updateBalance b row = .ok t' → t'.locks = t.locks) := by
  refine ⟨?_, ?_, ?_, ?_, ?_⟩ <;> intro row t' ran
  all_goals
    simp only [Transaction.createEntry, Transaction.createPool, Transaction.updatePool,
      Transaction.createBalance, Transaction.updateBalance, Transaction.ensureLocked, error_bind,
      pure_eq_ok, throw_eq_error] at ran
    repeat' split at ran
    all_goals cases ran
    all_goals rfl

/-- Every request changes a store in one of the four ways. -/
theorem perform_changes {m after : Memory} {request : Request}
    {answer : Option (Except StoreError request.Answer)}
    (ran : m.perform request = (answer, after)) : m.Changes request after := by
  have staged := fun t => locks_of_staged t m.books
  cases request with
  | beginTx => cases ran; exact .begun rfl rfl rfl rfl
  | commit tx =>
    simp only [perform] at ran
    split at ran
    · cases ran; exact .nothing rfl rfl rfl
    · rename_i t held
      split at ran
      · cases ran; exact .ended tx rfl rfl rfl (.inl rfl)
      · rename_i books committed
        cases ran; exact .ended tx rfl rfl rfl (.inr ⟨t, rfl, held, committed⟩)
  | rollback tx =>
    simp only [perform] at ran
    split at ran
    · cases ran; exact .nothing rfl rfl rfl
    · cases ran; exact .ended tx rfl rfl rfl (.inl rfl)
  | lockAccount tx account => exact lock_changes ran
  | findEntries _ | countEntries _ | findEntry _ | findPools _ | findBalance _ =>
    cases ran; exact .nothing rfl rfl rfl
  | findEntryIn _ _ | lastEntry _ _ | openPools _ _ | balanceForUpdate _ _ =>
    exact readIn_changes ran
  | createEntry tx e => exact stage_changes rfl (fun t => (staged t).1 e) ran
  | createPool tx p => exact stage_changes rfl (fun t => (staged t).2.1 p) ran
  | updatePool tx p => exact stage_changes rfl (fun t => (staged t).2.2.1 p) ran
  | createBalance tx row => exact stage_changes rfl (fun t => (staged t).2.2.2.1 row) ran
  | updateBalance tx row => exact stage_changes rfl (fun t => (staged t).2.2.2.2 row) ran

/-- Ending a transaction is one of the ways in which a rollback changes a store. -/
theorem changes_endTx (m : Memory) (tx : TxId) : m.Changes (.rollback tx) (m.endTx tx) :=
  .ended tx rfl rfl rfl (.inl rfl)

/-! ### Well-formed stores -/

/-- The live transactions have been started by the store, and no two of them hold the same lock. -/
structure WellFormed (m : Memory) : Prop where
  numbered : ∀ tx t, m.tx? tx = some t → tx.number < m.started
  exclusive : ∀ tx t tx' t', m.tx? tx = some t → m.tx? tx' = some t' → tx ≠ tx' →
    ∀ key ∈ t.locks, key ∉ t'.locks

theorem WellFormed.tx?_next {m : Memory} (wf : m.WellFormed) : m.tx? ⟨m.started⟩ = none := by
  cases found : m.tx? ⟨m.started⟩ with
  | none => rfl
  | some t => exact absurd (wf.numbered _ t found) (Nat.lt_irrefl _)

private theorem tx?_of_begun {m after : Memory} (wf : m.WellFormed)
    (live : after.live = m.live ++ [(⟨m.started⟩, ({} : Transaction))]) (tx : TxId) :
    after.tx? tx = if tx = ⟨m.started⟩ then some {} else m.tx? tx := by
  have next : List.lookup ⟨m.started⟩ m.live = none := wf.tx?_next
  by_cases new : tx = ⟨m.started⟩
  · subst new
    simp [tx?, live, List.lookup_append, next]
  · have missed : (tx == ⟨m.started⟩) = false := by simpa using new
    simp [tx?, live, List.lookup_append, List.lookup_cons, missed, new]

/-- What is live after a request, in terms of what was live before it. -/
theorem Changes.tx? {m after : Memory} {request : Request} (changes : m.Changes request after)
    (wf : m.WellFormed) :
    (∀ tx t, m.tx? tx = some t → request.tx? ≠ some tx → after.tx? tx = some t) ∧
    (∀ tx t, after.tx? tx = some t → request.tx? = some tx ∨ m.tx? tx = some t ∨
      (request = .beginTx ∧ tx = ⟨m.started⟩)) := by
  cases changes with
  | nothing books live started =>
    have same := tx?_eq_of_live_eq live
    exact ⟨fun tx t held _ => (same tx).trans held, fun tx t held => .inr (.inl (same tx ▸ held))⟩
  | begun asked books live started =>
    have found := tx?_of_begun wf live
    constructor
    · intro tx t held _
      have old : tx ≠ ⟨m.started⟩ := by rintro rfl; rw [wf.tx?_next] at held; cases held
      rw [found, if_neg old, held]
    · intro tx t held
      rw [found] at held
      split at held
      · exact .inr (.inr ⟨asked, ‹_›⟩)
      · exact .inr (.inl held)
  | rewritten own t t' named held locks books live started =>
    have found : ∀ tx, after.tx? tx = if tx = own then (m.tx? own).map fun _ => t' else m.tx? tx :=
      fun tx => (tx?_eq_of_live_eq live tx).trans (tx?_setTx m own tx t')
    constructor
    · intro tx u held other
      have : tx ≠ own := fun same => other (same ▸ named)
      rw [found, if_neg this, held]
    · intro tx u held
      rw [found] at held
      split at held
      · rename_i same; exact .inl (same ▸ named)
      · exact .inr (.inl held)
  | ended own named live started books =>
    have found : ∀ tx, after.tx? tx = if tx = own then none else m.tx? tx :=
      fun tx => (tx?_eq_of_live_eq live tx).trans (tx?_endTx m own tx)
    constructor
    · intro tx u held other
      have : tx ≠ own := fun same => other (same ▸ named)
      rw [found, if_neg this, held]
    · intro tx u held
      rw [found] at held
      split at held
      · cases held
      · exact .inr (.inl held)

private theorem exclusive_of_rewritten {m : Memory} {own : TxId} {t t' : Transaction}
    (wf : m.WellFormed) (held : m.tx? own = some t)
    (locks : t'.locks = t.locks ∨
      ∃ key, t'.locks = t.locks ++ [key] ∧ m.isHeldByOther own key = false)
    {tx : TxId} {u : Transaction} (other : tx ≠ own) (live : m.tx? tx = some u) :
    ∀ key ∈ t'.locks, key ∉ u.locks := by
  have before := wf.exclusive own t tx u held live (Ne.symm other)
  rcases locks with same | ⟨new, grown, free⟩
  · exact same ▸ before
  · intro key member
    rw [grown] at member
    rcases List.mem_append.mp member with old | added
    · exact before key old
    · rw [List.mem_singleton.mp added]
      exact not_mem_locks_of_free free live other

/-- A request that starts a transaction. -/
theorem tx?_perform_beginTx {m : Memory} (wf : m.WellFormed) (tx : TxId) :
    (m.perform .beginTx).2.tx? tx = if tx = ⟨m.started⟩ then some {} else m.tx? tx :=
  tx?_of_begun wf rfl tx

/-- Every request keeps a store well-formed. -/
theorem Changes.wellFormed {m after : Memory} {request : Request}
    (changes : m.Changes request after) (wf : m.WellFormed) : after.WellFormed := by
  cases changes with
  | nothing books live started =>
    have same := tx?_eq_of_live_eq live
    exact ⟨fun tx t held => started ▸ wf.numbered tx t (same tx ▸ held),
      fun tx t tx' t' held held' => wf.exclusive tx t tx' t' (same tx ▸ held) (same tx' ▸ held')⟩
  | begun asked books live started =>
    have found := tx?_of_begun wf live
    constructor
    · intro tx t held
      rw [found] at held
      split at held
      · rename_i new; rw [new, started]; exact Nat.lt_succ_self _
      · exact started ▸ Nat.lt_succ_of_lt (wf.numbered tx t held)
    · intro tx t tx' t' held held' different key member
      rw [found] at held held'
      split at held
      · cases held; cases member
      · split at held'
        · cases held'; exact List.not_mem_nil
        · exact wf.exclusive tx t tx' t' held held' different key member
  | rewritten own t t' named held locks books live started =>
    have found : ∀ tx, after.tx? tx = if tx = own then some t' else m.tx? tx := by
      intro tx
      rw [tx?_eq_of_live_eq live tx, tx?_setTx, held, Option.map_some]
    constructor
    · intro tx u live
      rw [found] at live
      split at live
      · rename_i same; exact started ▸ same ▸ wf.numbered own t held
      · exact started ▸ wf.numbered tx u live
    · intro tx u tx' u' live live' different key member
      rw [found] at live live'
      split at live <;> split at live'
      · rename_i same same'; exact absurd (same.trans same'.symm) different
      · rename_i other
        cases live
        exact exclusive_of_rewritten wf held locks other live' key member
      · rename_i other _
        cases live'
        exact fun shared => exclusive_of_rewritten wf held locks other live key shared member
      · exact wf.exclusive tx u tx' u' live live' different key member
  | ended own named live started books =>
    have found : ∀ tx t, after.tx? tx = some t → m.tx? tx = some t := by
      intro tx t held
      rw [tx?_eq_of_live_eq live tx, tx?_endTx] at held
      split at held
      · cases held
      · exact held
    exact ⟨fun tx t held => started ▸ wf.numbered tx t (found tx t held),
      fun tx t tx' t' held held' => wf.exclusive tx t tx' t' (found tx t held) (found tx' t' held')⟩

/-- Only a commit changes the books. -/
theorem Changes.books {m after : Memory} {request : Request} (changes : m.Changes request after) :
    after.books = m.books ∨ ∃ tx t, request = .commit tx ∧ m.tx? tx = some t ∧
      m.books.commit t = .ok after.books := by
  cases changes with
  | nothing books => exact .inl books
  | begun _ books => exact .inl books
  | rewritten _ _ _ _ _ _ books => exact .inl books
  | ended tx _ _ _ books =>
    rcases books with same | ⟨t, asked, held, committed⟩
    · exact .inl same
    · exact .inr ⟨tx, t, asked, held, committed⟩

/-- Everything but a request for a lock is answered at once. -/
theorem perform_answers_of_not_isLock (m : Memory) {request : Request}
    (other : request.isLock = false) :
    ∃ answer after, m.perform request = (some answer, after) := by
  cases request with
  | lockAccount tx account => cases other
  | commit _ =>
    simp only [perform]; repeat' split
    all_goals exact ⟨_, _, rfl⟩
  | rollback _ =>
    simp only [perform]; split
    all_goals exact ⟨_, _, rfl⟩
  | findEntryIn _ _ | lastEntry _ _ | openPools _ _ | balanceForUpdate _ _ =>
    simp only [perform, readIn]; split
    all_goals exact ⟨_, _, rfl⟩
  | createEntry _ _ | createPool _ _ | updatePool _ _ | createBalance _ _ | updateBalance _ _ =>
    simp only [perform, stage]; repeat' split
    all_goals exact ⟨_, _, rfl⟩
  | beginTx | findEntries _ | countEntries _ | findEntry _ | findPools _ | findBalance _ =>
    exact ⟨_, _, rfl⟩

/-- A request that stays without an answer changes neither the books nor what is live. -/
theorem perform_unanswered {m after : Memory} {request : Request}
    (ran : m.perform request = (none, after)) : after.books = m.books ∧ after.live = m.live := by
  cases lock : request.isLock with
  | false =>
    obtain ⟨answer, after', answered⟩ := m.perform_answers_of_not_isLock lock
    rw [answered] at ran
    cases ran
  | true =>
    cases request with
    | lockAccount tx account =>
      simp only [perform, Memory.lock] at ran
      split at ran
      · cases ran
      · split at ran
        · cases ran
        · split at ran
          · cases ran
            exact ⟨books_knowLock m _, live_knowLock m _⟩
          · cases ran
    | _ => cases lock

/-- A store in which only one transaction is live answers every request at once. -/
theorem perform_answers {m : Memory} {own : TxId} (alone : ∀ tx t, m.tx? tx = some t → tx = own)
    (request : Request) : ∃ answer after, m.perform request = (some answer, after) := by
  cases lock : request.isLock with
  | false => exact m.perform_answers_of_not_isLock lock
  | true =>
    have free : ∀ tx t key, m.tx? tx = some t → m.isHeldByOther tx key = false := by
      intro tx t key held
      refine List.any_eq_false.mpr fun row member => ?_
      obtain ⟨u, live⟩ := exists_tx?_of_mem_live member
      simp [alone _ _ live, alone _ _ held]
    cases request with
    | lockAccount tx account =>
      simp only [perform, Memory.lock]
      split
      · exact ⟨_, _, rfl⟩
      · rename_i t held
        split
        · exact ⟨_, _, rfl⟩
        · rw [isHeldByOther_knowLock, free tx t _ held]
          exact ⟨_, _, rfl⟩
    | _ => cases lock

end Memory
end PointLedger
