import PointLedger.Proofs.StoreCalls

/-!
The locks of accounts. However transactions interleave, a lock is held by one live transaction at
most, a row is staged only by the transaction that holds the lock of its account, and a transaction
that ends leaves none of its locks behind.
-/

namespace PointLedger

/-! ### Staged rows -/

namespace Transaction

variable {b : Books} {t t' : Transaction} {request : Request} {a : Account}

/-- The accounts of the staged rows. -/
def accounts (t : Transaction) : List Account :=
  t.entries.map Entry.account ++ t.newPools.map CreditPool.account ++
    t.poolUpdates.map CreditPool.account ++ t.newBalances.map Balance.account ++
    t.balanceUpdates.map Balance.account

theorem mem_accounts :
    a ∈ t.accounts ↔ (∃ e ∈ t.entries, e.account = a) ∨ (∃ p ∈ t.newPools, p.account = a) ∨
      (∃ p ∈ t.poolUpdates, p.account = a) ∨ (∃ row ∈ t.newBalances, row.account = a) ∨
      ∃ row ∈ t.balanceUpdates, row.account = a := by
  simp only [accounts, List.mem_append, List.mem_map, or_assoc]

/-- A transaction keeps the locks that it has taken. -/
theorem Becomes.locks_subset (becomes : t.Becomes b request t') : t.locks ⊆ t'.locks := by
  cases becomes with
  | locked tx a => exact List.subset_append_left _ _
  | _ => exact List.Subset.refl _

/-- A row that a transaction stages belongs to an account whose lock it holds. -/
theorem Becomes.mem_accounts (becomes : t.Becomes b request t') (staged : a ∈ t'.accounts) :
    a ∈ t.accounts ∨ a.lockKey ∈ t.locks := by
  simp only [Transaction.mem_accounts] at staged ⊢
  cases becomes with
  | locked tx a => exact .inl staged
  | entry tx e own _ _ => grind
  | pool tx p own _ _ => grind
  | newPool tx p own _ | oldPool tx p own _ _ => grind [mem_of_mem_upsert]
  | balance tx row own _ | newBalance tx row own | oldBalance tx row own _ =>
    grind [putBalance, mem_of_mem_upsert]

/-- The transaction holds the lock of every account of which it has staged a row. -/
def Guarded (t : Transaction) : Prop := ∀ a ∈ t.accounts, a.lockKey ∈ t.locks

theorem Guarded.entry (guarded : t.Guarded) {e : Entry} (staged : e ∈ t.entries) :
    e.account.lockKey ∈ t.locks := guarded _ (mem_accounts.mpr (.inl ⟨e, staged, rfl⟩))

theorem Guarded.newPool (guarded : t.Guarded) {p : CreditPool} (staged : p ∈ t.newPools) :
    p.account.lockKey ∈ t.locks := guarded _ (mem_accounts.mpr (.inr (.inl ⟨p, staged, rfl⟩)))

theorem Guarded.poolUpdate (guarded : t.Guarded) {p : CreditPool} (staged : p ∈ t.poolUpdates) :
    p.account.lockKey ∈ t.locks :=
  guarded _ (mem_accounts.mpr (.inr (.inr (.inl ⟨p, staged, rfl⟩))))

theorem Guarded.balance (guarded : t.Guarded) {row : Balance}
    (staged : row ∈ t.newBalances ++ t.balanceUpdates) : row.account.lockKey ∈ t.locks := by
  refine guarded _ (mem_accounts.mpr (.inr (.inr (.inr ?_))))
  rcases List.mem_append.mp staged with new | changed
  · exact .inl ⟨row, new, rfl⟩
  · exact .inr ⟨row, changed, rfl⟩

end Transaction

/-- A row is staged only under the lock of its account. -/
theorem upheld_guarded : Upheld (fun _ => True) (fun _ => True) fun _ t => t.Guarded where
  empty := trivial
  begun _ _ := nofun
  staged request _ b t t' _ guarded becomes := by
    intro a staged
    rcases becomes.mem_accounts staged with old | own
    · exact becomes.locks_subset (guarded a old)
    · exact becomes.locks_subset own
  committed _ _ _ _ _ _ := trivial
  others _ _ _ _ _ _ guarded _ _ := guarded

namespace Memory

/-- Every live transaction holds the locks that it needs. -/
abbrev Guarded : Memory → Prop := Upheld.On (fun _ => True) fun _ t => t.Guarded

theorem Guarded.call {m : Memory} (guarded : m.Guarded) (c : StoreCall) : (m.call c).Guarded :=
  upheld_guarded.call (fun _ _ _ _ => ⟨id, fun _ => id⟩) guarded c

theorem guarded_calls (b : Books) (cs : List StoreCall) :
    (({ books := b } : Memory).calls cs).Guarded :=
  calls_induction cs (Upheld.on_books trivial) fun _ c guarded => guarded.call c

/-! ### The table of locks -/

/-- No transaction has taken a lock twice. -/
def LocksOnce (m : Memory) : Prop := ∀ row ∈ m.live, row.2.locks.Nodup

theorem LocksOnce.setTx {m : Memory} (once : m.LocksOnce) (tx : TxId) {t : Transaction}
    (distinct : t.locks.Nodup) : (m.setTx tx t).LocksOnce := by
  intro row member
  obtain ⟨old, live, rfl⟩ := List.mem_map.mp member
  split
  · exact distinct
  · exact once old live

theorem LocksOnce.lock {m : Memory} (once : m.LocksOnce) (tx : TxId) (key : String) :
    (m.lock tx key).2.LocksOnce := by
  have known : (m.knowLock key).LocksOnce := by
    rw [LocksOnce, live_knowLock]
    exact once
  cases held : m.tx? tx with
  | none => simpa [Memory.lock, held] using once
  | some t =>
    by_cases taken : key ∈ t.locks
    · rw [lock_of_mem held taken]
      exact once
    · cases free : m.isHeldByOther tx key with
      | true =>
        rw [lock_of_taken held taken free]
        exact known
      | false =>
        rw [lock_of_free held taken free]
        refine known.setTx tx (List.nodup_append.mpr ⟨once _ (mem_live_of_tx? held), ?_, ?_⟩)
        · exact List.nodup_singleton key
        · intro old member new asked same
          exact taken (List.mem_singleton.mp asked ▸ same ▸ member)

theorem LocksOnce.step {m : Memory} (once : m.LocksOnce) (s : StoreStep) :
    (m.step s).LocksOnce := by
  by_cases locks : ∃ tx a, s = .request (.lockAccount tx a)
  · obtain ⟨tx, a, rfl⟩ := locks
    exact once.lock tx a.lockKey
  · cases m.evolves_step s with
    | nothing _ live =>
      rw [LocksOnce, live]
      exact once
    | begun same =>
      rw [same]
      intro row member
      rcases List.mem_append.mp member with old | new
      · exact once row old
      · rw [List.mem_singleton.mp new]
        exact List.nodup_nil
    | changed request asked tx t t' held becomes _ live =>
      have same : t'.locks = t.locks := by
        cases becomes with
        | locked tx a => exact absurd ⟨tx, a, asked⟩ locks
        | _ => rfl
      rw [LocksOnce, live]
      exact once.setTx tx (same ▸ once _ (mem_live_of_tx? held))
    | ended tx _ live | committed tx _ _ _ live =>
      rw [LocksOnce, live]
      exact fun row member => once row (List.mem_filter.mp member).1

theorem locksOnce_calls (cs : List StoreCall) : (({} : Memory).calls cs).LocksOnce := by
  refine calls_induction cs (fun _ member => (by cases member)) fun m c once => ?_
  cases c with
  | use s => exact once.step s
  | replace e =>
    rw [LocksOnce, live_call_replace]
    exact once

/-- A lock is granted exactly when no other transaction holds it. -/
theorem grants_lockAccount_iff {m : Memory} {tx : TxId} {t : Transaction} (wf : m.WellFormed)
    (handles : m.Handles) (held : m.tx? tx = some t) (a : Account) :
    m.grants (.lockAccount tx a) = true ↔ ∀ tx', tx' ≠ tx → ¬ m.Holds tx' a.lockKey := by
  by_cases own : a.lockKey ∈ t.locks
  · have granted : m.grants (.lockAccount tx a) = true := by
      rw [grants, perform, lock_of_mem held own]
    refine iff_of_true granted fun tx' other taken => ?_
    obtain ⟨t', live, shared⟩ := handles.holds_iff.mp taken
    exact wf.exclusive tx t tx' t' held live (Ne.symm other) _ own shared
  · cases busy : m.isHeldByOther tx a.lockKey with
    | true =>
      have waits : m.grants (.lockAccount tx a) = false := by
        rw [grants, perform, lock_of_taken held own busy]
      obtain ⟨tx', other, taken⟩ := isHeldByOther_iff.mp busy
      exact iff_of_false (by simp [waits]) fun free => free tx' other taken
    | false =>
      have granted : m.grants (.lockAccount tx a) = true := by
        rw [grants, perform, lock_of_free held own busy]
      refine iff_of_true granted fun tx' other taken => ?_
      have taken := isHeldByOther_iff.mpr ⟨tx', other, taken⟩
      rw [busy] at taken
      cases taken

/-- Whoever is given a lock holds it. -/
theorem holds_of_grants {m : Memory} {tx : TxId} {a : Account}
    (granted : m.grants (.lockAccount tx a) = true) :
    (m.perform (.lockAccount tx a)).2.Holds tx a.lockKey := by
  rw [grants, perform] at granted
  rw [perform]
  cases held : m.tx? tx with
  | none => simp [lock, held] at granted
  | some t =>
    by_cases own : a.lockKey ∈ t.locks
    · rw [lock_of_mem held own]
      exact ⟨t, mem_live_of_tx? held, own⟩
    · cases busy : m.isHeldByOther tx a.lockKey with
      | true => simp [lock_of_taken held own busy] at granted
      | false =>
        rw [lock_of_free held own busy]
        refine ⟨{ t with locks := t.locks ++ [a.lockKey] }, mem_live_of_tx? ?_, by simp⟩
        rw [tx?_setTx, if_pos rfl, tx?_eq_of_live_eq (live_knowLock m _), held]
        rfl

/-- The calls that end a transaction: it is committed, with or without success, rolled back, or its
handle is dropped. -/
def endings (tx : TxId) : List StoreCall :=
  [.use (.request (.commit tx)), .use (.request (.rollback tx)), .use (.drop tx)]

/-- Whatever comes of a commit, the transaction is over after it. -/
theorem live_call_of_mem_endings {m : Memory} {tx : TxId} {t : Transaction} {c : StoreCall}
    (held : m.tx? tx = some t) (ends : c ∈ endings tx) :
    (m.call c).live = (m.endTx tx).live := by
  simp only [endings, List.mem_cons, List.not_mem_nil, or_false] at ends
  rcases ends with rfl | rfl | rfl
  · simp only [call, step, perform, held]
    split <;> rfl
  · simp only [call, step, perform, held]
  · rfl

/-- What the locks of a store do. -/
structure LocksHold (m : Memory) : Prop where
  /-- A lock has one holder at most, and it is taken once. -/
  exclusive : ∀ a tx tx', m.Holds tx (Account.lockKey a) → m.Holds tx' a.lockKey → tx = tx'
  once : ∀ tx t, m.tx? tx = some t → t.locks.Nodup
  again : ∀ tx a, m.Holds tx (Account.lockKey a) →
    m.perform (.lockAccount tx a) = (some (.ok ()), m)
  /-- A transaction holds the lock of each account of which it has staged a row. -/
  guarded : ∀ tx t, m.tx? tx = some t → ∀ a ∈ t.accounts, m.Holds tx a.lockKey
  apart : ∀ tx t tx' t', m.tx? tx = some t → m.tx? tx' = some t' → tx ≠ tx' →
    ∀ a ∈ t.accounts, a ∉ t'.accounts
  /-- A live transaction is given a lock at once unless another one holds it, and holds it then. -/
  granted : ∀ tx t a, m.tx? tx = some t →
    (m.grants (.lockAccount tx a) = true ↔ ∀ tx', tx' ≠ tx → ¬ m.Holds tx' a.lockKey)
  held : ∀ tx a, m.grants (.lockAccount tx a) = true →
    (m.perform (.lockAccount tx a)).2.Holds tx (Account.lockKey a)
  /-- A transaction that ends leaves its locks to whoever asks first. -/
  released : ∀ tx t, m.tx? tx = some t → ∀ c ∈ endings tx, (m.call c).tx? tx = none ∧
    ∀ a, a.lockKey ∈ t.locks → (∀ tx', ¬ (m.call c).Holds tx' a.lockKey) ∧
      ∀ tx' t', (m.call c).tx? tx' = some t' → (m.call c).grants (.lockAccount tx' a) = true

theorem released_of_mem_endings {m : Memory} {tx : TxId} {t : Transaction} {c : StoreCall}
    (wf : m.WellFormed) (handles : m.Handles) (held : m.tx? tx = some t) (ends : c ∈ endings tx) :
    (m.call c).tx? tx = none ∧ ∀ key ∈ t.locks, ∀ tx', ¬ (m.call c).Holds tx' key := by
  have live := live_call_of_mem_endings held ends
  have found (tx' : TxId) : (m.call c).tx? tx' = if tx' = tx then none else m.tx? tx' :=
    (tx?_eq_of_live_eq live tx').trans (tx?_endTx m tx tx')
  have handles' : (m.call c).Handles := by
    rw [Handles, live]
    exact handles.endTx tx
  refine ⟨by simp [found], fun key own tx' taken => ?_⟩
  obtain ⟨t', held', shared⟩ := handles'.holds_iff.mp taken
  rw [found] at held'
  split at held'
  · cases held'
  · rename_i other
    exact wf.exclusive tx t tx' t' held held' (Ne.symm other) key own shared

/-- After any calls on an empty store, by any number of transactions, each lock has one holder at
most, rows are staged only under the lock of their account, and a transaction that ends in any way
leaves its locks free. -/
theorem locks_hold (cs : List StoreCall) : (({} : Memory).calls cs).LocksHold := by
  obtain ⟨wf, handles⟩ := handles_calls {} cs
  have guarded := (guarded_calls {} cs).live
  have exclusive (key : String) (tx tx' : TxId) (taken : (({} : Memory).calls cs).Holds tx key)
      (taken' : (({} : Memory).calls cs).Holds tx' key) : tx = tx' := by
    obtain ⟨t, held, own⟩ := handles.holds_iff.mp taken
    obtain ⟨t', held', own'⟩ := handles.holds_iff.mp taken'
    by_contra other
    exact wf.exclusive tx t tx' t' held held' other key own own'
  have holds (tx : TxId) (t : Transaction) (held : (({} : Memory).calls cs).tx? tx = some t)
      (a : Account) (staged : a ∈ t.accounts) : (({} : Memory).calls cs).Holds tx a.lockKey :=
    handles.holds_iff.mpr ⟨t, held, guarded tx t held a staged⟩
  refine ⟨fun a => exclusive a.lockKey, ?_, ?_, holds, ?_, ?_, fun _ _ => holds_of_grants, ?_⟩
  · intro tx t held
    exact locksOnce_calls cs _ (mem_live_of_tx? held)
  · intro tx a taken
    obtain ⟨t, held, own⟩ := handles.holds_iff.mp taken
    exact lock_of_mem held own
  · intro tx t tx' t' held held' other a staged staged'
    exact other (exclusive _ tx tx' (holds tx t held a staged) (holds tx' t' held' a staged'))
  · intro tx t a held
    exact grants_lockAccount_iff wf handles held a
  · intro tx t held c ends
    obtain ⟨gone, free⟩ := released_of_mem_endings wf handles held ends
    refine ⟨gone, fun a own => ⟨free _ own, fun tx' t' held' => ?_⟩⟩
    have next := handles_calls {} (cs ++ [c])
    rw [calls_append] at next
    exact (grants_lockAccount_iff next.1 next.2 held' a).mpr fun tx'' _ => free _ own tx''

/-- The second transaction has to wait for the lock until the first one ends, in whatever way. -/
theorem locks_hold_two_transactions :
    let ann : Account := ⟨"acme", "ann"⟩
    let m := ({} : Memory).calls [.use (.request .beginTx), .use (.request .beginTx),
      .use (.request (.lockAccount ⟨0⟩ ann))]
    m.LocksHold ∧ m.Holds ⟨0⟩ ann.lockKey ∧ m.grants (.lockAccount ⟨1⟩ ann) = false ∧
      ∀ c ∈ endings ⟨0⟩, (m.call c).grants (.lockAccount ⟨1⟩ ann) = true := by
  intro ann m
  exact ⟨locks_hold _, by decide +kernel, by decide +kernel, by decide +kernel⟩

end Memory
end PointLedger
