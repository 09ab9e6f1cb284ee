import PointLedger.Proofs.StagedWork

/-!
What the operations that write ask of the store, one after the other: the lock, the duplicate
check, the tail, the rows that the new entry depends on, and then the writes. At each step the
store's answer follows from the rows of the locked account. The outcome of a call is decided at
the duplicate check when its writes cannot even begin, at the creation of the entry when they
cannot be completed, and otherwise at the commit.
-/

namespace PointLedger

/-- A transaction that has taken the lock of the job's account and staged nothing. -/
def Job.opened (job : Job) : Transaction := { locks := [job.account.lockKey] }

/-- The transaction once it has staged the entry. -/
def Job.entered (job : Job) (entry : Entry) : Transaction :=
  { locks := [job.account.lockKey], entries := [entry] }

namespace Working

variable {c : Call} {job : Job} {v : AccountRows} {hasPool : Bool} {tx : TxId}
  {t : Transaction} {m : Memory} {g : Progress}

/-- The balance row of the account. -/
theorem balance_owner (work : Working c job v hasPool tx t m g) {row : Balance}
    (present : v.balance = some row) : row.account = job.account :=
  (Books.mem_of_findBalance ((congrArg AccountRows.balance work.rows).trans present)).2

/-- The pools that a debit of the account may draw on. -/
theorem openPool_owner (work : Working c job v hasPool tx t m g) {p : CreditPool}
    (member : p ∈ v.openPools) : p ∈ v.pools ∧ p.account = job.account := by
  have listed : p ∈ v.pools := List.mem_mergeSort.mp (List.mem_filter.mp member).1
  refine ⟨listed, ?_⟩
  rw [← work.rows] at listed
  simpa using (List.mem_filter.mp listed).2

/-- A transaction that has staged nothing works under the lock of the account once it has it. -/
theorem of_lock {answer : Except StoreError Unit} {m₁ : Memory} (own : g.tx = some tx)
    (held : m.tx? tx = some {}) (fits : ∀ b, m.books.entries <+: b.entries → job.Fits c b)
    (ran : m.perform (.lockAccount tx job.account) = (some answer, m₁)) :
    answer = .ok () ∧ m₁.books = m.books ∧ Working c job (m.books.rows job.account)
      (m.books.hasPoolOf c.entryId) tx job.opened m₁ g := by
  simp only [Memory.perform, Memory.lock, held] at ran
  simp only [List.contains_nil, Bool.false_eq_true, ↓reduceIte, List.nil_append] at ran
  split at ran
  · cases ran
  · obtain ⟨rfl, rfl⟩ : pure () = answer ∧
        (m.knowLock job.account.lockKey).setTx tx job.opened = m₁ := by
      simpa [Job.opened] using ran
    have books : ((m.knowLock job.account.lockKey).setTx tx job.opened).books = m.books := by
      simp [Memory.setTx]
    have known : (m.knowLock job.account.lockKey).tx? tx = some {} :=
      (Memory.tx?_eq_of_live_eq (by simp) tx).trans held
    exact ⟨rfl, books, {
      own := own
      staged := by simp [Memory.tx?_setTx, known]
      locked := List.mem_singleton_self _
      rows := by rw [books]
      pool := by rw [books]
      fits := fun b later => fits b (books ▸ later) }⟩

theorem perform_findEntryIn (work : Working c job v hasPool tx job.opened m g)
    (lookup : EntryLookup) :
    m.perform (.findEntryIn tx lookup) = (some (.ok (m.books.findEntry lookup)), m) := by
  simp [Memory.perform, Memory.readIn, work.staged, Transaction.findEntry, Job.opened]

theorem perform_lastEntry (work : Working c job v hasPool tx job.opened m g) :
    m.perform (.lastEntry tx job.account) = (some (.ok v.tail), m) := by
  simp only [Memory.perform, Memory.readIn, work.staged, Transaction.lastEntry, work.ensureLocked]
  rw [← work.rows]
  simp [Job.opened, AccountRows.tail, Books.rows]

theorem perform_balanceForUpdate (work : Working c job v hasPool tx job.opened m g) :
    m.perform (.balanceForUpdate tx job.account) = (some (.ok v.balance), m) := by
  simp only [Memory.perform, Memory.readIn, work.staged, Transaction.balance, work.ensureLocked]
  rw [← work.rows]
  simp [Job.opened, Books.rows]

theorem perform_openPools (work : Working c job v hasPool tx job.opened m g) :
    m.perform (.openPools tx job.account) = (some (.ok v.openPools), m) := by
  have untouched : (job.opened).overlay = id := by
    funext p
    simp [Transaction.overlay, Job.opened]
  simp only [Memory.perform, Memory.readIn, work.staged, Transaction.openPools, work.ensureLocked]
  rw [← work.rows, untouched]
  simp [Job.opened, AccountRows.openPools, Books.rows]

/-- An entry with the job's reference is refused exactly when the duplicate check finds one. -/
theorem hasReferenceOf_eq (entry : Entry) (account : entry.account = job.account)
    (reference : entry.referenceId = job.reference) (b : Books) :
    b.hasReferenceOf entry = (b.findEntry job.duplicate).isSome := by
  have organization : entry.organizationId = job.account.organizationId :=
    congrArg Account.organizationId account
  rw [Books.hasReferenceOf, organization, reference, Bool.eq_iff_iff, Books.findEntry,
    List.find?_isSome, List.any_eq_true]
  rfl

theorem perform_createEntry (work : Working c job v hasPool tx job.opened m g) (entry : Entry)
    (account : entry.account = job.account) (reference : entry.referenceId = job.reference) :
    m.perform (.createEntry tx entry) =
      match m.books.findEntry job.duplicate with
      | some _ => (some (.error .referenceTaken), m)
      | none => (some (.ok ()), m.setTx tx (job.entered entry)) := by
  simp only [Memory.perform, Memory.stage, work.staged, Transaction.createEntry, account,
    work.ensureLocked, hasReferenceOf_eq entry account reference]
  cases m.books.findEntry job.duplicate with
  | some found =>
    simp
  | none =>
    simp [Job.opened, Job.entered]

theorem perform_createPool (work : Working c job v hasPool tx t m g) {pool : CreditPool}
    (account : pool.account = job.account) (entryId : pool.entryId = c.entryId)
    (fresh : t.newPools = []) :
    m.perform (.createPool tx pool) =
      if hasPool then (some (.error .poolTaken), m)
      else (some (.ok ()), m.setTx tx { t with newPools := [pool] }) := by
  have taken : m.books.pools.any (fun p => p.entryId == c.entryId) = hasPool := work.pool
  simp only [Memory.perform, Memory.stage, work.staged, Transaction.createPool, account,
    work.ensureLocked, fresh, entryId, taken]
  cases hasPool <;>
    simp

theorem perform_updateBalance (work : Working c job v hasPool tx t m g) {row row' : Balance}
    (present : v.balance = some row) (account : row'.account = job.account)
    (fresh : t.newBalances = []) (unchanged : t.balanceUpdates = []) :
    m.perform (.updateBalance tx row') =
      (some (.ok ()), m.setTx tx { t with balanceUpdates := [row'] }) := by
  have found : m.books.findBalance job.account = some row :=
    (congrArg AccountRows.balance work.rows).trans present
  obtain ⟨member, owner⟩ := Books.mem_of_findBalance found
  have known : m.books.balances.any (fun r => r.account == job.account) = true :=
    List.any_eq_true.mpr ⟨row, member, by simp [owner]⟩
  simp [Memory.perform, Memory.stage, work.staged, Transaction.updateBalance, account,
    work.ensureLocked, fresh, unchanged, known, Transaction.putBalance, upsert]

theorem perform_createBalance (work : Working c job v hasPool tx t m g) {row : Balance}
    (absent : v.balance = none) (account : row.account = job.account)
    (fresh : t.newBalances = []) :
    m.perform (.createBalance tx row) =
      (some (.ok ()), m.setTx tx { t with newBalances := [row] }) := by
  have missing : m.books.findBalance job.account = none :=
    (congrArg AccountRows.balance work.rows).trans absent
  have known : m.books.balances.any (fun r => r.account == job.account) = false :=
    List.any_eq_false.mpr (List.find?_eq_none.mp missing)
  simp [Memory.perform, Memory.stage, work.staged, Transaction.createBalance, account,
    work.ensureLocked, fresh, known, Transaction.putBalance, upsert]

theorem perform_updatePool (work : Working c job v hasPool tx t m g) {pool pool' : CreditPool}
    (present : pool ∈ v.pools) (account : pool'.account = job.account)
    (same : pool'.id = pool.id) (fresh : t.newPools = []) :
    m.perform (.updatePool tx pool') = (some (.ok ()), m.setTx tx
      { t with poolUpdates := CreditPool.stageUpdate t.poolUpdates pool' }) := by
  have member : pool ∈ m.books.pools := by
    have listed : pool ∈ (m.books.rows job.account).pools := work.rows ▸ present
    exact (List.mem_filter.mp listed).1
  have known : m.books.pools.any (fun p => p.id == pool'.id) = true :=
    List.any_eq_true.mpr ⟨pool, member, by simp [same]⟩
  simp [Memory.perform, Memory.stage, work.staged, Transaction.updatePool, account,
    work.ensureLocked, fresh, known, CreditPool.stageUpdate]

end Working

/-- What makes the writes of a job impossible on these rows. -/
def Job.refusal (job : Job) (v : AccountRows) (hasPool : Bool) : Option LedgerError :=
  match job.plan v hasPool with
  | .ok _ => none
  | .error error => some error

theorem Job.refusal_eq_some {job : Job} {v : AccountRows} {hasPool : Bool} {error : LedgerError} :
    job.refusal v hasPool = some error ↔ job.plan v hasPool = .error error := by
  unfold Job.refusal
  cases job.plan v hasPool <;> simp

theorem Job.refusal_eq_none {job : Job} {v : AccountRows} {hasPool : Bool} {entry : Entry}
    {t : Transaction} (plan : job.plan v hasPool = .ok (entry, t)) :
    job.refusal v hasPool = none := by
  simp [Job.refusal, plan]

namespace Staged

variable {β : Type} {c : Call} {job : Job} {v : AccountRows} {hasPool : Bool}
  {error : Option LedgerError} {overdue : Prop} {tx : TxId} {t : Transaction} {d : Draws}
  {m : Memory} {g : Progress} {ready : β → Draws → Memory → Progress → Prop}

/-! ### Reading -/

/-- The lock of the account. -/
theorem ensures_lock {next : Unit → Staged β} (own : g.tx = some tx) (held : m.tx? tx = some {})
    (pending : g.outcome = none) (fits : ∀ b, m.books.entries <+: b.entries → job.Fits c b)
    (rest : ∀ m v hasPool, Staging c job v hasPool none tx job.opened m g →
      (next ()).run.Ensures c overdue (Stages job overdue tx ready) d m g) :
    (ask (.lockAccount tx job.account) >>= next).run.Ensures c overdue
      (Stages job overdue tx ready) d m g := by
  have unposted : g.Unposted := fun entry posted => by rw [pending] at posted; cases posted
  refine ensures_ask ⟨own, {}, held⟩ unposted fun m₁ wf same answer m₂ ran => ?_
  obtain ⟨rfl, books, work⟩ := Working.of_lock own (same.staged tx {} own held)
    (fun b later => fits b (same.entries.trans later)) ran
  exact ⟨g, .within wf ran rfl own own ⟨_, work.staged⟩ (.silent books rfl),
    rest _ _ _ ⟨work, pending⟩⟩

/-- Opening the chain. A call whose writes cannot begin on the rows of its account is decided at the
duplicate check. -/
theorem ensures_openChain (early : AccountRows → Option LedgerError)
    (refused : ∀ v hasPool error, early v = some error → job.plan v hasPool = .error error)
    (own : g.tx = some tx) (held : m.tx? tx = some {}) (pending : g.outcome = none)
    (fits : ∀ b, m.books.entries <+: b.entries → job.Fits c b) :
    (Ledger.openChain tx job.account job.reference).run.Ensures c overdue
      (Stages job overdue tx fun tail d' m g => d' = d ∧
        ∃ v hasPool, tail = v.tail ∧
          Staging c job v hasPool (early v) tx job.opened m g) d m g := by
  refine ensures_lock own held pending fits fun m v hasPool staging => ?_
  refine ensures_ask staging.work.holding staging.unposted fun m₁ wf same answer m₂ ran => ?_
  have work := staging.work.undisturbed same
  rw [work.perform_findEntryIn] at ran
  obtain ⟨rfl, rfl⟩ : .ok (m₁.books.findEntry job.duplicate) = answer ∧ m₁ = m₂ := by
    simpa [Job.duplicate] using ran
  have decides : ∀ error : Option LedgerError,
      Staging c job v hasPool error tx job.opened m₁ { g with outcome := error.map .error } :=
    fun _ => ⟨work.of_tx_eq rfl, rfl⟩
  cases found : m₁.books.findEntry job.duplicate with
  | some taken =>
    let failure := LedgerError.alreadyExists job.account.organizationId job.reference
    refine ⟨{ g with outcome := some (.error failure) }, .still work.holding.live rfl ?_, ?_⟩
    · exact .decided _ pending rfl (work.apply_taken found) (.inl rfl)
    · exact ensures_fail (decides (some failure)) rfl
  | none =>
    refine ⟨{ g with outcome := (early v).map .error }, .still work.holding.live rfl ?_, ?_⟩
    · cases error : early v with
      | none => exact .silent rfl pending.symm
      | some error =>
        exact .decided _ pending rfl (work.apply_refused found (refused v hasPool _ ‹_›)) (.inl rfl)
    · exact ensures_last (decides (early v)) (fun m₃ work₃ => work₃.perform_lastEntry)
        fun m₃ staging₃ => ⟨rfl, v, hasPool, rfl, staging₃⟩

/-! ### Writing -/

/-- The creation of the entry. A call whose writes cannot be completed is decided here. -/
theorem ensures_createEntry {entry : Entry} {next : Unit → Staged β}
    (staging : Staging c job v hasPool none tx job.opened m g)
    (account : entry.account = job.account) (reference : entry.referenceId = job.reference)
    (rest : ∀ m g, Staging c job v hasPool (job.refusal v hasPool) tx (job.entered entry) m g →
      (next ()).run.Ensures c overdue (Stages job overdue tx ready) d m g) :
    (ask (.createEntry tx entry) >>= next).run.Ensures c overdue (Stages job overdue tx ready)
      d m g := by
  have pending : g.outcome = none := staging.outcome
  refine ensures_ask staging.work.holding staging.unposted fun m₁ wf same answer m₂ ran => ?_
  have work := staging.work.undisturbed same
  have asked := work.perform_createEntry entry account reference
  cases found : m₁.books.findEntry job.duplicate with
  | some taken =>
    simp only [found] at asked
    rw [asked] at ran
    cases ran
    let failure := LedgerError.alreadyExists job.account.organizationId job.reference
    refine ⟨{ g with outcome := some (.error failure) }, .still work.holding.live rfl ?_, ?_⟩
    · exact .decided _ pending rfl (work.apply_taken found) (.inl rfl)
    · exact ⟨(work.of_tx_eq rfl).holding, rfl⟩
  | none =>
    simp only [found] at asked
    have accepted := asked
    rw [asked] at ran
    cases ran
    have written : Working c job v hasPool tx (job.entered entry)
        (m₁.setTx tx (job.entered entry)) g := work.setTx rfl
    refine ⟨{ g with outcome := (job.refusal v hasPool).map .error },
      .within wf accepted rfl work.own work.own ⟨_, written.staged⟩ ?_,
      rest _ _ ⟨written.of_tx_eq rfl, rfl⟩⟩
    cases refused : job.refusal v hasPool with
    | none => exact .silent rfl pending.symm
    | some error =>
      exact .decided _ pending rfl (work.apply_refused found (Job.refusal_eq_some.mp refused))
        (.inl rfl)

/-- The creation of the pool that stands for the entry. -/
theorem ensures_createPool {pool : CreditPool} {next : Unit → Staged β}
    (staging : Staging c job v hasPool error tx t m g) (account : pool.account = job.account)
    (entryId : pool.entryId = c.entryId) (fresh : t.newPools = [])
    (refused : hasPool = true → error = some (job.conflict (.store .poolTaken)))
    (rest : ∀ m, hasPool = false → Staging c job v hasPool error tx
        { t with newPools := [pool] } m g →
      (next ()).run.Ensures c overdue (Stages job overdue tx ready) d m g) :
    (ask (.createPool tx pool) >>= next).run.Ensures c overdue (Stages job overdue tx ready)
      d m g := by
  cases hasPool with
  | true =>
    exact ensures_refused staging (fun m₁ work => work.perform_createPool account entryId fresh)
      (refused rfl)
  | false =>
    exact ensures_write { t with newPools := [pool] } staging rfl rfl
      (fun m₁ work => work.perform_createPool account entryId fresh) fun m₁ => rest m₁ rfl

/-- The change of the balance row. -/
theorem ensures_updateBalance {row row' : Balance} {next : Unit → Staged β}
    (staging : Staging c job v hasPool error tx t m g) (present : v.balance = some row)
    (account : row'.account = job.account) (fresh : t.newBalances = [])
    (unchanged : t.balanceUpdates = [])
    (rest : ∀ m, Staging c job v hasPool error tx { t with balanceUpdates := [row'] } m g →
      (next ()).run.Ensures c overdue (Stages job overdue tx ready) d m g) :
    (ask (.updateBalance tx row') >>= next).run.Ensures c overdue (Stages job overdue tx ready)
      d m g := by
  exact ensures_write { t with balanceUpdates := [row'] } staging rfl rfl
    (fun m₁ work => work.perform_updateBalance present account fresh unchanged) rest

/-- The creation of the balance row. -/
theorem ensures_createBalance {row : Balance} {next : Unit → Staged β}
    (staging : Staging c job v hasPool error tx t m g) (absent : v.balance = none)
    (account : row.account = job.account) (fresh : t.newBalances = [])
    (rest : ∀ m, Staging c job v hasPool error tx { t with newBalances := [row] } m g →
      (next ()).run.Ensures c overdue (Stages job overdue tx ready) d m g) :
    (ask (.createBalance tx row) >>= next).run.Ensures c overdue (Stages job overdue tx ready)
      d m g := by
  exact ensures_write { t with newBalances := [row] } staging rfl rfl
    (fun m₁ work => work.perform_createBalance absent account fresh) rest

/-- The change of a pool of the account. -/
theorem ensures_updatePool {pool pool' : CreditPool} {next : Unit → Staged β}
    (staging : Staging c job v hasPool error tx t m g) (present : pool ∈ v.pools)
    (account : pool'.account = job.account) (same : pool'.id = pool.id) (fresh : t.newPools = [])
    (rest : ∀ m, Staging c job v hasPool error tx
        { t with poolUpdates := CreditPool.stageUpdate t.poolUpdates pool' } m g →
      (next ()).run.Ensures c overdue (Stages job overdue tx ready) d m g) :
    (ask (.updatePool tx pool') >>= next).run.Ensures c overdue (Stages job overdue tx ready)
      d m g := by
  exact ensures_write { t with poolUpdates := CreditPool.stageUpdate t.poolUpdates pool' }
    staging rfl rfl (fun m₁ work => work.perform_updatePool present account same fresh) rest

end Staged
end PointLedger
