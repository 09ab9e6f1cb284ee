import PointLedger.Proofs.FittingRows

/-!
The writes of staged work. Whatever others do meanwhile, a credit, a debit and a reversal pass the
store no row that a rule of the schema would refuse, except that some entry may have the reference
already; and then the store in memory refuses it too.
-/

namespace PointLedger

/-- True for the requests that write a row. -/
def Request.writes : Request → Bool
  | .createEntry _ _ | .createPool _ _ | .updatePool _ _ | .createBalance _ _
  | .updateBalance _ _ => true
  | _ => false

/-- If the store takes a write, then the write obeys the schema. -/
def Memory.Conforms (m : Memory) (request : Request) : Prop :=
  request.writes = true → m.grants request = true →
    ∃ tx t t', request.tx? = some tx ∧ m.tx? tx = some t ∧
      (m.perform request).2.tx? tx = some t' ∧ request.Obeys m.books t t'

theorem Memory.conforms_of_not_writes {m : Memory} {request : Request}
    (reads : request.writes = false) : m.Conforms request := by
  intro writes
  rw [reads] at writes
  cases writes

/-- The call has staged `t` under the lock of the job's account, whose rows are `v`, and no
committed row has an identifier that the call draws. -/
structure Drafting (c : Call) (job : Job) (v : AccountRows) (hasPool : Bool) (tx : TxId)
    (t : Transaction) (m : Memory) : Prop where
  work : Working c job v hasPool tx t m { tx := some tx }
  unused : m.books.Unused c

namespace Drafting

variable {c : Call} {job : Job} {v : AccountRows} {hasPool : Bool} {tx : TxId} {t : Transaction}
  {m m₁ : Memory}

theorem meanwhile (drafting : Drafting c job v hasPool tx t m)
    (same : Meanwhile c (some tx) m m₁) : Drafting c job v hasPool tx t m₁ :=
  ⟨drafting.work.undisturbed same.toUndisturbed, same.unused drafting.unused⟩

/-! ### Each write is lawful -/

theorem obeys_createEntry (drafting : Drafting c job v hasPool tx job.opened m) {e : Entry}
    (fits : e.Fits) (id : e.id = c.entryId) (account : e.account = job.account)
    (reference : e.referenceId = job.reference) (granted : m.grants (.createEntry tx e) = true) :
    m.perform (.createEntry tx e) = (some (.ok ()), m.setTx tx (job.entered e)) ∧
      (Request.createEntry tx e).Obeys m.books job.opened (job.entered e) := by
  have asked := drafting.work.perform_createEntry e account reference
  have duplicate := Working.hasReferenceOf_eq e account reference m.books
  cases found : m.books.findEntry job.duplicate with
  | some taken =>
    rw [found] at asked
    simp [Memory.grants, asked] at granted
  | none =>
    rw [found] at asked duplicate
    refine ⟨asked, Request.obeys_createEntry ⟨fits, fun other member => ?_⟩⟩
    have known : other ∈ m.books.entries := by simpa [Transaction.over, Job.opened] using member
    refine ⟨id ▸ drafting.unused.entries other known, fun same => ?_⟩
    exact List.any_eq_false.mp duplicate other known (Entry.hasReference_iff.mpr same)

theorem obeys_createPool (drafting : Drafting c job v hasPool tx t m) {p : CreditPool}
    (owner : job.account.Fits) (account : p.account = job.account) (id : p.id = c.poolId)
    (entryId : p.entryId = c.entryId) (nonneg : 0 ≤ p.remaining.val)
    (created : ∃ e ∈ t.entries, e.id = p.entryId) (fresh : t.newPools = [])
    (unchanged : t.poolUpdates = []) (granted : m.grants (.createPool tx p) = true) :
    m.perform (.createPool tx p) = (some (.ok ()), m.setTx tx { t with newPools := [p] }) ∧
      (Request.createPool tx p).Obeys m.books t { t with newPools := [p] } := by
  have asked := drafting.work.perform_createPool account entryId fresh
  cases hasPool with
  | true => simp [Memory.grants, asked] at granted
  | false =>
    have lawful : (Request.createPool tx p).Lawful m.books t := by
      refine ⟨account ▸ owner, nonneg, created, fun other member => ?_⟩
      have known : other ∈ m.books.pools := by
        simpa [Transaction.over, fresh, Transaction.map_overlay_of_unchanged unchanged] using member
      have free := List.any_eq_false.mp drafting.work.pool other known
      exact ⟨id ▸ drafting.unused.pools other known, fun same => free (by simp [same, entryId])⟩
    have obeys := Request.obeys_createPool lawful
    rw [fresh, List.nil_append] at obeys
    exact ⟨asked, obeys⟩

theorem obeys_createBalance (drafting : Drafting c job v hasPool tx t m) {row : Balance}
    (owner : job.account.Fits) (absent : v.balance = none) (account : row.account = job.account)
    (id : row.id = c.balanceId) (fresh : t.newBalances = []) (unchanged : t.balanceUpdates = []) :
    m.perform (.createBalance tx row) =
        (some (.ok ()), m.setTx tx { t with newBalances := [row] }) ∧
      (Request.createBalance tx row).Obeys m.books t { t with newBalances := [row] } := by
  refine ⟨drafting.work.perform_createBalance absent account fresh,
    Request.obeys_createBalance ⟨account ▸ owner, fun other member => ?_⟩ fresh unchanged⟩
  have known : other ∈ m.books.balances := by
    simpa [Transaction.over, fresh, unchanged] using member
  have missing : m.books.findBalance job.account = none :=
    (congrArg AccountRows.balance drafting.work.rows).trans absent
  refine ⟨id ▸ drafting.unused.balances other known, fun same => ?_⟩
  exact List.find?_eq_none.mp missing other known (by simp [same, account])

theorem obeys_updateBalance (drafting : Drafting c job v hasPool tx t m) {row row' : Balance}
    (sound : m.books.Sound) (owner : job.account.Fits) (present : v.balance = some row)
    (moved : row.OnlyMoved row') (fresh : t.newBalances = []) (unchanged : t.balanceUpdates = []) :
    m.perform (.updateBalance tx row') =
        (some (.ok ()), m.setTx tx { t with balanceUpdates := [row'] }) ∧
      (Request.updateBalance tx row').Obeys m.books t { t with balanceUpdates := [row'] } := by
  have account : row'.account = job.account :=
    moved.account_eq.trans (drafting.work.balance_owner present)
  have known : row ∈ m.books.balances :=
    (Books.mem_of_findBalance
      ((congrArg AccountRows.balance drafting.work.rows).trans present)).1
  have seen : (t.over m.books).balances = m.books.balances := by
    simp [Transaction.over, fresh, unchanged]
  refine ⟨drafting.work.perform_updateBalance present account fresh unchanged,
    Request.obeys_updateBalance ⟨account ▸ owner, ⟨row, seen ▸ known, moved.id_eq.symm⟩,
      fun old member same => ?_⟩ sound.balances fresh unchanged⟩
  -- the update finds the row by its id, which no other row has
  rwa [List.inj_on_of_nodup_map sound.balanceIds (seen ▸ member) known (same.trans moved.id_eq)]

theorem obeys_updatePool (drafting : Drafting c job v hasPool tx t m) {p : CreditPool}
    {time : Timestamp} {a : Allocation} (sound : m.books.Sound) (owner : job.account.Fits)
    (present : p ∈ v.pools) (takes : a.Takes p) (fresh : t.newPools = [])
    (first : ∀ u ∈ t.poolUpdates, u.id ≠ p.id) :
    m.perform (.updatePool tx (p.drawn time a)) = (some (.ok ()), m.setTx tx
        { t with poolUpdates := CreditPool.stageUpdate t.poolUpdates (p.drawn time a) }) ∧
      (Request.updatePool tx (p.drawn time a)).Obeys m.books t
        { t with poolUpdates := CreditPool.stageUpdate t.poolUpdates (p.drawn time a) } := by
  have listed : p ∈ (m.books.rows job.account).pools := drafting.work.rows ▸ present
  obtain ⟨known, own⟩ := List.mem_filter.mp listed
  have account : p.account = job.account := eq_of_beq own
  have untouched : t.overlay p = p := by
    have missed : t.poolUpdates.find? (·.id == p.id) = none :=
      List.find?_eq_none.mpr fun u member => by simpa using first u member
    rw [Transaction.overlay, missed]
    rfl
  have left := takes.left
  have positive := takes.positive
  have within := takes.within
  refine ⟨drafting.work.perform_updatePool present account rfl fresh,
    Request.obeys_updatePool ⟨?_, ?_, ⟨p, ?_, rfl⟩, fun old member same => ?_⟩ fresh⟩
  · exact account ▸ owner
  · simp only [CreditPool.drawn]
    omega
  · simp only [Transaction.over, fresh, List.append_nil]
    exact List.mem_map.mpr ⟨p, known, untouched⟩
  · simp only [Transaction.over, fresh, List.append_nil] at member
    obtain ⟨q, there, rfl⟩ := List.mem_map.mp member
    rw [Transaction.overlay_id] at same
    obtain rfl := List.inj_on_of_nodup_map sound.poolIds there known same
    rw [untouched]
    refine ⟨rfl, ?_⟩
    simp only [CreditPool.drawn]
    omega

end Drafting

/-- Staged work ends early, or it ends `ready` and still holds its transaction. -/
def Drafted {α : Type} (tx : TxId) (ready : α → Draws → Memory → Prop) :
    Except Interruption α → Draws → Memory → Option TxId → Prop
  | .ok value, d, m, held => held = some tx ∧ ready value d m
  | .error _, _, _, _ => True

/-- Whatever others do in between, every request of staged work conforms. -/
def Staged.Conforms {α : Type} (c : Call) (tx : TxId) (ready : α → Draws → Memory → Prop)
    (work : Staged α) (d : Draws) (m : Memory) : Prop :=
  work.run.Observes c Books.Sound Memory.Conforms (Drafted tx ready) d m (some tx)

namespace Staged

variable {α β : Type} {c : Call} {job : Job} {v : AccountRows} {hasPool : Bool} {tx : TxId}
  {t : Transaction} {d : Draws} {m : Memory} {draft : Draft}
  {ready : β → Draws → Memory → Prop}

/-! ### Requests -/

theorem conforms_fail {failure : LedgerError} : Conforms c tx ready (fail failure : Staged β) d m :=
  fun _ _ => trivial

/-- Staged work in two parts. -/
theorem conforms_bind {first : Staged α} {next : α → Staged β}
    {middle : α → Draws → Memory → Prop} (conforms : Conforms c tx middle first d m)
    (rest : ∀ value d m, middle value d m → Conforms c tx ready (next value) d m) :
    Conforms c tx ready (first >>= next) d m := by
  apply Program.Observes.bind
  refine Program.Observes.mono conforms fun result d m held reached => ?_
  cases result with
  | ok value =>
    obtain ⟨rfl, reached⟩ := reached
    exact rest value d m reached
  | error interruption => exact fun _ _ => trivial

/-- A request in the transaction, which stays live, and what follows its answer. -/
theorem conforms_ask {request : Request} {next : request.Answer → Staged β}
    (turn : ∀ m₁, m₁.books.Sound → Meanwhile c (some tx) m m₁ → m₁.Conforms request ∧
      ∀ value m₂, m₁.perform request = (some (.ok value), m₂) → (∃ t, m₂.tx? tx = some t) ∧
        Conforms c tx ready (next value) d m₂) :
    Conforms c tx ready (ask request >>= next) d m := by
  intro m₁ wf sound same
  obtain ⟨conforms, rest⟩ := turn m₁ sound same
  refine ⟨conforms, fun answer m₂ held' ran hands => ?_⟩
  cases answer with
  | error error => exact fun _ _ => trivial
  | ok value =>
    obtain ⟨live, later⟩ := rest value m₂ ran
    obtain rfl := (hands tx).mpr ⟨live, .inl rfl⟩
    exact later

/-- A request whose answer is known and that leaves the store as it is. -/
theorem conforms_read {request : Request} {next : request.Answer → Staged β}
    {value : request.Answer} (drafting : Drafting c job v hasPool tx t m)
    (reads : request.writes = false)
    (known : ∀ m₁, Working c job v hasPool tx t m₁ { tx := some tx } →
      m₁.perform request = (some (.ok value), m₁))
    (rest : ∀ m₁, m₁.books.Sound → Drafting c job v hasPool tx t m₁ →
      Conforms c tx ready (next value) d m₁) :
    Conforms c tx ready (ask request >>= next) d m := by
  refine conforms_ask fun m₁ sound same => ⟨Memory.conforms_of_not_writes reads, ?_⟩
  intro answer m₂ ran
  have drafting₁ := drafting.meanwhile same
  rw [known m₁ drafting₁.work] at ran
  cases ran
  exact ⟨⟨t, drafting₁.work.staged⟩, rest m₁ sound drafting₁⟩

/-- A write that obeys the schema if the store takes it. -/
theorem conforms_write {request : Request} {next : request.Answer → Staged β}
    {value : request.Answer} (t' : Transaction) (drafting : Drafting c job v hasPool tx t m)
    (named : request.tx? = some tx) (locks : t'.locks = t.locks)
    (accepted : ∀ m₁, m₁.books.Sound → Drafting c job v hasPool tx t m₁ →
      m₁.grants request = true →
      m₁.perform request = (some (.ok value), m₁.setTx tx t') ∧ request.Obeys m₁.books t t')
    (rest : ∀ m₁, Drafting c job v hasPool tx t' m₁ → Conforms c tx ready (next value) d m₁) :
    Conforms c tx ready (ask request >>= next) d m := by
  refine conforms_ask fun m₁ sound same => ?_
  have drafting₁ := drafting.meanwhile same
  have drafting₂ : Drafting c job v hasPool tx t' (m₁.setTx tx t') :=
    ⟨drafting₁.work.setTx locks, drafting₁.unused⟩
  refine ⟨fun _ granted => ?_, fun answer m₂ ran => ?_⟩
  · obtain ⟨done, obeys⟩ := accepted m₁ sound drafting₁ granted
    refine ⟨tx, t, t', named, drafting₁.work.staged, ?_, obeys⟩
    rw [done]
    exact drafting₂.work.staged
  · have granted : m₁.grants request = true := by simp [Memory.grants, ran]
    rw [(accepted m₁ sound drafting₁ granted).1] at ran
    cases ran
    exact ⟨⟨t', drafting₂.work.staged⟩, rest _ drafting₂⟩

/-! ### Operations -/

/-- Opening the chain. -/
theorem conforms_openChain (held : m.tx? tx = some {}) (unused : m.books.Unused c)
    (fits : ∀ b, m.books.entries <+: b.entries → job.Fits c b) :
    Conforms c tx (fun tail d' m => d' = d ∧ ∃ v hasPool, tail = v.tail ∧
        (∀ e ∈ v.entries, e.Fits) ∧ Drafting c job v hasPool tx job.opened m)
      (Ledger.openChain tx job.account job.reference) d m := by
  refine conforms_ask fun m₁ _ same => ⟨Memory.conforms_of_not_writes rfl, fun value m₂ ran => ?_⟩
  obtain ⟨-, books, work⟩ := Working.of_lock (g := { tx := some tx }) rfl
    (same.staged tx {} rfl held) (fun b later => fits b (same.entries.trans later)) ran
  refine ⟨⟨_, work.staged⟩, ?_⟩
  have drafting : Drafting c job _ _ tx job.opened m₂ := ⟨work, books ▸ same.unused unused⟩
  refine conforms_ask fun m₃ _ same₃ => ⟨Memory.conforms_of_not_writes rfl, fun found m₄ ran₄ => ?_⟩
  have drafting₃ := drafting.meanwhile same₃
  rw [drafting₃.work.perform_findEntryIn] at ran₄
  cases ran₄
  refine ⟨⟨_, drafting₃.work.staged⟩, ?_⟩
  cases m₃.books.findEntry (.byReference job.account.organizationId job.reference) with
  | some taken => exact conforms_fail
  | none =>
    intro m₅ wf sound same₅
    have drafting₅ := drafting₃.meanwhile same₅
    refine ⟨Memory.conforms_of_not_writes rfl, fun answer m₆ held' ran₆ hands => ?_⟩
    rw [drafting₅.work.perform_lastEntry] at ran₆
    cases ran₆
    obtain rfl := (hands tx).mpr ⟨⟨_, drafting₅.work.staged⟩, .inl rfl⟩
    intro m₇ same₇
    refine ⟨rfl, rfl, _, _, rfl, ?_, drafting₅.meanwhile same₇⟩
    rw [← drafting₅.work.rows]
    exact sound.rows job.account

/-- The creation of the entry. -/
theorem conforms_createEntry {next : Unit → Staged β}
    (drafting : Drafting c job v hasPool tx job.opened m) (fits : draft.Fits)
    (id : draft.id = c.entryId) (account : draft.account = job.account)
    (reference : draft.referenceId = job.reference)
    (rest : ∀ m, Drafting c job v hasPool tx (job.entered draft.sealed) m →
      Conforms c tx ready (next ()) d m) :
    Conforms c tx ready (ask (.createEntry tx draft.sealed) >>= next) d m :=
  conforms_write (job.entered draft.sealed) drafting rfl rfl
    (fun _ _ drafting => drafting.obeys_createEntry fits.sealed id account reference) rest

/-- The change of the balance row, with which every staging but that of a first credit ends. -/
theorem conforms_change {entry : Entry} {row : Balance} {delta : Amount} {time : Timestamp}
    (owner : job.account.Fits) (drafting : Drafting c job v hasPool tx t m)
    (present : v.balance = some row) (fresh : t.newBalances = [])
    (unchanged : t.balanceUpdates = []) :
    Conforms c tx (fun _ _ _ => True) (do
      let row ← ofExcept (row.apply delta time)
      ask (.updateBalance tx row)
      return entry : Staged Entry) d m := by
  cases applied : row.apply delta time with
  | error failure => exact conforms_fail
  | ok row' =>
    exact conforms_write { t with balanceUpdates := [row'] } drafting rfl rfl
      (fun _ sound drafting _ => drafting.obeys_updateBalance sound owner present
        (Balance.onlyMoved_of_apply applied) fresh unchanged)
      fun _ _ _ _ => ⟨rfl, trivial⟩

/-- Staging a credit. -/
theorem conforms_stageCredit (drafting : Drafting c job v hasPool tx job.opened m)
    (draws : d.fresh = 1) (fits : draft.Fits) (account : draft.account = job.account)
    (reference : draft.referenceId = job.reference) (id : draft.id = c.entryId) :
    Conforms c tx (fun _ _ _ => True) (Ledger.stageCredit tx draft v.balance) d m := by
  have owner : job.account.Fits := account ▸ fits.account
  have poolId : (⟨c.source.fresh d.fresh⟩ : PoolId) = c.poolId := by rw [draws]; rfl
  have balanceId : (⟨c.source.fresh (d.fresh + 1)⟩ : BalanceId) = c.balanceId := by rw [draws]; rfl
  refine conforms_createEntry drafting fits id account reference fun m drafting => ?_
  let pool := CreditPool.opened ⟨c.source.fresh d.fresh⟩ draft.account draft.id draft.sealed.amount
    draft.sealed.createdAt
  refine conforms_write { job.entered draft.sealed with newPools := [pool] } drafting rfl rfl
    (fun m₁ _ drafting granted => drafting.obeys_createPool owner account poolId id
      (Int.le_of_lt fits.amount) ⟨draft.sealed, List.mem_singleton_self _, rfl⟩ rfl rfl granted)
    fun m drafting => ?_
  cases balance : v.balance with
  | some row => exact conforms_change owner drafting balance rfl rfl
  | none =>
    let row := Balance.opened ⟨c.source.fresh (d.fresh + 1)⟩ draft.account draft.sealed.amount
      draft.sealed.createdAt
    exact conforms_write
      { job.entered draft.sealed with newPools := [pool], newBalances := [row] } drafting rfl rfl
      (fun m₁ _ drafting _ =>
        drafting.obeys_createBalance owner balance account balanceId rfl rfl)
      fun _ _ _ _ => ⟨rfl, trivial⟩

/-- Staging what a debit takes from the pools that it has read. No pool is drawn on twice. -/
theorem conforms_draws {pools : List CreditPool} {time : Timestamp}
    {allocations : List Allocation} (owner : job.account.Fits)
    (drafting : Drafting c job v hasPool tx t m) (fresh : t.newPools = [])
    (held : ∀ p ∈ pools, p ∈ v.pools) (distinct : (pools.map (·.id)).Nodup)
    (takes : ∀ a ∈ allocations, ∃ p ∈ pools, a.Takes p)
    (once : (allocations.map (·.poolId)).Nodup)
    (first : ∀ a ∈ allocations, ∀ u ∈ t.poolUpdates, u.id ≠ a.poolId) :
    Conforms c tx (fun _ _ m => ∃ updates,
        Drafting c job v hasPool tx { t with poolUpdates := updates } m)
      (allocations.forM (Ledger.stageDraw tx pools time)) d m := by
  induction allocations generalizing t m with
  | nil => exact fun m₁ same => ⟨rfl, t.poolUpdates, drafting.meanwhile same⟩
  | cons a rest ih =>
    obtain ⟨p, member, drawn⟩ := takes a List.mem_cons_self
    obtain ⟨other, once⟩ := List.nodup_cons.mp once
    have found : pools.find? (·.id == a.poolId) = some p := by
      obtain ⟨q, there, same, found⟩ := exists_find?_of_listed ⟨p, member, drawn.pool.symm⟩
      rw [found, List.inj_on_of_nodup_map distinct there member (same.trans drawn.pool)]
    have unrolled : (a :: rest).forM (Ledger.stageDraw tx pools time) =
        (ask (.updatePool tx (p.drawn time a)) >>= fun _ =>
          rest.forM (Ledger.stageDraw tx pools time)) := by
      rw [List.forM, Ledger.stageDraw, found]
      rfl
    rw [unrolled]
    refine conforms_write
      { t with poolUpdates := CreditPool.stageUpdate t.poolUpdates (p.drawn time a) } drafting rfl
      rfl (fun _ sound drafting _ =>
        drafting.obeys_updatePool sound owner (held p member) drawn fresh fun u staged =>
          drawn.pool ▸ first a List.mem_cons_self u staged) fun m drafting => ?_
    refine ih (t := { t with
        poolUpdates := CreditPool.stageUpdate t.poolUpdates (p.drawn time a) }) drafting fresh
      (fun b later => takes b (List.mem_cons_of_mem a later)) once ?_
    intro b later u staged
    rcases mem_of_mem_upsert staged with rfl | old
    · intro same
      exact other (List.mem_map.mpr ⟨b, later, (same.symm.trans drawn.pool.symm)⟩)
    · exact first b (List.mem_cons_of_mem a later) u old

/-- Staging a debit. -/
theorem conforms_stageDebit (drafting : Drafting c job v hasPool tx job.opened m)
    (fits : draft.Fits) (account : draft.account = job.account)
    (reference : draft.referenceId = job.reference) (id : draft.id = c.entryId) :
    Conforms c tx (fun _ _ _ => True) (Ledger.stageDebit tx draft v.balance) d m := by
  have owner : job.account.Fits := account ▸ fits.account
  have known : ∀ m₁, Working c job v hasPool tx job.opened m₁ { tx := some tx } →
      m₁.perform (.openPools tx draft.account) = (some (.ok v.openPools), m₁) :=
    fun m₁ work => account ▸ work.perform_openPools
  refine conforms_read drafting rfl known fun m sound drafting => ?_
  have distinct : (v.pools.map (·.id)).Nodup := by
    rw [← drafting.work.rows]
    exact sound.poolIds.sublist (List.filter_sublist.map _)
  cases v.openPools.isEmpty with
  | true => exact conforms_fail
  | false =>
    cases balance : v.balance with
    | none => exact conforms_fail
    | some row =>
      cases covered : allocate v.openPools draft.amount with
      | error failure =>
        simp only [ofExcept, Bool.false_eq_true, ↓reduceIte]
        exact conforms_fail
      | ok allocations =>
        obtain ⟨drained, others, split, takes⟩ := AccountRows.takes_of_allocate covered
        have once : (allocations.map (·.poolId)).Nodup := by
          rw [map_poolId_of_takes takes]
          exact ((split.map _).nodup_iff.mp distinct).sublist
            ((List.sublist_append_left drained others).map _)
        have listed : v.openPools.Sublist (CreditPool.sort v.pools) := List.filter_sublist
        simp only [ofExcept, Bool.false_eq_true, ↓reduceIte]
        refine conforms_createEntry drafting (fits.debit allocations) id account reference
          fun m drafting => ?_
        refine conforms_bind (conforms_draws owner drafting rfl
          (fun p member => List.mem_mergeSort.mp (listed.subset member)) ?_
          (fun a taken => exists_takes_of_mem_allocate covered taken) once
          fun _ _ _ staged => (List.not_mem_nil staged).elim) fun _ d m reached => ?_
        · exact (((List.mergeSort_perm v.pools _).map _).nodup_iff.mpr distinct).sublist
            (listed.map _)
        · obtain ⟨updates, drafting⟩ := reached
          exact conforms_change owner drafting balance rfl rfl

/-- Staging a new entry. -/
theorem conforms_stageAdd {r : EntryRequest} {transactionId : String} (held : m.tx? tx = some {})
    (unused : m.books.Unused c) (valid : validateRequest r = .ok ())
    (drawn : c.transactionId = .ok transactionId)
    (fits : ∀ b, m.books.entries <+: b.entries → (r.job c transactionId).Fits c b)
    (fresh : d.fresh = 0) :
    Conforms c tx (fun _ _ _ => True) (Ledger.stageAdd r transactionId tx) d m := by
  rw [Ledger.stageAdd, Metadata.ofCaller_of_validateRequest valid]
  refine conforms_bind (conforms_openChain held unused fits) ?_
  rintro tail d' m ⟨rfl, v, hasPool, rfl, chain, drafting⟩
  refine conforms_read drafting rfl (fun m₁ work => work.perform_balanceForUpdate)
    fun m _ drafting => ?_
  have id : (⟨c.source.fresh d'.fresh⟩ : EntryId) = c.entryId := by rw [fresh]; rfl
  have draft := r.draft_fits valid drawn chain
  have made : ∀ time, Draft.Fits { r.draft c transactionId v.tail with
      id := ⟨c.source.fresh d'.fresh⟩, createdAt := time } := fun _ =>
    ⟨draft.amount, draft.account, draft.transaction, draft.reference, draft.description,
      draft.previous⟩
  cases kind : r.kind with
  | credit =>
    refine conforms_stageCredit drafting (congrArg Nat.succ fresh) ?_ rfl rfl id
    simpa only [EntryRequest.draft, kind] using made _
  | debit =>
    refine conforms_stageDebit drafting ?_ rfl rfl id
    simpa only [EntryRequest.draft, kind] using made _

/-- Staging a reversal. -/
theorem conforms_stageRevert {reverted : Entry} {transactionId : String}
    (held : m.tx? tx = some {}) (unused : m.books.Unused c) (original : reverted.Fits)
    (drawn : c.transactionId = .ok transactionId)
    (fits : ∀ b, m.books.entries <+: b.entries → (reverted.revertJob c transactionId).Fits c b)
    (fresh : d.fresh = 0) :
    Conforms c tx (fun _ _ _ => True) (Ledger.stageRevert reverted transactionId tx) d m := by
  have opened := conforms_openChain (d := d) held unused fits
  refine conforms_bind opened ?_
  rintro tail d' m ⟨rfl, v, hasPool, rfl, chain, drafting⟩
  refine conforms_read drafting rfl (fun m₁ work => work.perform_balanceForUpdate)
    fun m _ drafting => ?_
  have id : (⟨c.source.fresh d'.fresh⟩ : EntryId) = c.entryId := by rw [fresh]; rfl
  have reversal := original.reversal drawn chain
  cases balance : v.balance with
  | none => exact conforms_fail
  | some row =>
    refine conforms_createEntry drafting ⟨reversal.amount, reversal.account, reversal.transaction,
      reversal.reference, reversal.description, reversal.previous⟩ id rfl rfl fun m drafting => ?_
    have owner : reverted.account.Fits := original.account
    exact conforms_change owner drafting balance rfl rfl

end Staged
end PointLedger
