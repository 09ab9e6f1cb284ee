import PointLedger.Proofs.Interference

/-!
The steps of a call, request by request. A call that holds a transaction knows what the transaction
has staged and what the rows of its locked account are, so the store's answers to its requests are
known as well. The rules at the end carry `Program.Ensures` through the binds of attempts and of
staged work.
-/

namespace PointLedger

/-! ### Moves -/

namespace Moves

variable {c : Call} {m after : Memory} {g g' : Progress} {tx : TxId}

/-- A step that leaves the store as it is. -/
theorem still (held : ∀ tx, g.tx = some tx → ∃ t, m.tx? tx = some t) (same : g'.tx = g.tx)
    (effect : Effect c m m g g') : Moves c m m g g' where
  others _ _ live _ := live
  live tx t live := by
    by_cases own : g.tx = some tx
    · exact .inl (same.trans own)
    · exact .inr ⟨own, live⟩
  own tx own := ⟨held tx (same ▸ own), .inl (same ▸ own)⟩
  effect := effect

theorem started (wf : m.WellFormed) (free : g.tx = none) (outcome : g'.outcome = g.outcome)
    (own : g'.tx = some ⟨m.started⟩) : Moves c m (m.perform .beginTx).2 g g' where
  others tx t live _ := by
    have old : tx ≠ ⟨m.started⟩ := by rintro rfl; rw [wf.tx?_next] at live; cases live
    rw [Memory.tx?_perform_beginTx wf, if_neg old, live]
  live tx t live := by
    rw [Memory.tx?_perform_beginTx wf] at live
    split at live
    · rename_i new; exact .inl (new ▸ own)
    · exact .inr ⟨by simp [free], live⟩
  own tx mine := by
    obtain rfl : (⟨m.started⟩ : TxId) = tx := Option.some.inj (own.symm.trans mine)
    exact ⟨⟨{}, by simp [Memory.tx?_perform_beginTx wf]⟩, .inr wf.tx?_next⟩
  effect := .silent rfl outcome

/-- A request in the call's own transaction, which stays live. -/
theorem within {request : Request} {answer : Option (Except StoreError request.Answer)}
    (wf : m.WellFormed) (ran : m.perform request = (answer, after))
    (named : request.tx? = some tx) (own : g.tx = some tx) (same : g'.tx = some tx)
    (held : ∃ t, after.tx? tx = some t) (effect : Effect c m after g g') :
    Moves c m after g g' where
  others other t live foreign :=
    ((Memory.perform_changes ran).tx? wf).1 other t live fun mine =>
      foreign (own.trans (named ▸ mine))
  live other t live := by
    rcases ((Memory.perform_changes ran).tx? wf).2 other t live with mine | old | ⟨rfl, -⟩
    · exact .inl (same.trans (named ▸ mine))
    · by_cases mine : g.tx = some other
      · exact .inl (same.trans (own ▸ mine))
      · exact .inr ⟨mine, old⟩
    · cases named
  own other mine := by
    obtain rfl : tx = other := Option.some.inj (same.symm.trans mine)
    exact ⟨held, .inl own⟩
  effect := effect

/-- A request that ends the call's transaction. -/
theorem ended {request : Request} {answer : Option (Except StoreError request.Answer)}
    (wf : m.WellFormed) (ran : m.perform request = (answer, after))
    (named : request.tx? = some tx) (own : g.tx = some tx) (released : g'.tx = none)
    (gone : after.tx? tx = none) (effect : Effect c m after g g') : Moves c m after g g' where
  others other t live foreign :=
    ((Memory.perform_changes ran).tx? wf).1 other t live fun mine =>
      foreign (own.trans (named ▸ mine))
  live other t live := by
    have foreign : g.tx ≠ some other := by
      intro mine
      obtain rfl : tx = other := Option.some.inj (own.symm.trans mine)
      rw [gone] at live
      cases live
    rcases ((Memory.perform_changes ran).tx? wf).2 other t live with mine | old | ⟨rfl, -⟩
    · exact absurd (own.trans (named ▸ mine)) foreign
    · exact .inr ⟨foreign, old⟩
    · cases named
  own other mine := by rw [released] at mine; cases mine
  effect := effect

end Moves

/-! ### What a call holds -/

/-- The call holds a live transaction. -/
def Holding (tx : TxId) (m : Memory) (g : Progress) : Prop :=
  g.tx = some tx ∧ ∃ t, m.tx? tx = some t

theorem Holding.undisturbed {c : Call} {tx : TxId} {m m₁ : Memory} {g : Progress}
    (holding : Holding tx m g) (same : Undisturbed c g.tx m m₁) : Holding tx m₁ g := by
  obtain ⟨own, t, live⟩ := holding
  exact ⟨own, t, same.staged tx t own live⟩

theorem Holding.live {tx : TxId} {m : Memory} {g : Progress} (holding : Holding tx m g) :
    ∀ tx, g.tx = some tx → ∃ t, m.tx? tx = some t := by
  obtain ⟨own, t, live⟩ := holding
  intro other mine
  obtain rfl : tx = other := Option.some.inj (own.symm.trans mine)
  exact ⟨t, live⟩

/-! ### The part of a call that its transaction does -/

/-- The work of one transaction: the account and the reference of the new entry, the writes as a
function of the account's rows, and how the caller's result is found in the books afterwards. -/
structure Job where
  account : Account
  reference : String
  plan : AccountRows → Bool → Except LedgerError (Entry × Transaction)
  /-- What the call gives back when it adds an entry. -/
  result : Entry → Entry
  lookup : EntryLookup

namespace Job

/-- What is left of a call on the books once the checks outside the transaction are passed. -/
def finish (job : Job) (c : Call) (b : Books) : Except LedgerError (Entry × Books) := do
  b.refuseTaken job.account.organizationId job.reference
  let (entry, t) ← job.plan (b.rows job.account) (b.hasPoolOf c.entryId)
  return (job.result entry, ← b.settle job.account.organizationId job.reference t)

/-- The job is what is left of the call on these books. -/
structure Fits (job : Job) (c : Call) (b : Books) : Prop where
  target : b.target c = some job.account
  post : b.post c = job.finish c b
  found : ∀ v hasPool entry t after, job.plan v hasPool = .ok (entry, t) →
    b.commit t = .ok after → after.findEntry job.lookup = some (job.result entry)

/-- The job adds one entry, to its account and with its reference. -/
def Proper (job : Job) : Prop :=
  ∀ v hasPool entry t, job.plan v hasPool = .ok (entry, t) →
    t.entries = [entry] ∧ entry.account = job.account ∧ entry.referenceId = job.reference

/-- A reference conflict is the only failure that staged work reports in other words. -/
def conflict (job : Job) (error : LedgerError) : LedgerError :=
  Attempt.referenceConflict job.account.organizationId job.reference error

/-- The lookup by which the duplicate checks find an entry. -/
def duplicate (job : Job) : EntryLookup :=
  .byReference job.account.organizationId job.reference

end Job

/-- The call has staged `t` under the lock of the job's account, whose rows are `v`; `hasPool` says
whether some pool stands for the entry that the call creates. -/
structure Working (c : Call) (job : Job) (v : AccountRows) (hasPool : Bool) (tx : TxId)
    (t : Transaction) (m : Memory) (g : Progress) : Prop where
  own : g.tx = some tx
  staged : m.tx? tx = some t
  locked : job.account.lockKey ∈ t.locks
  rows : m.books.rows job.account = v
  pool : m.books.hasPoolOf c.entryId = hasPool
  fits : ∀ b, m.books.entries <+: b.entries → job.Fits c b

namespace Working

variable {c : Call} {job : Job} {v : AccountRows} {hasPool : Bool} {tx : TxId}
  {t t' : Transaction} {m m₁ : Memory} {g g' : Progress}

theorem undisturbed (work : Working c job v hasPool tx t m g) (same : Undisturbed c g.tx m m₁) :
    Working c job v hasPool tx t m₁ g where
  own := work.own
  staged := same.staged tx t work.own work.staged
  locked := work.locked
  rows := (same.rows tx t _ work.own work.staged work.locked).trans work.rows
  pool := same.pool.trans work.pool
  fits b later := work.fits b (same.entries.trans later)

theorem holding (work : Working c job v hasPool tx t m g) : Holding tx m g :=
  ⟨work.own, t, work.staged⟩

/-- Deciding the outcome leaves what the call holds. -/
theorem of_tx_eq (work : Working c job v hasPool tx t m g) (same : g'.tx = g.tx) :
    Working c job v hasPool tx t m g' :=
  ⟨same.trans work.own, work.staged, work.locked, work.rows, work.pool, work.fits⟩

theorem ensureLocked (work : Working c job v hasPool tx t m g) :
    t.ensureLocked job.account = .ok () := by
  simp [Transaction.ensureLocked, work.locked]

/-- The store after a write that the transaction accepts. -/
theorem setTx (work : Working c job v hasPool tx t m g) (locks : t'.locks = t.locks) :
    Working c job v hasPool tx t' (m.setTx tx t') g where
  own := work.own
  staged := by simp [Memory.tx?_setTx, work.staged]
  locked := locks ▸ work.locked
  rows := work.rows
  pool := work.pool
  fits := work.fits

theorem fits_now (work : Working c job v hasPool tx t m g) : job.Fits c m.books :=
  work.fits m.books List.prefix_rfl

/-- The call comes to nothing when the reference is taken. -/
theorem apply_taken (work : Working c job v hasPool tx t m g) {found : Entry}
    (taken : m.books.findEntry job.duplicate = some found) :
    m.books.apply c =
      (.error (.alreadyExists job.account.organizationId job.reference), m.books) := by
  have taken : m.books.findEntry (.byReference job.account.organizationId job.reference) =
    some found := taken
  simp [Books.apply, work.fits_now.post, Job.finish, Books.refuseTaken, taken, Ledger.refuseTaken]

/-- The call comes to nothing when its writes cannot be planned. -/
theorem apply_refused (work : Working c job v hasPool tx t m g) {error : LedgerError}
    (free : m.books.findEntry job.duplicate = none) (refused : job.plan v hasPool = .error error) :
    m.books.apply c = (.error error, m.books) := by
  have free : m.books.findEntry (.byReference job.account.organizationId job.reference) = none :=
    free
  simp [Books.apply, work.fits_now.post, Job.finish, Books.refuseTaken, free,
    Ledger.refuseTaken, work.rows, work.pool, refused]

end Working

/-- The call has staged `t`, and its outcome is the failure `error`, if there is one, or is open. -/
structure Staging (c : Call) (job : Job) (v : AccountRows) (hasPool : Bool)
    (error : Option LedgerError) (tx : TxId) (t : Transaction) (m : Memory) (g : Progress) :
    Prop where
  work : Working c job v hasPool tx t m g
  outcome : g.outcome = error.map .error

namespace Staging

variable {c : Call} {job : Job} {v : AccountRows} {hasPool : Bool} {error : Option LedgerError}
  {tx : TxId} {t : Transaction} {m m₁ : Memory} {g : Progress}

theorem undisturbed (staging : Staging c job v hasPool error tx t m g)
    (same : Undisturbed c g.tx m m₁) : Staging c job v hasPool error tx t m₁ g :=
  ⟨staging.work.undisturbed same, staging.outcome⟩

theorem unposted (staging : Staging c job v hasPool error tx t m g) : g.Unposted := by
  intro entry posted
  rw [staging.outcome] at posted
  cases error <;> cases posted

end Staging

/-! ### How staged work ends -/

/-- Staged work that ends early leaves the transaction to its caller. A failure is the outcome of
the call. -/
def Interrupted (job : Job) (overdue : Prop) (tx : TxId) (m : Memory) (g : Progress) :
    Interruption → Prop
  | .failed error => Holding tx m g ∧ g.outcome = some (.error (job.conflict error))
  | .overdue => Holding tx m g ∧ overdue ∧ g.Unposted

/-- Staged work ends early, or it ends `ready`. -/
def Stages {α : Type} (job : Job) (overdue : Prop) (tx : TxId)
    (ready : α → Draws → Memory → Progress → Prop) (result : Except Interruption α) (d : Draws)
    (m : Memory) (g : Progress) : Prop :=
  match result with
  | .ok value => ready value d m g
  | .error interruption => Interrupted job overdue tx m g interruption

theorem Interrupted.undisturbed {job : Job} {overdue : Prop} {tx : TxId} {c : Call} {m m₁ : Memory}
    {g : Progress} {interruption : Interruption}
    (ended : Interrupted job overdue tx m g interruption)
    (same : Undisturbed c g.tx m m₁) : Interrupted job overdue tx m₁ g interruption := by
  cases interruption with
  | failed error => exact ⟨ended.1.undisturbed same, ended.2⟩
  | overdue => exact ⟨ended.1.undisturbed same, ended.2⟩

namespace Staged

variable {α β : Type} {c : Call} {job : Job} {v : AccountRows} {hasPool : Bool}
  {error : Option LedgerError} {overdue : Prop} {tx : TxId} {t : Transaction} {d : Draws}
  {m : Memory} {g : Progress} {ready : β → Draws → Memory → Progress → Prop}

theorem ensures_interrupted {interruption : Interruption}
    (ended : Interrupted job overdue tx m g interruption) :
    (Program.done (.error interruption)).Ensures c overdue (Stages job overdue tx ready) d m g :=
  fun _ same => ended.undisturbed same

/-- Staged work that fails as it was decided to. -/
theorem ensures_fail {failure : LedgerError} (staging : Staging c job v hasPool error tx t m g)
    (decided : error = some (job.conflict failure)) :
    (fail failure : Staged β).run.Ensures c overdue (Stages job overdue tx ready) d m g :=
  ensures_interrupted ⟨staging.work.holding, by rw [staging.outcome, decided]; rfl⟩

/-- Staged work in two parts. -/
theorem ensures_bind {first : Staged α} {next : α → Staged β}
    {middle : α → Draws → Memory → Progress → Prop}
    (ensured : first.run.Ensures c overdue (Stages job overdue tx middle) d m g)
    (rest : ∀ value d m g, middle value d m g →
      (next value).run.Ensures c overdue (Stages job overdue tx ready) d m g) :
    (first >>= next).run.Ensures c overdue (Stages job overdue tx ready) d m g := by
  apply Program.Ensures.bind
  refine ensured.mono fun result d m g reached => ?_
  cases result with
  | ok value => exact rest value d m g reached
  | error interruption => exact ensures_interrupted reached

/-- A request under the timer and what follows its answer. -/
theorem ensures_ask {request : Request} {next : request.Answer → Staged β}
    (holding : Holding tx m g) (unposted : g.Unposted)
    (turn : ∀ m₁, m₁.WellFormed → Undisturbed c g.tx m m₁ → ∀ answer m₂,
      m₁.perform request = (some answer, m₂) → ∃ g', Moves c m₁ m₂ g g' ∧
        match answer with
        | .ok value => (next value).run.Ensures c overdue (Stages job overdue tx ready) d m₂ g'
        | .error error => Interrupted job overdue tx m₂ g' (.failed (.store error))) :
    (ask request >>= next).run.Ensures c overdue (Stages job overdue tx ready) d m g := by
  intro m₁ wf same
  refine ⟨fun answer m₂ ran => ?_, fun expired => ?_⟩
  · obtain ⟨g', moves, rest⟩ := turn m₁ wf same answer m₂ ran
    refine ⟨g', moves, ?_⟩
    cases answer with
    | ok value => exact rest
    | error error => exact ensures_interrupted rest
  · exact ensures_interrupted ⟨holding.undisturbed same, expired, unposted⟩

/-- A request whose answer is known and that leaves the store as it is. -/
theorem ensures_read {request : Request} {next : request.Answer → Staged β} {value : request.Answer}
    (staging : Staging c job v hasPool error tx t m g)
    (known : ∀ m₁, Working c job v hasPool tx t m₁ g →
      m₁.perform request = (some (.ok value), m₁))
    (rest : (next value).run.Ensures c overdue (Stages job overdue tx ready) d m g) :
    (ask request >>= next).run.Ensures c overdue (Stages job overdue tx ready) d m g := by
  refine ensures_ask staging.work.holding staging.unposted fun m₁ _ same answer m₂ ran => ?_
  have work := staging.work.undisturbed same
  rw [known m₁ work] at ran
  cases ran
  exact ⟨g, .still work.holding.live rfl (.silent rfl rfl), rest.undisturbed same⟩

/-- A request with which staged work ends, when its answer is known and leaves the store as it is.
-/
theorem ensures_last {request : Request} {value : request.Answer}
    {ready : request.Answer → Draws → Memory → Progress → Prop}
    (staging : Staging c job v hasPool error tx t m g)
    (known : ∀ m₁, Working c job v hasPool tx t m₁ g →
      m₁.perform request = (some (.ok value), m₁))
    (reached : ∀ m₁, Staging c job v hasPool error tx t m₁ g → ready value d m₁ g) :
    (ask request).run.Ensures c overdue (Stages job overdue tx ready) d m g := by
  intro m₁ wf same
  have staging₁ := staging.undisturbed same
  refine ⟨fun answer m₂ ran => ?_, fun expired => ?_⟩
  · rw [known m₁ staging₁.work] at ran
    cases ran
    exact ⟨g, .still staging₁.work.holding.live rfl (.silent rfl rfl),
      fun m₂ later => reached m₂ (staging₁.undisturbed later)⟩
  · exact ensures_interrupted ⟨staging₁.work.holding, expired, staging₁.unposted⟩

/-- A request that the store refuses, as it was decided. -/
theorem ensures_refused {request : Request} {next : request.Answer → Staged β}
    {refusal : StoreError} (staging : Staging c job v hasPool error tx t m g)
    (known : ∀ m₁, Working c job v hasPool tx t m₁ g →
      m₁.perform request = (some (.error refusal), m₁))
    (decided : error = some (job.conflict (.store refusal))) :
    (ask request >>= next).run.Ensures c overdue (Stages job overdue tx ready) d m g := by
  refine ensures_ask staging.work.holding staging.unposted fun m₁ _ same answer m₂ ran => ?_
  have staging₁ := staging.undisturbed same
  rw [known m₁ staging₁.work] at ran
  cases ran
  exact ⟨g, .still staging₁.work.holding.live rfl (.silent rfl rfl), staging₁.work.holding,
    by rw [staging.outcome, decided]; rfl⟩

/-- A write that the store accepts. -/
theorem ensures_write {request : Request} {next : request.Answer → Staged β}
    {value : request.Answer} (t' : Transaction) (staging : Staging c job v hasPool error tx t m g)
    (named : request.tx? = some tx) (locks : t'.locks = t.locks)
    (accepted : ∀ m₁, Working c job v hasPool tx t m₁ g →
      m₁.perform request = (some (.ok value), m₁.setTx tx t'))
    (rest : ∀ m₁, Staging c job v hasPool error tx t' m₁ g →
      (next value).run.Ensures c overdue (Stages job overdue tx ready) d m₁ g) :
    (ask request >>= next).run.Ensures c overdue (Stages job overdue tx ready) d m g := by
  refine ensures_ask staging.work.holding staging.unposted fun m₁ wf same answer m₂ ran => ?_
  have work := staging.work.undisturbed same
  have kept := accepted m₁ work
  rw [kept] at ran
  cases ran
  have work' : Working c job v hasPool tx t' (m₁.setTx tx t') g := work.setTx locks
  exact ⟨g, .within wf kept named work.own work.own ⟨t', work'.staged⟩ (.silent rfl rfl),
    rest _ ⟨work', staging.outcome⟩⟩

end Staged
end PointLedger
