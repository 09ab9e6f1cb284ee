import PointLedger.Proofs.MutationSteps
import PointLedger.Proofs.Spending

/-!
The work of a transaction comes to its plan. Whatever others do meanwhile, a credit, a debit and a
reversal stage exactly the writes that `AccountRows.addPlan` and `AccountRows.revertPlan` give for
the rows of the locked account, or they fail as the plan does.
-/

namespace PointLedger

/-- The work of a call for a new entry. -/
def EntryRequest.job (r : EntryRequest) (c : Call) (transactionId : String) : Job where
  account := r.account
  reference := r.referenceId
  plan v hasPool := v.addPlan hasPool r c transactionId
  result := id
  lookup := .byReference r.organizationId r.referenceId

/-- The work of a call that reverts an entry. -/
def Entry.revertJob (e : Entry) (c : Call) (transactionId : String) : Job where
  account := e.account
  reference := e.transactionId
  plan v _ := v.revertPlan e c transactionId
  result _ := e
  lookup := .byId e.id

/-- The transaction holds the writes of the job for a new entry, and the outcome is open. -/
def Planned (c : Call) (job : Job) (tx : TxId) (entry : Entry) (m : Memory) (g : Progress) : Prop :=
  ∃ v hasPool t, Staging c job v hasPool none tx t m g ∧ job.plan v hasPool = .ok (entry, t)

/-- Why a debit cannot be funded. -/
def AccountRows.shortfall (v : AccountRows) (d : Draft) : Option LedgerError :=
  match v.funding d with
  | .ok _ => none
  | .error error => some error

/-- Why a call that adds an entry stops before its first write. -/
def EntryRequest.refusal (r : EntryRequest) (c : Call) (transactionId : String) (v : AccountRows) :
    Option LedgerError :=
  match r.kind with
  | .credit => none
  | .debit => v.shortfall (r.draft c transactionId v.tail)

/-- Why a call that reverts an entry stops before its first write. -/
def Entry.refusal (e : Entry) (v : AccountRows) : Option LedgerError :=
  match v.balance with
  | none => some (.balanceNotFound e.account)
  | some _ => none

/-- Only a failure of the store is reported in other words. -/
theorem Job.conflict_balanceOverflow (job : Job) (row : Balance) (delta : Amount) (time : Timestamp)
    {error : LedgerError} (refused : row.apply delta time = .error error) :
    job.conflict error = error := by
  unfold Balance.apply at refused
  split at refused <;> cases refused
  rfl

theorem Job.conflict_allocate (job : Job) {pools : List CreditPool} {amount : Amount}
    {error : LedgerError} (refused : allocate pools amount = .error error) :
    job.conflict error = error := by
  unfold allocate at refused
  dsimp only at refused
  repeat' split at refused
  all_goals cases refused
  all_goals rfl

namespace Staged

variable {c : Call} {job : Job} {v : AccountRows} {hasPool : Bool} {error : Option LedgerError}
  {overdue : Prop} {tx : TxId} {t : Transaction} {d : Draws} {m : Memory} {g : Progress}
  {draft : Draft}

/-- Staged work that is done. -/
theorem ensures_planned {entry : Entry}
    (staging : Staging c job v hasPool (job.refusal v hasPool) tx t m g)
    (plan : job.plan v hasPool = .ok (entry, t)) :
    (pure entry : Staged Entry).run.Ensures c overdue
      (Stages job overdue tx fun entry _ => Planned c job tx entry) d m g := by
  rw [Job.refusal_eq_none plan] at staging
  exact fun m₁ same => ⟨v, hasPool, t, staging.undisturbed same, plan⟩

/-- Staging a credit. -/
theorem ensures_stageCredit (staging : Staging c job v hasPool none tx job.opened m g)
    (draws : d.fresh = 1) (plan : job.plan v hasPool = v.creditPlan hasPool draft c)
    (account : draft.account = job.account) (reference : draft.referenceId = job.reference)
    (id : draft.id = c.entryId) :
    (Ledger.stageCredit tx draft v.balance).run.Ensures c overdue
      (Stages job overdue tx fun entry _ => Planned c job tx entry) d m g := by
  refine ensures_createEntry staging account reference fun m g staging => ?_
  have poolId : (⟨c.source.fresh d.fresh⟩ : PoolId) = c.poolId := by rw [draws]; rfl
  have balanceId : (⟨c.source.fresh (d.fresh + 1)⟩ : BalanceId) = c.balanceId := by rw [draws]; rfl
  refine ensures_createPool staging account id rfl (fun taken => ?_) fun m free staging => ?_
  · refine Job.refusal_eq_some.mpr (plan.trans ?_)
    rw [AccountRows.creditPlan, if_pos taken, account, reference]
    rfl
  · cases balance : v.balance with
    | some row =>
      cases applied : row.apply draft.sealed.amount draft.sealed.createdAt with
      | error failure =>
        simp only [applied, ofExcept]
        refine ensures_fail staging ?_
        rw [job.conflict_balanceOverflow row _ _ applied]
        refine Job.refusal_eq_some.mpr (plan.trans ?_)
        simp only [AccountRows.creditPlan, free, balance, applied]
        rfl
      | ok row' =>
        have owner : row'.account = job.account :=
          (Balance.account_of_apply applied).trans (staging.work.balance_owner balance)
        simp only [applied, ofExcept]
        refine ensures_updateBalance staging balance owner rfl rfl fun m staging => ?_
        refine ensures_planned staging (plan.trans ?_)
        simp only [AccountRows.creditPlan, free, balance, applied, account, ← poolId]
        rfl
    | none =>
      refine ensures_createBalance staging balance account rfl fun m staging => ?_
      refine ensures_planned staging (plan.trans ?_)
      simp only [AccountRows.creditPlan, free, balance, account, ← poolId, ← balanceId]
      rfl

/-- Staging what a debit takes from the pools that it has read. -/
theorem ensures_draws {pools : List CreditPool} {time : Timestamp} {allocations : List Allocation}
    (staging : Staging c job v hasPool error tx t m g) (fresh : t.newPools = [])
    (held : ∀ p ∈ pools, p ∈ v.pools ∧ p.account = job.account)
    (listed : ∀ a ∈ allocations, ∃ p ∈ pools, p.id = a.poolId) :
    (allocations.forM (Ledger.stageDraw tx pools time)).run.Ensures c overdue
      (Stages job overdue tx fun _ _ => Staging c job v hasPool error tx { t with
        poolUpdates := (drawnPools pools time allocations).foldl CreditPool.stageUpdate
          t.poolUpdates }) d m g := by
  induction allocations generalizing t m with
  | nil => exact fun m₁ same => staging.undisturbed same
  | cons a rest ih =>
    have later : ∀ a ∈ rest, ∃ p ∈ pools, p.id = a.poolId :=
      fun a member => listed a (List.mem_cons_of_mem _ member)
    cases found : pools.find? (·.id == a.poolId) with
    | none =>
      obtain ⟨p, member, same⟩ := listed a List.mem_cons_self
      have missed := List.find?_eq_none.mp found p member
      simp [same] at missed
    | some pool =>
      obtain ⟨present, owner⟩ := held pool (List.mem_of_find?_eq_some found)
      have drawn : drawnPools pools time (a :: rest) =
          pool.drawn time a :: drawnPools pools time rest := by
        simp [drawnPools, found]
      have unrolled : (a :: rest).forM (Ledger.stageDraw tx pools time) =
          (Staged.ask (.updatePool tx (pool.drawn time a)) >>= fun _ =>
            rest.forM (Ledger.stageDraw tx pools time)) := by
        rw [List.forM, Ledger.stageDraw, found]
        rfl
      rw [unrolled, drawn]
      refine ensures_updatePool staging present owner rfl fresh fun m staging => ?_
      exact ih staging fresh later

/-- Staging a debit. -/
theorem ensures_stageDebit
    (staging : Staging c job v hasPool (v.shortfall draft) tx job.opened m g)
    (plan : job.plan v hasPool = v.debitPlan draft) (account : draft.account = job.account)
    (reference : draft.referenceId = job.reference) :
    (Ledger.stageDebit tx draft v.balance).run.Ensures c overdue
      (Stages job overdue tx fun entry _ => Planned c job tx entry) d m g := by
  have known : ∀ m₁, Working c job v hasPool tx job.opened m₁ g →
      m₁.perform (.openPools tx draft.account) = (some (.ok v.openPools), m₁) :=
    fun m₁ work => account ▸ work.perform_openPools
  refine ensures_read staging known ?_
  cases empty : v.openPools.isEmpty with
  | true =>
    refine ensures_fail staging ?_
    simp only [AccountRows.shortfall, AccountRows.funding, empty]
    rfl
  | false =>
    cases balance : v.balance with
    | none =>
      refine ensures_fail staging ?_
      simp only [AccountRows.shortfall, AccountRows.funding, empty, balance]
      rfl
    | some row =>
      cases covered : allocate v.openPools draft.amount with
      | error failure =>
        simp only [ofExcept, Bool.false_eq_true, ↓reduceIte]
        refine ensures_fail staging ?_
        rw [job.conflict_allocate covered]
        simp only [AccountRows.shortfall, AccountRows.funding, empty, balance, covered]
        rfl
      | ok allocations =>
        have funded : v.funding draft = .ok (allocations, row) := by
          simp only [AccountRows.funding, empty, balance, covered]
          rfl
        rw [AccountRows.shortfall, funded] at staging
        simp only [ofExcept, Bool.false_eq_true, ↓reduceIte]
        refine ensures_createEntry staging account reference fun m g staging => ?_
        refine ensures_bind (ensures_draws staging rfl ?_ ?_) fun _ d m g staging => ?_
        · exact fun p member => staging.work.openPool_owner member
        · intro a taken
          obtain ⟨p, member, takes⟩ := exists_takes_of_mem_allocate covered taken
          exact ⟨p, member, takes.pool.symm⟩
        · cases applied : row.apply (draft.debit allocations).sealed.amount.neg
              (draft.debit allocations).sealed.createdAt with
          | error failure =>
            have refused := applied
            simp only [Draft.debit] at refused
            simp only [refused]
            refine ensures_fail staging ?_
            rw [job.conflict_balanceOverflow row _ _ applied]
            refine Job.refusal_eq_some.mpr (plan.trans ?_)
            simp only [AccountRows.debitPlan, funded, applied, ok_bind, error_bind, pure_eq_ok]
          | ok row' =>
            have owner : row'.account = job.account :=
              (Balance.account_of_apply applied).trans (staging.work.balance_owner balance)
            have changed := applied
            simp only [Draft.debit] at changed
            simp only [changed]
            refine ensures_updateBalance staging balance owner rfl rfl fun m staging => ?_
            refine ensures_planned staging (plan.trans ?_)
            simp only [AccountRows.debitPlan, funded, applied, Job.entered, ← account, ok_bind,
              pure_eq_ok]
            rfl

/-- A debit without funds is refused as a whole. -/
theorem debitPlan_of_shortfall {failure : LedgerError} (short : v.shortfall draft = some failure) :
    v.debitPlan draft = .error failure := by
  unfold AccountRows.shortfall at short
  cases funded : v.funding draft with
  | ok funds => simp [funded] at short
  | error reason =>
    obtain rfl : reason = failure := by simpa [funded] using short
    simp [AccountRows.debitPlan, funded]

/-- Staging a new entry. -/
theorem ensures_stageAdd {r : EntryRequest} {transactionId : String}
    (valid : validateRequest r = .ok ()) (own : g.tx = some tx)
    (held : m.tx? tx = some {}) (pending : g.outcome = none)
    (fits : ∀ b, m.books.entries <+: b.entries → (r.job c transactionId).Fits c b)
    (fresh : d.fresh = 0) (clock : d.clock = 1) :
    (Ledger.stageAdd r transactionId tx).run.Ensures c overdue
      (Stages (r.job c transactionId) overdue tx fun entry _ =>
        Planned c (r.job c transactionId) tx entry) d m g := by
  have refused : ∀ v hasPool error, r.refusal c transactionId v = some error →
      (r.job c transactionId).plan v hasPool = .error error := by
    intro v hasPool error short
    cases kind : r.kind with
    | credit => simp [EntryRequest.refusal, kind] at short
    | debit =>
      simp only [EntryRequest.refusal, kind] at short
      simp only [EntryRequest.job, AccountRows.addPlan, kind]
      exact debitPlan_of_shortfall short
  rw [Ledger.stageAdd, Metadata.ofCaller_of_validateRequest valid]
  refine ensures_bind
    (ensures_openChain (r.refusal c transactionId) refused own held pending fits) ?_
  rintro tail d' m g ⟨rfl, v, hasPool, rfl, staging⟩
  refine ensures_read staging (fun m₁ work => work.perform_balanceForUpdate) ?_
  have id : (⟨c.source.fresh d'.fresh⟩ : EntryId) = c.entryId := by rw [fresh]; rfl
  have time : c.source.clock d'.clock = c.time := by rw [clock]; rfl
  cases kind : r.kind with
  | credit =>
    simp only [EntryRequest.refusal, kind] at staging
    refine ensures_stageCredit staging (congrArg Nat.succ fresh) ?_ rfl rfl id
    simp only [EntryRequest.job, AccountRows.addPlan, EntryRequest.draft, kind, ← id, ← time]
  | debit =>
    have draft : r.draft c transactionId v.tail = ?_ := by
      simp only [EntryRequest.draft, kind, ← id, ← time]
      rfl
    simp only [EntryRequest.refusal, kind, draft] at staging
    refine ensures_stageDebit staging ?_ rfl rfl
    simp only [EntryRequest.job, AccountRows.addPlan, kind, draft]

/-- Staging a reversal. -/
theorem ensures_stageRevert {reverted : Entry} {transactionId : String} (own : g.tx = some tx)
    (held : m.tx? tx = some {}) (pending : g.outcome = none)
    (fits : ∀ b, m.books.entries <+: b.entries → (reverted.revertJob c transactionId).Fits c b)
    (fresh : d.fresh = 0) (clock : d.clock = 1) :
    (Ledger.stageRevert reverted transactionId tx).run.Ensures c overdue
      (Stages (reverted.revertJob c transactionId) overdue tx fun entry _ =>
        Planned c (reverted.revertJob c transactionId) tx entry) d m g := by
  have refused : ∀ v hasPool error, reverted.refusal v = some error →
      (reverted.revertJob c transactionId).plan v hasPool = .error error := by
    intro v hasPool error missing
    cases balance : v.balance with
    | none =>
      obtain rfl : .balanceNotFound reverted.account = error := by
        simpa [Entry.refusal, balance] using missing
      simp only [Entry.revertJob, AccountRows.revertPlan, balance]
      rfl
    | some row => simp [Entry.refusal, balance] at missing
  refine ensures_bind (ensures_openChain reverted.refusal refused own held pending fits) ?_
  rintro tail d' m g ⟨rfl, v, hasPool, rfl, staging⟩
  refine ensures_read staging (fun m₁ work => work.perform_balanceForUpdate) ?_
  have id : (⟨c.source.fresh d'.fresh⟩ : EntryId) = c.entryId := by rw [fresh]; rfl
  have time : c.source.clock d'.clock = c.time := by rw [clock]; rfl
  cases balance : v.balance with
  | none =>
    refine ensures_fail staging ?_
    simp only [Entry.refusal, balance]
    rfl
  | some row =>
    simp only [Entry.refusal, balance] at staging
    refine ensures_createEntry staging rfl rfl fun m g staging => ?_
    have draft : reverted.reversal c transactionId v.tail = ?_ := by
      simp only [Entry.reversal, ← id, ← time]
      rfl
    have plan : (reverted.revertJob c transactionId).plan v hasPool =
        v.revertPlan reverted c transactionId := rfl
    cases applied : row.apply reverted.amount.neg
        (reverted.reversal c transactionId v.tail).sealed.createdAt with
    | error failure =>
      have refused := applied
      rw [draft] at refused
      simp only [refused, ofExcept]
      refine ensures_fail staging ?_
      rw [Job.conflict_balanceOverflow _ row _ _ applied]
      refine Job.refusal_eq_some.mpr (plan.trans ?_)
      simp only [AccountRows.revertPlan, balance, applied]
      rfl
    | ok row' =>
      have owner : row'.account = reverted.account :=
        (Balance.account_of_apply applied).trans (staging.work.balance_owner balance)
      have changed := applied
      rw [draft] at changed
      simp only [changed, ofExcept]
      refine ensures_updateBalance staging balance owner rfl rfl fun m staging => ?_
      refine ensures_planned staging (plan.trans ?_)
      simp only [AccountRows.revertPlan, balance, draft, changed]
      rfl

end Staged
end PointLedger
