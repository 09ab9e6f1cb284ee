import PointLedger.Proofs.Call

/-!
What a call does to the books when nothing else happens meanwhile. `plan` reads the rows of the one
account that the call is about and gives the writes of its transaction; `post` adds the checks that
are made outside the transaction and commits. Both work on the books at one moment. That running the
program of a call comes to the same, alone or among others, is proved elsewhere.
-/

namespace PointLedger

/-- The committed rows of one account. -/
structure AccountRows where
  /-- The entries in the order in which they were committed. -/
  entries : List Entry
  pools : List CreditPool
  balance : Option Balance
  deriving DecidableEq, Repr

namespace AccountRows

/-- The last entry of the account's chain. -/
def tail (v : AccountRows) : Option Entry := Entry.latest? v.entries

/-- The pools that a debit may draw on, oldest first. -/
def openPools (v : AccountRows) : List CreditPool :=
  (CreditPool.sort v.pools).filter CreditPool.isOpen

/-- The value of the balance row, zero when there is none. -/
def points (v : AccountRows) : Int := ((v.balance.map (·.balance)).getD Amount.zero).val

end AccountRows

namespace Books

/-- The committed rows of an account. -/
def rows (b : Books) (a : Account) : AccountRows where
  entries := b.entries.filter (·.account == a)
  pools := b.pools.filter (·.account == a)
  balance := b.findBalance a

theorem mem_of_findBalance {b : Books} {a : Account} {row : Balance}
    (found : b.findBalance a = some row) : row ∈ b.balances ∧ row.account = a := by
  unfold findBalance at found
  exact ⟨List.mem_of_find?_eq_some found, by simpa using List.find?_some found⟩

theorem mem_of_findEntry {b : Books} {id : EntryId} {e : Entry}
    (found : b.findEntry (.byId id) = some e) : e ∈ b.entries ∧ e.id = id := by
  unfold findEntry at found
  have matched : (EntryLookup.byId id).isMatch e = true := List.find?_some found
  exact ⟨List.mem_of_find?_eq_some found, eq_of_beq matched⟩

/-- An entry that was found is found in all later books. -/
theorem findEntry_of_prefix {b b' : Books} {lookup : EntryLookup} {e : Entry}
    (later : b.entries <+: b'.entries) (found : b.findEntry lookup = some e) :
    b'.findEntry lookup = some e := by
  obtain ⟨added, grown⟩ := later
  unfold findEntry at found
  rw [findEntry, ← grown, List.find?_append, found]
  rfl

/-- What a commit checks and what it comes to. -/
theorem commit_eq_ok {b after : Books} {t : Transaction} (committed : b.commit t = .ok after) :
    t.entries.any b.hasReferenceOf = false ∧
      (t.newBalances.any fun row => b.balances.any (·.account == row.account)) = false ∧
      t.poolUpdates.forM b.checkPoolUpdate = .ok () ∧ after = {
        entries := b.entries ++ t.entries
        pools := b.pools.map t.overlay ++ t.newPools
        balances :=
          (t.newBalances ++ t.balanceUpdates).foldl Transaction.putBalance b.balances } := by
  unfold commit at committed
  cases taken : t.entries.any b.hasReferenceOf with
  | true => simp [taken] at committed
  | false =>
    cases opened : t.newBalances.any fun row => b.balances.any (·.account == row.account) with
    | true => simp [taken, opened] at committed
    | false =>
      cases checked : t.poolUpdates.forM b.checkPoolUpdate with
      | error error => simp [taken, opened, checked] at committed
      | ok _ =>
        simp only [taken, opened, checked] at committed
        cases committed
        exact ⟨rfl, rfl, rfl, rfl⟩

/-- True when some credit pool stands for the entry. -/
def hasPoolOf (b : Books) (id : EntryId) : Bool := b.pools.any (·.entryId == id)

/-- The account that a call works on. -/
def target (b : Books) (c : Call) : Option Account :=
  match c.mutation with
  | .add request => some request.account
  | .revert id => (b.findEntry (.byId id)).map Entry.account

end Books

/-! ### The entry that a call adds -/

theorem Metadata.ofCaller_eq_ok_iff {extra : Json.Members} {m : Metadata} :
    ofCaller extra = .ok m ↔ validateMetadata extra = .ok () ∧ m = { extra := extra } := by
  unfold ofCaller
  cases validateMetadata extra with
  | error violation => exact ⟨nofun, fun both => nomatch both.1⟩
  | ok _ => exact ⟨fun same => ⟨rfl, (Except.ok.inj same).symm⟩, fun both => by rw [both.2]; rfl⟩

/-- The metadata of a request is checked twice. What has passed all checks passes the second. -/
theorem Metadata.ofCaller_of_validateRequest {r : EntryRequest}
    (valid : validateRequest r = .ok ()) : ofCaller r.metadata = .ok { extra := r.metadata } := by
  obtain ⟨_, -, rest⟩ := eq_ok_of_bind valid
  obtain ⟨_, -, rest⟩ := eq_ok_of_bind rest
  obtain ⟨_, -, rest⟩ := eq_ok_of_bind rest
  obtain ⟨_, -, rest⟩ := eq_ok_of_bind rest
  obtain ⟨_, -, metadata⟩ := eq_ok_of_bind rest
  exact ofCaller_eq_ok_iff.mpr ⟨metadata, rfl⟩

/-- The new entry of a request after the chain's tail. -/
def EntryRequest.draft (r : EntryRequest) (c : Call) (transactionId : String)
    (tail : Option Entry) : Draft where
  id := c.entryId
  account := r.account
  kind := r.kind
  amount := r.amount
  transactionId := transactionId
  referenceId := r.referenceId
  description := r.description
  metadata := { extra := r.metadata }
  previousHash := Ledger.linkAfter tail
  createdAt := Ledger.nextTimestamp c.time tail

/-- The reversal of an entry after the chain's tail. -/
def Entry.reversal (e : Entry) (c : Call) (transactionId : String) (tail : Option Entry) :
    Draft where
  id := c.entryId
  account := e.account
  kind := e.kind
  amount := e.amount
  transactionId := transactionId
  referenceId := e.transactionId
  description := s!"Revert of {e.id}"
  metadata := { reverts := some ⟨e.id, e.hash⟩ }
  previousHash := Ledger.linkAfter tail
  createdAt := Ledger.nextTimestamp c.time tail

/-- The entry of a debit, which records what it draws on. -/
def Draft.debit (d : Draft) (allocations : List Allocation) : Draft :=
  { d with metadata := { d.metadata with sources := allocations.map Allocation.source } }

namespace Draft

@[simp] theorem id_sealed (d : Draft) : d.sealed.id = d.id := rfl
@[simp] theorem account_sealed (d : Draft) : d.sealed.account = d.account := rfl
@[simp] theorem kind_sealed (d : Draft) : d.sealed.kind = d.kind := rfl
@[simp] theorem amount_sealed (d : Draft) : d.sealed.amount = d.amount := rfl
@[simp] theorem metadata_sealed (d : Draft) : d.sealed.metadata = d.metadata := rfl

end Draft

@[simp] theorem CreditPool.account_opened (id : PoolId) (a : Account) (entryId : EntryId)
    (amount : Amount) (time : Timestamp) : (opened id a entryId amount time).account = a := rfl

@[simp] theorem Balance.account_opened (id : BalanceId) (a : Account) (amount : Amount)
    (time : Timestamp) : (opened id a amount time).account = a := rfl

/-! ### The writes of a call -/

namespace CreditPool

/-- The pool after a debit has drawn on it. -/
def drawn (p : CreditPool) (time : Timestamp) (a : Allocation) : CreditPool :=
  { p with remaining := a.remainingAfter, consumedAt := some time }

/-- Stages the change of a pool among other changes. -/
def stageUpdate (updates : List CreditPool) (p : CreditPool) : List CreditPool :=
  upsert (·.id == p.id) (fun q => p.id.uuid.value < q.id.uuid.value) p updates

end CreditPool

/-- The changed pools of a debit, in the order in which it draws on them. -/
def drawnPools (pools : List CreditPool) (time : Timestamp) (allocations : List Allocation) :
    List CreditPool :=
  allocations.filterMap fun a => (pools.find? (·.id == a.poolId)).map (·.drawn time a)

namespace AccountRows

/-- The writes of a credit. -/
def creditPlan (v : AccountRows) (hasPool : Bool) (d : Draft) (c : Call) :
    Except LedgerError (Entry × Transaction) :=
  let entry := d.sealed
  let pool := CreditPool.opened c.poolId d.account entry.id entry.amount entry.createdAt
  if hasPool then throw (.alreadyExists d.account.organizationId d.referenceId)
  else
    match v.balance with
    | some row => do
      let row ← row.apply entry.amount entry.createdAt
      return (entry, {
        locks := [d.account.lockKey], entries := [entry], newPools := [pool],
        balanceUpdates := [row] })
    | none =>
      let row := Balance.opened c.balanceId d.account entry.amount entry.createdAt
      return (entry, {
        locks := [d.account.lockKey], entries := [entry], newPools := [pool],
        newBalances := [row] })

/-- What a debit takes from the pools, and the balance row that it changes. -/
def funding (v : AccountRows) (d : Draft) : Except LedgerError (List Allocation × Balance) := do
  if v.openPools.isEmpty then throw (.insufficientFunds d.amount Amount.zero)
  match v.balance with
  | none => throw (.balanceRowMissing d.account)
  | some row =>
    let allocations ← allocate v.openPools d.amount
    return (allocations, row)

/-- The writes of a debit. -/
def debitPlan (v : AccountRows) (d : Draft) : Except LedgerError (Entry × Transaction) := do
  let (allocations, row) ← v.funding d
  let entry := (d.debit allocations).sealed
  let row ← row.apply entry.amount.neg entry.createdAt
  let updates := drawnPools v.openPools entry.createdAt allocations
  return (entry, {
    locks := [d.account.lockKey], entries := [entry],
    poolUpdates := updates.foldl CreditPool.stageUpdate [], balanceUpdates := [row] })

/-- The writes of a call for a new entry. -/
def addPlan (v : AccountRows) (hasPool : Bool) (r : EntryRequest) (c : Call)
    (transactionId : String) : Except LedgerError (Entry × Transaction) :=
  let draft := r.draft c transactionId v.tail
  match r.kind with
  | .credit => v.creditPlan hasPool draft c
  | .debit => v.debitPlan draft

/-- The writes of a call that reverts an entry. -/
def revertPlan (v : AccountRows) (reverted : Entry) (c : Call) (transactionId : String) :
    Except LedgerError (Entry × Transaction) :=
  match v.balance with
  | none => throw (.balanceNotFound reverted.account)
  | some row => do
    let entry := (reverted.reversal c transactionId v.tail).sealed
    let row ← row.apply reverted.amount.neg entry.createdAt
    return (entry, {
      locks := [reverted.account.lockKey], entries := [entry], balanceUpdates := [row] })

/-! ### What a plan comes to -/

variable {v : AccountRows} {hasPool : Bool} {d : Draft} {c : Call} {entry : Entry} {t : Transaction}

theorem creditPlan_eq_ok (plan : v.creditPlan hasPool d c = .ok (entry, t)) :
    hasPool = false ∧ entry = d.sealed ∧
      ((∃ row row', v.balance = some row ∧ row.apply entry.amount entry.createdAt = .ok row' ∧
        t = {
          locks := [d.account.lockKey], entries := [entry]
          newPools := [CreditPool.opened c.poolId d.account entry.id entry.amount entry.createdAt]
          balanceUpdates := [row'] }) ∨
      (v.balance = none ∧ t = {
        locks := [d.account.lockKey], entries := [entry]
        newPools := [CreditPool.opened c.poolId d.account entry.id entry.amount entry.createdAt]
        newBalances := [Balance.opened c.balanceId d.account entry.amount entry.createdAt] })) := by
  unfold creditPlan at plan
  dsimp only at plan
  split at plan
  · cases plan
  · rename_i free
    refine ⟨by simpa using free, ?_⟩
    cases balance : v.balance with
    | some row =>
      cases applied : row.apply d.sealed.amount d.sealed.createdAt with
      | error error =>
        simp only [balance, applied, error_bind] at plan
        cases plan
      | ok row' =>
        simp only [balance, applied] at plan
        cases plan
        exact ⟨rfl, .inl ⟨row, row', rfl, applied, rfl⟩⟩
    | none =>
      simp only [balance] at plan
      cases plan
      exact ⟨rfl, .inr ⟨rfl, rfl⟩⟩

theorem funding_eq_ok {allocations : List Allocation} {row : Balance}
    (funded : v.funding d = .ok (allocations, row)) :
    v.balance = some row ∧ allocate v.openPools d.amount = .ok allocations := by
  unfold funding at funded
  cases empty : v.openPools.isEmpty with
  | true => simp [empty] at funded
  | false =>
    cases balance : v.balance with
    | none =>
      simp [empty, balance] at funded
    | some row' =>
      cases covered : allocate v.openPools d.amount with
      | error error => simp [empty, balance, covered] at funded
      | ok allocations' =>
        obtain ⟨rfl, rfl⟩ : allocations' = allocations ∧ row' = row := by
          simpa [empty, balance, covered] using funded
        exact ⟨rfl, rfl⟩

theorem debitPlan_eq_ok (plan : v.debitPlan d = .ok (entry, t)) :
    ∃ allocations row row', v.balance = some row ∧
      allocate v.openPools d.amount = .ok allocations ∧ entry = (d.debit allocations).sealed ∧
      row.apply entry.amount.neg entry.createdAt = .ok row' ∧ t = {
        locks := [d.account.lockKey], entries := [entry]
        poolUpdates :=
          (drawnPools v.openPools entry.createdAt allocations).foldl CreditPool.stageUpdate []
        balanceUpdates := [row'] } := by
  unfold debitPlan at plan
  cases funded : v.funding d with
  | error error => simp [funded] at plan
  | ok funds =>
    obtain ⟨allocations, row⟩ := funds
    obtain ⟨balance, covered⟩ := funding_eq_ok funded
    simp only [funded, ok_bind, pure_eq_ok] at plan
    cases applied : row.apply (d.debit allocations).sealed.amount.neg
        (d.debit allocations).sealed.createdAt with
    | error error =>
      simp only [applied, error_bind] at plan
      cases plan
    | ok row' =>
      simp only [applied] at plan
      cases plan
      exact ⟨allocations, row, row', balance, covered, rfl, applied, rfl⟩

theorem revertPlan_eq_ok {reverted : Entry} {transactionId : String}
    (plan : v.revertPlan reverted c transactionId = .ok (entry, t)) :
    ∃ row row', v.balance = some row ∧
      entry = (reverted.reversal c transactionId v.tail).sealed ∧
      row.apply reverted.amount.neg entry.createdAt = .ok row' ∧ t = {
        locks := [reverted.account.lockKey], entries := [entry], balanceUpdates := [row'] } := by
  unfold revertPlan at plan
  cases balance : v.balance with
  | none => simp [balance] at plan
  | some row =>
    cases applied : row.apply reverted.amount.neg
        (reverted.reversal c transactionId v.tail).sealed.createdAt with
    | error error =>
      simp only [balance, applied, error_bind] at plan
      cases plan
    | ok row' =>
      simp only [balance, applied] at plan
      cases plan
      exact ⟨row, row', rfl, rfl, applied, rfl⟩

end AccountRows

namespace Books

/-- Refuses a reference that a committed entry has. -/
def refuseTaken (b : Books) (organizationId referenceId : String) : Except LedgerError Unit :=
  Ledger.refuseTaken throw organizationId referenceId
    (b.findEntry (.byReference organizationId referenceId))

/-- Commits the writes of a call for an entry with this reference. -/
def settle (b : Books) (organizationId referenceId : String) (t : Transaction) :
    Except LedgerError Books :=
  (b.commit t).mapError fun error =>
    Attempt.referenceConflict organizationId referenceId (.store error)

/-- The result of a call and the books after it, or why the call is refused. -/
def post (b : Books) (c : Call) : Except LedgerError (Entry × Books) :=
  match c.mutation with
  | .add r => do
    (validateRequest r).mapError Violation.toError
    b.refuseTaken r.organizationId r.referenceId
    let transactionId ← c.transactionId
    let (entry, t) ← (b.rows r.account).addPlan (b.hasPoolOf c.entryId) r c transactionId
    return (entry, ← b.settle r.organizationId r.referenceId t)
  | .revert id =>
    match b.findEntry (.byId id) with
    | none => throw (.entryNotFound id)
    | some reverted => do
      b.refuseTaken reverted.organizationId reverted.transactionId
      let transactionId ← c.transactionId
      let (_, t) ← (b.rows reverted.account).revertPlan reverted c transactionId
      return (reverted, ← b.settle reverted.organizationId reverted.transactionId t)

/-- The result of a call and the books after it; a call that is refused leaves them as they are. -/
def apply (b : Books) (c : Call) : Except LedgerError Entry × Books :=
  match b.post c with
  | .ok (entry, after) => (.ok entry, after)
  | .error error => (.error error, b)

/-- The results of calls that are posted one after the other, and the books after them. -/
def applyAll (b : Books) : List Call → List (Except LedgerError Entry) × Books
  | [] => ([], b)
  | c :: rest =>
    let (result, b) := b.apply c
    let (results, b) := applyAll b rest
    (result :: results, b)

end Books
end PointLedger
