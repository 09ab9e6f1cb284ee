import PointLedger.Allocation
import PointLedger.Engine.Attempt
import PointLedger.Validation
/-!
The two operations that write: adding an entry and reverting one. Each works in one transaction on
one account and takes what it needs in a fixed order: the account's lock, the reference, the tail
of the chain, the balance row and, for a debit, the open pools. It reads all that before its first
write, and its first write is the entry. The duplicate check before the transaction and the reading
back after the commit stand outside it and are not under the timer.
-/

namespace PointLedger.Ledger

/-- The time of an entry after the chain's tail: now to the microsecond, or a microsecond after the
tail when that is not earlier than now. -/
def nextTimestamp (now : Timestamp) (tail : Option Entry) : Timestamp :=
  let now := now.truncate
  match tail with
  | none => now
  | some tail =>
    if now ≤ tail.createdAt then tail.createdAt.nextMicrosecond?.getD now else now

/-- The hash that an entry after the chain's tail points at. -/
def linkAfter : Option Entry → String
  | none => genesisHash
  | some tail => tail.hash

/-- Refuses a reference that some entry has. -/
def refuseTaken {m : Type → Type} [Monad m] (refuse : LedgerError → m Unit)
    (organizationId referenceId : String) : Option Entry → m Unit
  | none => pure ()
  | some _ => refuse (.alreadyExists organizationId referenceId)

/-- Locks the account, refuses a reference that is taken, and reads the tail of the chain. -/
def openChain (tx : TxId) (account : Account) (referenceId : String) : Staged (Option Entry) := do
  Staged.ask (.lockAccount tx account)
  let found ← Staged.ask (.findEntryIn tx (.byReference account.organizationId referenceId))
  refuseTaken Staged.fail account.organizationId referenceId found
  Staged.ask (.lastEntry tx account)

/-! ### Adding an entry -/

/-- Stages a credit: the entry, its pool, and the balance row or its change. -/
def stageCredit (tx : TxId) (draft : Draft) (balance : Option Balance) : Staged Entry := do
  let entry := draft.sealed
  Staged.ask (.createEntry tx entry)
  let poolId ← Staged.fresh
  Staged.ask (.createPool tx
    (CreditPool.opened ⟨poolId⟩ draft.account entry.id entry.amount entry.createdAt))
  match balance with
  | some balance =>
    let balance ← Staged.ofExcept (balance.apply entry.amount entry.createdAt)
    Staged.ask (.updateBalance tx balance)
  | none =>
    let balanceId ← Staged.fresh
    Staged.ask (.createBalance tx
      (Balance.opened ⟨balanceId⟩ draft.account entry.amount entry.createdAt))
  return entry

/-- Stages what a debit takes from one of the locked pools. -/
def stageDraw (tx : TxId) (pools : List CreditPool) (time : Timestamp) (a : Allocation) :
    Staged Unit := do
  match pools.find? (·.id == a.poolId) with
  | none => Staged.fail (.poolNotLocked a.poolId)
  | some pool =>
    Staged.ask (.updatePool tx
      { pool with remaining := a.remainingAfter, consumedAt := some time })

/-- Stages a debit: the entry with what it draws on, the pools that it draws on, and the change of
the balance. -/
def stageDebit (tx : TxId) (draft : Draft) (balance : Option Balance) : Staged Entry := do
  let pools ← Staged.ask (.openPools tx draft.account)
  if pools.isEmpty then Staged.fail (.insufficientFunds draft.amount Amount.zero)
  match balance with
  | none => Staged.fail (.balanceRowMissing draft.account)
  | some balance =>
    let allocations ← Staged.ofExcept (allocate pools draft.amount)
    let entry := Draft.sealed { draft with
      metadata := { draft.metadata with sources := allocations.map Allocation.source } }
    Staged.ask (.createEntry tx entry)
    allocations.forM (stageDraw tx pools entry.createdAt)
    let balance ← Staged.ofExcept (balance.apply entry.amount.neg entry.createdAt)
    Staged.ask (.updateBalance tx balance)
    return entry

/-- Stages a new entry. -/
def stageAdd (request : EntryRequest) (transactionId : String) (tx : TxId) : Staged Entry := do
  let account := request.account
  let tail ← openChain tx account request.referenceId
  let balance ← Staged.ask (.balanceForUpdate tx account)
  let id ← Staged.fresh
  let metadata ← Staged.ofExcept
    ((Metadata.ofCaller request.metadata).mapError Violation.toError)
  let now ← Staged.clock
  let draft : Draft := {
    id := ⟨id⟩
    account := account
    kind := request.kind
    amount := request.amount
    transactionId := transactionId
    referenceId := request.referenceId
    description := request.description
    metadata := metadata
    previousHash := linkAfter tail
    createdAt := nextTimestamp now tail }
  match request.kind with
  | .credit => stageCredit tx draft balance
  | .debit => stageDebit tx draft balance

/-- Adds an entry and gives it back as it was committed. -/
def tryAdd (config : EngineConfig) (request : EntryRequest) : Attempt Entry := do
  Attempt.ofExcept ((validateRequest request).mapError Violation.toError)
  let lookup := EntryLookup.byReference request.organizationId request.referenceId
  let found ← Attempt.ask (.findEntry lookup)
  refuseTaken throw request.organizationId request.referenceId found
  let transactionId ← Attempt.newTransactionId
  let _ ← Attempt.inTransaction config request.organizationId request.referenceId
    (stageAdd request transactionId)
  match ← Attempt.ask (.findEntry lookup) with
  | some entry => return entry
  | none => throw (.vanishedAfterCommit request.referenceId)

/-! ### Reverting an entry -/

/-- Stages the reversal of an entry: its amount leaves the balance, and no pool changes. -/
def stageRevert (reverted : Entry) (transactionId : String) (tx : TxId) : Staged Entry := do
  let account := reverted.account
  let tail ← openChain tx account reverted.transactionId
  match ← Staged.ask (.balanceForUpdate tx account) with
  | none => Staged.fail (.balanceNotFound account)
  | some balance =>
    let id ← Staged.fresh
    let now ← Staged.clock
    let reversal := Draft.sealed {
      id := ⟨id⟩
      account := account
      kind := reverted.kind
      amount := reverted.amount
      transactionId := transactionId
      referenceId := reverted.transactionId
      description := s!"Revert of {reverted.id}"
      metadata := { reverts := some ⟨reverted.id, reverted.hash⟩ }
      previousHash := linkAfter tail
      createdAt := nextTimestamp now tail }
    Staged.ask (.createEntry tx reversal)
    let balance ← Staged.ofExcept (balance.apply reverted.amount.neg reversal.createdAt)
    Staged.ask (.updateBalance tx balance)
    return reversal

/-- Reverts an entry, and gives back the entry as it is stored and its reversal. -/
def tryRevert (config : EngineConfig) (id : EntryId) : Attempt (Entry × Entry) := do
  match ← Attempt.ask (.findEntry (.byId id)) with
  | none => throw (.entryNotFound id)
  | some reverted =>
    let found ←
      Attempt.ask (.findEntry (.byReference reverted.organizationId reverted.transactionId))
    refuseTaken throw reverted.organizationId reverted.transactionId found
    let transactionId ← Attempt.newTransactionId
    let reversal ← Attempt.inTransaction config reverted.organizationId reverted.transactionId
      (stageRevert reverted transactionId)
    match ← Attempt.ask (.findEntry (.byId id)) with
    | some current => return (current, reversal)
    | none => throw (.vanishedAfterRevert id)

/-! ### The operations -/

/-- Appends a credit or a debit to its account's chain. -/
def addEntry (config : EngineConfig) (request : EntryRequest) :
    Program (Except LedgerError Entry) := do
  match ← (tryAdd config request).run with
  | .ok entry => .report (.event (.entryAdded entry)) (.done (.ok entry))
  | .error error =>
    .report (.event (.operationFailed .addEntry error)) (.done (.error error))

/-- Appends the reversal of an entry to its account's chain, and gives back the entry. -/
def revertEntry (config : EngineConfig) (id : EntryId) : Program (Except LedgerError Entry) := do
  match ← (tryRevert config id).run with
  | .ok (reverted, reversal) =>
    .report (.event (.entryReverted reverted reversal)) (.done (.ok reverted))
  | .error error =>
    .report (.event (.operationFailed .revertEntry error)) (.done (.error error))

end PointLedger.Ledger
