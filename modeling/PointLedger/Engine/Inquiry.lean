import PointLedger.Engine.Attempt
import PointLedger.Replay
import PointLedger.Validation
/-!
The operations that only read. None of them takes a lock, and only a failure is reported; the
verification of a chain is reported whatever it finds.
-/

namespace PointLedger.Ledger

/-- Reports the failure of an operation, and nothing when it succeeds. -/
def observe {α : Type} (operation : Operation) (attempt : Attempt α) :
    Program (Except LedgerError α) := do
  match ← attempt.run with
  | .ok value => .done (.ok value)
  | .error error => .report (.event (.operationFailed operation error)) (.done (.error error))

/-- One page of an account's entries. -/
def listEntries (config : EngineConfig) (query : EntryQuery) :
    Program (Except LedgerError (PageResponse Entry)) :=
  observe .listEntries do
    Attempt.ofExcept ((validateQuery query).mapError Violation.toError)
    let page := query.page.clamped config.maxPageSize
    let filter : EntryFilter :=
      ⟨query.account, query.kind, query.earliest, query.latest, query.order, some page⟩
    let total ← Attempt.ask (.countEntries filter)
    let data ← Attempt.ask (.findEntries filter)
    return PageResponse.ofPage data page.page page.perPage total

/-- The entry with an id. -/
def getEntry (id : EntryId) : Program (Except LedgerError Entry) :=
  observe .getEntry do
    match ← Attempt.ask (.findEntry (.byId id)) with
    | some entry => return entry
    | none => throw (.entryNotFound id)

/-- An account's balance; zero when it never received a credit. -/
def getBalance (account : Account) : Program (Except LedgerError BalanceSnapshot) :=
  observe .getBalance do
    let balance ← Attempt.ask (.findBalance account)
    return account.snapshot balance

/-- Walks an account's chain and reports its first break, if there is one. -/
def verifyChain (account : Account) : Program (Except LedgerError ChainReport) :=
  observe .verifyChain do
    let entries ← Attempt.ask (.findEntries (.chain account))
    let report := PointLedger.verifyChain entries
    .mk (.report (.event (.chainVerified account report)) (.done (.ok report)))

/-- Replays an account's entries and compares the outcome with its stored pools and balance. -/
def reconcile (account : Account) : Program (Except LedgerError Reconciliation) :=
  observe .reconcile do
    let entries ← Attempt.ask (.findEntries (.chain account))
    let pools ← Attempt.ask (.findPools (.all account))
    let balance ← Attempt.ask (.findBalance account)
    return PointLedger.reconcile account entries pools balance

end PointLedger.Ledger
