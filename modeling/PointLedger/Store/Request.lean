import PointLedger.Balance
import PointLedger.Lookup
/-!
What the ledger asks of a store, and what each request is answered with. Requests that belong to
one atomic unit of work name its transaction; all others read what is committed.
-/

namespace PointLedger

/-- The handle of a transaction. -/
structure TxId where
  number : Nat
  deriving DecidableEq, Repr, Inhabited

/-- A request to a store. -/
inductive Request where
  /-- Starts a transaction. -/
  | beginTx
  /-- Makes every write of a transaction visible at once. -/
  | commit (tx : TxId)
  /-- Discards every write of a transaction. -/
  | rollback (tx : TxId)
  /-- Takes the account's lock for the rest of the transaction. -/
  | lockAccount (tx : TxId) (account : Account)
  | findEntries (filter : EntryFilter)
  /-- Counts the matches on all pages. -/
  | countEntries (filter : EntryFilter)
  | findEntry (lookup : EntryLookup)
  /-- Finds an entry, the transaction's own writes included. -/
  | findEntryIn (tx : TxId) (lookup : EntryLookup)
  /-- The tail of the account's chain, locked for the rest of the transaction. -/
  | lastEntry (tx : TxId) (account : Account)
  | createEntry (tx : TxId) (entry : Entry)
  | findPools (filter : PoolFilter)
  /-- The account's open pools, oldest first, locked for the rest of the transaction. -/
  | openPools (tx : TxId) (account : Account)
  | createPool (tx : TxId) (pool : CreditPool)
  /-- Writes what is left of a pool and when it was last drawn on. -/
  | updatePool (tx : TxId) (pool : CreditPool)
  | findBalance (account : Account)
  /-- The account's balance row, locked for the rest of the transaction. -/
  | balanceForUpdate (tx : TxId) (account : Account)
  | createBalance (tx : TxId) (balance : Balance)
  /-- Writes the balance and the time of its last change. -/
  | updateBalance (tx : TxId) (balance : Balance)
  deriving DecidableEq, Repr

namespace Request

/-- What a store answers a request with when it succeeds. -/
@[reducible] def Answer : Request → Type
  | .beginTx => TxId
  | .findEntries _ => List Entry
  | .countEntries _ => Nat
  | .findEntry _ | .findEntryIn _ _ | .lastEntry _ _ => Option Entry
  | .findPools _ | .openPools _ _ => List CreditPool
  | .findBalance _ | .balanceForUpdate _ _ => Option Balance
  | .commit _ | .rollback _ | .lockAccount _ _ | .createEntry _ _ | .createPool _ _
  | .updatePool _ _ | .createBalance _ _ | .updateBalance _ _ => Unit

/-- The transaction that a request names. -/
def tx? : Request → Option TxId
  | .beginTx | .findEntries _ | .countEntries _ | .findEntry _ | .findPools _ | .findBalance _ =>
    none
  | .commit tx | .rollback tx | .lockAccount tx _ | .findEntryIn tx _ | .lastEntry tx _
  | .createEntry tx _ | .openPools tx _ | .createPool tx _ | .updatePool tx _
  | .balanceForUpdate tx _ | .createBalance tx _ | .updateBalance tx _ => some tx

/-- True for the two requests that end a transaction. -/
def endsTx : Request → Bool
  | .commit _ | .rollback _ => true
  | _ => false

end Request
end PointLedger
