import PointLedger.Store.Memory
/-!
Work on a store in memory past the ledger: rows that were there before, and locks that someone else
holds.
-/

namespace PointLedger

/-- Why work on the store itself stopped. -/
inductive Obstacle where
  | failed (error : StoreError)
  /-- Another transaction holds a lock that is asked for. -/
  | lockHeld
  deriving DecidableEq, Repr

namespace Memory

/-- Carries out requests one after the other until one of them meets an obstacle. -/
def performAll (m : Memory) : List Request → Except Obstacle Unit × Memory
  | [] => (pure (), m)
  | request :: rest =>
    match m.perform request with
    | (some (.ok _), m) => performAll m rest
    | (some (.error error), m) => (.error (.failed error), m)
    | (none, m) => (.error .lockHeld, m)

/-- Starts a transaction and carries out requests in it; the transaction is dropped when they meet
an obstacle. -/
def attempt (m : Memory) (requests : TxId → List Request) : Except Obstacle TxId × Memory :=
  let tx : TxId := ⟨m.started⟩
  match ((m.perform .beginTx).2).performAll (requests tx) with
  | (.ok _, m) => (.ok tx, m)
  | (.error obstacle, m) => (.error obstacle, m.endTx tx)

/-- Takes the locks of accounts in a transaction that stays open. -/
def hold (m : Memory) (accounts : List Account) : Except Obstacle TxId × Memory :=
  m.attempt fun tx => accounts.map (.lockAccount tx)

/-- The writes of balance rows, each under its account's lock; a row that is there is changed. -/
def balanceWrites (m : Memory) (tx : TxId) : List Balance → List Request
  | [] => []
  | b :: rest =>
    let write := if (m.books.findBalance b.account).isSome then Request.updateBalance tx b
      else .createBalance tx b
    .lockAccount tx b.account :: write :: balanceWrites m tx rest

/-- Writes and commits rows in one transaction, each under its account's lock. -/
def seed (m : Memory) (entries : List Entry) (pools : List CreditPool)
    (balances : List Balance) : Except Obstacle TxId × Memory :=
  m.attempt fun tx =>
    entries.flatMap (fun e => [.lockAccount tx e.account, .createEntry tx e]) ++
      pools.flatMap (fun p => [.lockAccount tx p.account, .createPool tx p]) ++
      m.balanceWrites tx balances ++ [.commit tx]

end Memory
end PointLedger
