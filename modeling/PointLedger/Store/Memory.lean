import PointLedger.Error
import PointLedger.Store.Request
import PointLedger.Table
/-!
A ledger store in memory. What is committed is kept in the books. A transaction holds the locks it
has taken and the rows it has staged; staged rows are laid over the books for the transaction's own
reads, become part of the books when it commits, and are gone when it ends in any other way. The
books keep references unique within an organization, pools unique per credit and balance rows
unique per account, and never change an entry.
-/

namespace PointLedger

/-- The committed rows. -/
structure Books where
  /-- The entries in the order in which they were committed. -/
  entries : List Entry := []
  pools : List CreditPool := []
  /-- The balance rows, one for each account. -/
  balances : List Balance := []
  deriving DecidableEq, Repr, Inhabited

/-- What a transaction holds. -/
structure Transaction where
  /-- The keys of the locks that it has taken. -/
  locks : List String := []
  entries : List Entry := []
  newPools : List CreditPool := []
  /-- The changed rows of committed pools, in ascending order of their ids. -/
  poolUpdates : List CreditPool := []
  newBalances : List Balance := []
  /-- The changed rows of committed balances. -/
  balanceUpdates : List Balance := []
  deriving DecidableEq, Repr, Inhabited

/-! ### The rules that the store enforces -/

namespace StoreError

/-- A reference is in use in its organization. -/
def referenceTaken : StoreError :=
  .uniqueViolation "ledger_entries_organization_id_reference_id_key"

/-- The account has a balance row. -/
def balanceTaken : StoreError := .uniqueViolation "balances_organization_id_user_id_key"

/-- The credit has a pool. -/
def poolTaken : StoreError := .uniqueViolation "credit_pools_ledger_entry_id_key"

/-- The transaction reads or writes rows of an account whose lock it has not taken. -/
def lockNotHeld (account : Account) : StoreError :=
  .backend s!"pair lock for {account} is not held"

def entryMissing (id : EntryId) : StoreError := .backend s!"ledger entry {id} not found"
def poolMissing (id : PoolId) : StoreError := .backend s!"credit pool {id} not found"

/-- What is left of a pool would grow, or fall below zero. -/
def poolGrows (id : PoolId) : StoreError :=
  .backend s!"credit pool {id} remaining may only decrease"

def balanceMissing (account : Account) : StoreError := .backend s!"balance for {account} not found"

/-- The transaction has ended, or was never started. -/
def txEnded : StoreError := .backend "transaction has ended"

end StoreError

/-! ### Reading the books -/

namespace Books

def findEntries (b : Books) (filter : EntryFilter) : List Entry := filter.list b.entries
def countEntries (b : Books) (filter : EntryFilter) : Nat := filter.count b.entries
def findEntry (b : Books) (lookup : EntryLookup) : Option Entry := b.entries.find? lookup.isMatch
def findPools (b : Books) (filter : PoolFilter) : List CreditPool := filter.list b.pools

def findBalance (b : Books) (account : Account) : Option Balance :=
  b.balances.find? (·.account == account)

/-- True when a committed entry has the reference of an entry. -/
def hasReferenceOf (b : Books) (e : Entry) : Bool :=
  b.entries.any (·.hasReference e.organizationId e.referenceId)

/-- The books with a committed entry replaced by one with the same id, past every rule. This is
what someone with access to the storage could do; the ledger never does it. -/
def replaceEntry (b : Books) (entry : Entry) : Except StoreError Books :=
  if b.entries.any (·.id == entry.id) then
    pure { b with entries := upsert (·.id == entry.id) (fun _ => false) entry b.entries }
  else throw (.entryMissing entry.id)

end Books

namespace Transaction

/-- Refuses work on an account whose lock the transaction has not taken. -/
def ensureLocked (t : Transaction) (account : Account) : Except StoreError Unit :=
  if t.locks.contains account.lockKey then pure () else throw (.lockNotHeld account)

/-! ### Reading inside a transaction -/

/-- A staged entry, or else a committed one. -/
def findEntry (t : Transaction) (b : Books) (lookup : EntryLookup) : Option Entry :=
  (t.entries.find? lookup.isMatch).orElse fun _ => b.findEntry lookup

/-- The last entry of the account's chain, committed or staged. -/
def lastEntry (t : Transaction) (b : Books) (account : Account) :
    Except StoreError (Option Entry) := do
  t.ensureLocked account
  return Entry.latest? ((b.entries ++ t.entries).filter (·.account == account))

/-- A committed pool as the transaction has changed it. -/
def overlay (t : Transaction) (p : CreditPool) : CreditPool :=
  (t.poolUpdates.find? (·.id == p.id)).getD p

/-- The account's open pools, oldest first, as the transaction has changed them. -/
def openPools (t : Transaction) (b : Books) (account : Account) :
    Except StoreError (List CreditPool) := do
  t.ensureLocked account
  let committed := (b.pools.filter (·.account == account)).map t.overlay
  let staged := t.newPools.filter (·.account == account)
  return (CreditPool.sort (committed ++ staged)).filter CreditPool.isOpen

/-- The account's balance row as the transaction has changed it. -/
def balance (t : Transaction) (b : Books) (account : Account) :
    Except StoreError (Option Balance) := do
  t.ensureLocked account
  let of (rows : List Balance) := rows.find? (·.account == account)
  return (of t.balanceUpdates).orElse fun _ => (of t.newBalances).orElse fun _ =>
    b.findBalance account

/-! ### Staging writes -/

def createEntry (t : Transaction) (b : Books) (e : Entry) : Except StoreError Transaction := do
  t.ensureLocked e.account
  if t.entries.any (·.hasReference e.organizationId e.referenceId) || b.hasReferenceOf e then
    throw .referenceTaken
  return { t with entries := t.entries ++ [e] }

def createPool (t : Transaction) (b : Books) (p : CreditPool) : Except StoreError Transaction := do
  t.ensureLocked p.account
  if t.newPools.any (·.entryId == p.entryId) || b.pools.any (·.entryId == p.entryId) then
    throw .poolTaken
  return { t with newPools := t.newPools ++ [p] }

def updatePool (t : Transaction) (b : Books) (p : CreditPool) : Except StoreError Transaction := do
  t.ensureLocked p.account
  if t.newPools.any (·.id == p.id) then
    return { t with newPools := upsert (·.id == p.id) (fun _ => false) p t.newPools }
  else if b.pools.any (·.id == p.id) then
    let after (q : CreditPool) : Bool := p.id.uuid.value < q.id.uuid.value
    return { t with poolUpdates := upsert (·.id == p.id) after p t.poolUpdates }
  else throw (.poolMissing p.id)

/-- Puts a balance row in the place of its account's. -/
def putBalance (rows : List Balance) (row : Balance) : List Balance :=
  upsert (·.account == row.account) (fun _ => false) row rows

def createBalance (t : Transaction) (b : Books) (row : Balance) :
    Except StoreError Transaction := do
  t.ensureLocked row.account
  if t.newBalances.any (·.account == row.account) ||
      b.balances.any (·.account == row.account) then
    throw .balanceTaken
  return { t with newBalances := putBalance t.newBalances row }

def updateBalance (t : Transaction) (b : Books) (row : Balance) :
    Except StoreError Transaction := do
  t.ensureLocked row.account
  if t.newBalances.any (·.account == row.account) then
    return { t with newBalances := putBalance t.newBalances row }
  else if b.balances.any (·.account == row.account) then
    return { t with balanceUpdates := putBalance t.balanceUpdates row }
  else throw (.balanceMissing row.account)

end Transaction

/-! ### Committing -/

namespace Books

/-- Checks the change of a committed pool. -/
def checkPoolUpdate (b : Books) (update : CreditPool) : Except StoreError Unit :=
  match b.pools.find? (·.id == update.id) with
  | none => throw (.poolMissing update.id)
  | some current =>
    if update.remaining.val < 0 ∨ current.remaining.val < update.remaining.val then
      throw (.poolGrows update.id)
    else pure ()

/-- The books after a transaction, unless its rows break a rule of rows that were committed since
it staged them. -/
def commit (b : Books) (t : Transaction) : Except StoreError Books := do
  if t.entries.any b.hasReferenceOf then throw .referenceTaken
  if t.newBalances.any fun row => b.balances.any (·.account == row.account) then
    throw .balanceTaken
  t.poolUpdates.forM b.checkPoolUpdate
  return {
    entries := b.entries ++ t.entries
    pools := b.pools.map t.overlay ++ t.newPools
    balances := (t.newBalances ++ t.balanceUpdates).foldl Transaction.putBalance b.balances }

end Books

/-! ### The store -/

/-- A store in memory: the books and the transactions that have not ended. -/
structure Memory where
  books : Books := {}
  /-- The transactions that have not ended. -/
  live : List (TxId × Transaction) := []
  /-- The number of transactions ever started. -/
  started : Nat := 0
  /-- The keys of all locks ever asked for. -/
  lockKeys : List String := []
  deriving DecidableEq, Repr, Inhabited

namespace Memory

/-- The transaction with a handle, unless it has ended. -/
def tx? (m : Memory) (tx : TxId) : Option Transaction := List.lookup tx m.live

/-- The store with what a transaction holds replaced. -/
def setTx (m : Memory) (tx : TxId) (t : Transaction) : Memory :=
  { m with live := m.live.map fun row => if row.1 == tx then (tx, t) else row }

/-- Ends a transaction. Its locks are free and its staged rows are gone. -/
def endTx (m : Memory) (tx : TxId) : Memory :=
  { m with live := m.live.filter fun row => !(row.1 == tx) }

/-- True when a transaction other than `tx` holds the lock with a key. -/
def isHeldByOther (m : Memory) (tx : TxId) (key : String) : Bool :=
  m.live.any fun row => !(row.1 == tx) && row.2.locks.contains key

/-- The store with the key of a lock in its table. -/
def knowLock (m : Memory) (key : String) : Memory :=
  if m.lockKeys.contains key then m else { m with lockKeys := m.lockKeys ++ [key] }

/-- Reads inside a transaction. -/
def readIn {α : Type} (m : Memory) (tx : TxId) (read : Transaction → Except StoreError α) :
    Option (Except StoreError α) × Memory :=
  match m.tx? tx with
  | none => (some (throw .txEnded), m)
  | some t => (some (read t), m)

/-- Stages a write; a write that is refused leaves the transaction as it was. -/
def stage (m : Memory) (tx : TxId) (write : Transaction → Except StoreError Transaction) :
    Option (Except StoreError Unit) × Memory :=
  match m.tx? tx with
  | none => (some (throw .txEnded), m)
  | some t =>
    match write t with
    | .error error => (some (.error error), m)
    | .ok t => (some (pure ()), m.setTx tx t)

/-- Takes a lock, unless another transaction holds it: then there is no answer yet. -/
def lock (m : Memory) (tx : TxId) (key : String) : Option (Except StoreError Unit) × Memory :=
  match m.tx? tx with
  | none => (some (throw .txEnded), m)
  | some t =>
    if t.locks.contains key then (some (pure ()), m)
    else
      let m := m.knowLock key
      if m.isHeldByOther tx key then (none, m)
      else (some (pure ()), m.setTx tx { t with locks := t.locks ++ [key] })

/-- Answers a request. Only a lock that another transaction holds leaves a request without an
answer. -/
def perform (m : Memory) :
    (request : Request) → Option (Except StoreError request.Answer) × Memory
  | .beginTx =>
    let tx : TxId := ⟨m.started⟩
    (some (pure tx), { m with live := m.live ++ [(tx, {})], started := m.started + 1 })
  | .commit tx =>
    match m.tx? tx with
    | none => (some (throw .txEnded), m)
    | some t =>
      match m.books.commit t with
      | .error error => (some (.error error), m.endTx tx)
      | .ok books => (some (pure ()), { m.endTx tx with books := books })
  | .rollback tx =>
    match m.tx? tx with
    | none => (some (throw .txEnded), m)
    | some _ => (some (pure ()), m.endTx tx)
  | .lockAccount tx account => m.lock tx account.lockKey
  | .findEntries filter => (some (pure (m.books.findEntries filter)), m)
  | .countEntries filter => (some (pure (m.books.countEntries filter)), m)
  | .findEntry lookup => (some (pure (m.books.findEntry lookup)), m)
  | .findEntryIn tx lookup => m.readIn tx fun t => pure (t.findEntry m.books lookup)
  | .lastEntry tx account => m.readIn tx (·.lastEntry m.books account)
  | .createEntry tx entry => m.stage tx (·.createEntry m.books entry)
  | .findPools filter => (some (pure (m.books.findPools filter)), m)
  | .openPools tx account => m.readIn tx (·.openPools m.books account)
  | .createPool tx pool => m.stage tx (·.createPool m.books pool)
  | .updatePool tx pool => m.stage tx (·.updatePool m.books pool)
  | .findBalance account => (some (pure (m.books.findBalance account)), m)
  | .balanceForUpdate tx account => m.readIn tx (·.balance m.books account)
  | .createBalance tx balance => m.stage tx (·.createBalance m.books balance)
  | .updateBalance tx balance => m.stage tx (·.updateBalance m.books balance)

end Memory
end PointLedger
