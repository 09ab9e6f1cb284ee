import PointLedger.Sql.Tables
import PointLedger.Store.Request
/-!
A ledger store in an SQL database: every request is one statement, and the reply to the statement
is the answer to the request. An account is locked by an advisory lock of the transaction on the
hash of the account's key, so the first write of a new account waits for its turn although there is
no row to lock; chain tails, open pools and balances are locked as rows as well.
-/

namespace PointLedger
namespace Sql

/-- What a database replies to a statement. -/
inductive Reply where
  | rows (rows : List Row)
  /-- The statement was carried out; it gives no rows. -/
  | carriedOut
  | failed (reason : String)
  deriving DecidableEq, Repr

/-! ### Statements -/

/-- The rows of an account. -/
def ofAccount (account : Account) : List Condition :=
  [⟨"organization_id", .equal, .text account.organizationId⟩,
    ⟨"user_id", .equal, .text account.userId⟩]

/-- By time, then by id. -/
def byTime (order : SortOrder) : List (String × SortOrder) := [("created_at", order), ("id", order)]

/-- The entries that a filter lists. -/
def matching (filter : EntryFilter) : Select where
  table := entryTable
  conditions :=
    ofAccount filter.account ++
      (filter.kind.toList.map fun kind => ⟨"type", .equal, .text kind.name⟩) ++
      (filter.earliest.toList.map fun time => ⟨"created_at", .atLeast, .time time⟩) ++
      (filter.latest.toList.map fun time => ⟨"created_at", .atMost, .time time⟩)

/-- The entry that is looked for. -/
def lookingUp (lookup : EntryLookup) : Select where
  table := entryTable
  conditions :=
    match lookup with
    | .byId id => [⟨"id", .equal, .uuid id.uuid⟩]
    | .byReference organizationId referenceId =>
      [⟨"organization_id", .equal, .text organizationId⟩,
        ⟨"reference_id", .equal, .text referenceId⟩]
  limit := some 1

/-- The pools of an account, oldest first. -/
def poolsOf (filter : PoolFilter) : Select where
  table := poolTable
  conditions :=
    ofAccount filter.account ++ if filter.openOnly then [⟨"remaining", .greater, .int 0⟩] else []
  order := byTime .ascending

/-- The balance row of an account. -/
def balanceOf (account : Account) : Select where
  table := balanceTable
  conditions := ofAccount account
  limit := some 1

/-- The row with an id. -/
def withId (id : Uuid) : Condition := ⟨"id", .equal, .uuid id⟩

/-- The statement that a request sends. -/
def statement : Request → Statement
  | .beginTx => .beginTx
  | .commit _ => .commit
  | .rollback _ => .rollback
  | .lockAccount _ account =>
    .text "SELECT pg_advisory_xact_lock(hashtextextended($1, 0))" [.text account.lockKey]
  | .findEntries filter =>
    .select { matching filter with
      order := byTime filter.order
      limit := filter.page.map PageRequest.limit
      offset := filter.page.map PageRequest.offset }
  | .countEntries filter => .count (matching filter)
  | .findEntry lookup | .findEntryIn _ lookup => .select (lookingUp lookup)
  | .lastEntry _ account =>
    .select {
      table := entryTable
      conditions := ofAccount account
      order := byTime .descending
      limit := some 1
      forUpdate := true }
  | .createEntry _ entry => .insert entryTable entry.toRow
  | .findPools filter => .select (poolsOf filter)
  | .openPools _ account => .select { poolsOf ⟨account, true⟩ with forUpdate := true }
  | .createPool _ pool => .insert poolTable pool.toRow
  | .updatePool _ pool =>
    .update poolTable
      (pool.toRow.filter fun (column, _) => ["remaining", "consumed_at"].contains column)
      (withId pool.id.uuid)
  | .findBalance account => .select (balanceOf account)
  | .balanceForUpdate _ account => .select { balanceOf account with forUpdate := true }
  | .createBalance _ balance => .insert balanceTable balance.toRow
  | .updateBalance _ balance =>
    .update balanceTable
      (balance.toRow.filter fun (column, _) => ["balance", "updated_at"].contains column)
      (withId balance.id.uuid)

/-! ### Replies -/

end Sql

namespace StoreError

/-- A row lacks a column, or holds something else there. -/
def rowUnreadable : StoreError := .backend "a row has a missing or mistyped column"

/-- A statement that writes a row gave none back. -/
def rowNotWritten : StoreError := .backend "no row was written"

end StoreError

namespace Sql

/-- The rows of a reply. -/
def Reply.rows? : Reply → Except StoreError (List Row)
  | .rows found => pure found
  | .carriedOut => pure []
  | .failed reason => throw (.backend reason)

/-- A row that has to be readable. -/
def readable {α : Type} (read : Row → Option α) (row : Row) : Except StoreError α :=
  match read row with
  | some value => pure value
  | none => throw .rowUnreadable

/-- Every row of a reply. -/
def Reply.all {α : Type} (reply : Reply) (read : Row → Option α) : Except StoreError (List α) := do
  (← reply.rows?).mapM (readable read)

/-- The first row of a reply; no other row is looked at. -/
def Reply.first {α : Type} (reply : Reply) (read : Row → Option α) :
    Except StoreError (Option α) := do
  (← reply.rows?).head?.mapM (readable read)

/-- The row that a statement wrote. -/
def Reply.written {α : Type} (reply : Reply) (read : Row → Option α) : Except StoreError Unit := do
  match ← reply.first read with
  | some _ => return ()
  | none => throw .rowNotWritten

/-- The number of rows that a count gives. A negative one stands for what it is as an unsigned
number of 64 bits. -/
def Reply.total (reply : Reply) : Except StoreError Nat := do
  let count ← reply.first (Row.amount? · "num_items")
  return (count.map fun n => (n.val % 0x10000000000000000).toNat).getD 0

/-- The answer to a request out of the reply to its statement. A transaction that it starts has the
handle `next`. -/
def answer (next : TxId) :
    (request : Request) → Reply → Except StoreError request.Answer
  | .beginTx, reply => do let _ ← reply.rows?; return next
  | .commit _, reply | .rollback _, reply | .lockAccount _ _, reply => do
    let _ ← reply.rows?
    return ()
  | .findEntries _, reply => do (← reply.all Entry.ofRow?).mapM id
  | .countEntries _, reply => reply.total
  | .findEntry _, reply | .findEntryIn _ _, reply | .lastEntry _ _, reply => do
    (← reply.first Entry.ofRow?).mapM id
  | .createEntry _ _, reply => reply.written Entry.ofRow?
  | .findPools _, reply | .openPools _ _, reply => reply.all CreditPool.ofRow?
  | .createPool _ _, reply | .updatePool _ _, reply => reply.written CreditPool.ofRow?
  | .findBalance _, reply | .balanceForUpdate _ _, reply => reply.first Balance.ofRow?
  | .createBalance _ _, reply | .updateBalance _ _, reply => reply.written Balance.ofRow?

end Sql
end PointLedger
