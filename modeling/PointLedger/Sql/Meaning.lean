import PointLedger.Sql.Exchange
import PointLedger.Store.Memory
/-!
What a database replies to a query. A row meets a condition when the column has a value that
compares with the given one as asked; NULL compares with nothing. Rows are sorted by the first
column of the order, rows that are alike there by the next one, and NULL comes after every value.
What the order leaves open is up to the database, so a query may have more than one reply. The locks
that a query takes have no part in it.
-/

namespace PointLedger

/-- A comparison as it counts in a direction. -/
def SortOrder.turn : SortOrder → Ordering → Ordering
  | .ascending, found => found
  | .descending, found => found.swap

namespace Sql

/-! ### Comparing -/

/-- How two values of one type compare. Text goes by its characters, an identifier by its number,
a time by its rank; NULL and JSON values compare with nothing. -/
def Value.compare? : Value → Value → Option Ordering
  | .uuid a, .uuid b => some (compare a.value b.value)
  | .text a, .text b => some (compare a b)
  | .int a, .int b => some (compare a b)
  | .time a, .time b => some (compare a.rank b.rank)
  | _, _ => none

/-- How two values of one column sort. -/
def Value.place : Value → Value → Ordering
  | .null, .null => .eq
  | .null, _ => .gt
  | _, .null => .lt
  | a, b => (a.compare? b).getD .eq

def Comparison.holds : Comparison → Ordering → Bool
  | .equal, found => found.isEq
  | .greater, found => found.isGT
  | .atLeast, found => found.isGE
  | .atMost, found => found.isLE

/-- True when a row meets a condition. -/
def Condition.accepts (condition : Condition) (row : Row) : Bool :=
  ((Row.get? row condition.column).bind (·.compare? condition.value)).any condition.comparison.holds

namespace Select

/-- True when a row meets every condition of a query. -/
def accepts (query : Select) (row : Row) : Bool := query.conditions.all (·.accepts row)

/-- How two rows sort. -/
def place (query : Select) (r s : Row) : Ordering :=
  let value (row : Row) (column : String) : Value := (Row.get? row column).getD .null
  query.order.foldr
    (fun (column, order) later => (order.turn ((value r column).place (value s column))).then later)
    .eq

/-- The rows that are wanted, out of the sorted ones. -/
def cut {α : Type} (query : Select) (sorted : List α) : List α :=
  let rest := sorted.drop (query.offset.getD 0)
  match query.limit with
  | none => rest
  | some n => rest.take n

/-- Out of the rows of its table, a query may list these. -/
def Yields (query : Select) (rows found : List Row) : Prop :=
  ∃ sorted, sorted.Perm (rows.filter query.accepts) ∧
    sorted.Pairwise (fun r s => (query.place r s).isLE = true) ∧ found = query.cut sorted

end Select

/-! ### Replying -/

/-- The rows of each table, by its name. -/
structure Database where
  rows : String → List Row

/-- A database may reply this to a statement that only reads. -/
inductive Database.Replies (db : Database) : Statement → Reply → Prop where
  | select {query : Select} {found : List Row}
    (yields : query.Yields (db.rows query.table.name) found) :
    Replies db (.select query) (.rows found)
  | count {query : Select} {found : List Row}
    (yields : query.Yields (db.rows query.table.name) found) :
    Replies db (.count query) (.rows [[("num_items", .int found.length)]])

/-- The answer to a request, whatever the database replies to its statement; and it does reply. -/
def Database.Answers (db : Database) (request : Request)
    (found : Except StoreError request.Answer) : Prop :=
  (∃ reply, db.Replies (statement request) reply) ∧
    ∀ reply, db.Replies (statement request) reply → ∀ next, answer next request reply = found

/-- The tables that hold the rows of some books. -/
def Database.holding (b : Books) : Database where
  rows name :=
    if name = entryTable.name then b.entries.map Entry.toRow
    else if name = poolTable.name then b.pools.map CreditPool.toRow
    else if name = balanceTable.name then b.balances.map Balance.toRow
    else []

end Sql
end PointLedger
