import PointLedger.Page
import PointLedger.Time.Text
import PointLedger.Uuid
/-!
SQL statements as data. A select names a table, what its rows have to meet, their order and which
of them are wanted; what it means is a filter, a sort and a cut. Values travel beside the text of a
statement, in the order of the places that the text leaves for them.
-/

namespace PointLedger.Sql

/-- A value that travels with a statement or stands in a row. -/
inductive Value where
  | null
  | uuid (id : Uuid)
  | text (value : String)
  | int (value : Int)
  | time (value : Timestamp)
  | json (value : Json)
  deriving DecidableEq, Repr, Inhabited

/-- A row: the values of its columns by name. -/
abbrev Row := List (String × Value)

/-- A table. -/
structure Table where
  name : String
  columns : List String
  /-- The columns of an enumeration type, with that type; their values travel as text. -/
  enumerations : List (String × String) := []
  deriving DecidableEq, Repr

/-- The enumeration type of a column. -/
def Table.enumeration? (table : Table) (column : String) : Option String :=
  List.lookup column table.enumerations

/-- How a column is compared with a value. -/
inductive Comparison where
  | equal
  | greater
  | atLeast
  | atMost
  deriving DecidableEq, Repr

/-- What a column has to meet. -/
structure Condition where
  column : String
  comparison : Comparison
  value : Value
  deriving DecidableEq, Repr

/-- A query for rows of one table. -/
structure Select where
  table : Table
  /-- Every row meets all of these. -/
  conditions : List Condition
  /-- The columns to sort by, the first one first. -/
  order : List (String × SortOrder) := []
  /-- The largest number of rows. -/
  limit : Option Nat := none
  /-- The number of rows to leave out at the start. -/
  offset : Option Nat := none
  /-- Locks the rows for the rest of the transaction. -/
  forUpdate : Bool := false
  deriving DecidableEq, Repr

/-- A statement. -/
inductive Statement where
  | beginTx
  | commit
  | rollback
  | select (query : Select)
  /-- Counts the rows of a query. -/
  | count (query : Select)
  /-- Adds a row and gives it back. -/
  | insert (table : Table) (row : Row)
  /-- Changes columns of the rows that meet a condition and gives these rows back. -/
  | update (table : Table) (changes : Row) (condition : Condition)
  /-- A statement in its own words. -/
  | text (sql : String) (values : List Value)
  deriving DecidableEq, Repr

/-- The values of a query, in the order of their places. -/
def Select.values (query : Select) : List Value :=
  let number (n : Option Nat) : List Value := n.toList.map fun (n : Nat) => .int n
  query.conditions.map Condition.value ++ number query.limit ++ number query.offset

/-- The values of a statement, in the order of their places. -/
def Statement.values : Statement → List Value
  | .beginTx | .commit | .rollback => []
  | .select query | .count query => query.values
  | .insert _ row => row.map Prod.snd
  | .update _ changes condition => changes.map Prod.snd ++ [condition.value]
  | .text _ values => values

end PointLedger.Sql
