import PointLedger.Sql.Statement
/-!
The text of SQL statements. A place for a value is a dollar sign and a number, counted from 1 over
the whole statement. Names stand in double quotes; a select qualifies columns by their table, an
insert and what a change gives back do not. A column of an enumeration type is cast to text when it
is read and from text when it is written or compared.
-/

namespace PointLedger.Sql

/-- A name in double quotes. -/
def quoted (name : String) : String := "\"" ++ name ++ "\""

/-- The place of the value with a number. -/
def place (number : Nat) : String := "$" ++ toString number

/-- An expression cast to a type. -/
def cast (expression type : String) : String := "CAST(" ++ expression ++ " AS " ++ quoted type ++ ")"

/-- Items with commas between them. -/
def commas (items : List String) : String := ", ".intercalate items

namespace Table

/-- A column with the name of its table. -/
def qualified (table : Table) (column : String) : String :=
  quoted table.name ++ "." ++ quoted column

/-- How a column is read, given how it is named. -/
def reading (table : Table) (named : String → String) (column : String) : String :=
  match table.enumeration? column with
  | none => named column
  | some _ => cast (named column) "text"

/-- How a value is written to a column, given its place. -/
def writing (table : Table) (column : String) (number : Nat) : String :=
  match table.enumeration? column with
  | none => place number
  | some type => cast (place number) type

/-- All columns of changed rows. -/
def returning (table : Table) : String :=
  " RETURNING " ++ commas (table.columns.map (table.reading quoted))

end Table

/-- The sign of a comparison. -/
def Comparison.sign : Comparison → String
  | .equal => "="
  | .greater => ">"
  | .atLeast => ">="
  | .atMost => "<="

/-- A condition whose value has a number. -/
def Condition.text (table : Table) (condition : Condition) (number : Nat) : String :=
  let value :=
    match table.enumeration? condition.column with
    | none => place number
    | some type => "(" ++ cast (place number) type ++ ")"
  table.qualified condition.column ++ " " ++ condition.comparison.sign ++ " " ++ value

/-- The word for a direction. -/
def direction : SortOrder → String
  | .ascending => "ASC"
  | .descending => "DESC"

/-- The text of a query. -/
def Select.text (query : Select) : String :=
  let table := query.table
  let conditions := (query.conditions.zipIdx 1).map fun (condition, n) => condition.text table n
  let keys := query.order.map fun (column, order) =>
    table.qualified column ++ " " ++ direction order
  let clause (word separator : String) (items : List String) : String :=
    if items.isEmpty then "" else word ++ separator.intercalate items
  let placed (word : String) (value : Option Nat) (number : Nat) : String :=
    if value.isSome then word ++ place number else ""
  let next := query.conditions.length + 1
  "SELECT " ++ commas (table.columns.map (table.reading table.qualified)) ++
    " FROM " ++ quoted table.name ++
    clause " WHERE " " AND " conditions ++
    clause " ORDER BY " ", " keys ++
    placed " LIMIT " query.limit next ++
    placed " OFFSET " query.offset (next + query.limit.toList.length) ++
    (if query.forUpdate then " FOR UPDATE" else "")

/-- The text of a statement. -/
def Statement.sql : Statement → String
  | .beginTx => "BEGIN"
  | .commit => "COMMIT"
  | .rollback => "ROLLBACK"
  | .select query => query.text
  | .count query =>
    "SELECT COUNT(*) AS num_items FROM (" ++ query.text ++ ") AS " ++ quoted "sub_query"
  | .insert table row =>
    let columns := row.map Prod.fst
    "INSERT INTO " ++ quoted table.name ++ " (" ++ commas (columns.map quoted) ++ ") VALUES (" ++
      commas ((columns.zipIdx 1).map fun (column, n) => table.writing column n) ++ ")" ++
      table.returning
  | .update table changes condition =>
    let changed := ((changes.map Prod.fst).zipIdx 1).map fun (column, n) =>
      quoted column ++ " = " ++ table.writing column n
    "UPDATE " ++ quoted table.name ++ " SET " ++ commas changed ++ " WHERE " ++
      condition.text table (changes.length + 1) ++ table.returning
  | .text sql _ => sql

end PointLedger.Sql
