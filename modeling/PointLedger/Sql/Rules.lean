import PointLedger.Sql.Meaning
/-!
The rules that the schema sets for the rows of its tables, and the statements that a database under
these rules carries out. A row that is written keeps to the sizes and the checks of its table, takes
no key of another row and names only rows that are there; and the triggers let a changed row become
what it becomes. A value that the type of its column does not have at all, such as a time out of
range, is no matter of these rules.
-/

namespace PointLedger.Sql

/-- A foreign key: what stands in a column stands in a column of some row of a table. -/
structure Reference where
  column : String
  table : Table
  target : String
  deriving DecidableEq, Repr

/-- The rules of a table. -/
structure Rules where
  table : Table
  /-- The columns that may be NULL. -/
  optional : List String := []
  /-- The most characters of a text, by its column. -/
  sizes : List (String × Nat)
  /-- What every row meets. -/
  checks : List Condition := []
  /-- The columns that tell rows apart; the first key is the primary one. -/
  keys : List (List String)
  references : List Reference := []
  /-- A trigger refuses every change of a row. -/
  appendOnly : Bool := false
  /-- The columns that a trigger lets nobody change. -/
  kept : List String := []
  /-- The columns that a trigger lets nobody raise. -/
  falling : List String := []
  deriving DecidableEq, Repr

def entryRules : Rules where
  table := entryTable
  sizes := [("organization_id", 255), ("user_id", 255), ("transaction_id", 32),
    ("reference_id", 255), ("description", 1024), ("previous_hash", 64), ("hash", 64)]
  checks := [⟨"amount", .greater, .int 0⟩]
  keys := [["id"], ["organization_id", "reference_id"]]
  appendOnly := true

def poolRules : Rules where
  table := poolTable
  optional := ["consumed_at"]
  sizes := [("organization_id", 255), ("user_id", 255)]
  checks := [⟨"remaining", .atLeast, .int 0⟩]
  keys := [["id"], ["ledger_entry_id"]]
  references := [⟨"ledger_entry_id", entryTable, "id"⟩]
  kept := ["ledger_entry_id", "organization_id", "user_id", "created_at"]
  falling := ["remaining"]

def balanceRules : Rules where
  table := balanceTable
  sizes := [("organization_id", 255), ("user_id", 255)]
  keys := [["id"], ["organization_id", "user_id"]]

namespace Schema

/-- The rules of all tables. -/
def rules : List Rules := [entryRules, poolRules, balanceRules]

end Schema

namespace Row

/-- What a row holds in the columns of a key. -/
def key (row : Row) (columns : List String) : List (Option Value) := columns.map (get? row)

/-- A row with other values in some columns. -/
def change (row changes : Row) : Row :=
  row.map fun (column, value) => (column, (get? changes column).getD value)

end Row

namespace Rules

/-- True when a row has a value where one is required, no text of it is too long, and it meets the
checks. -/
def fits (rules : Rules) (row : Row) : Bool :=
  (rules.table.columns.all fun column =>
    rules.optional.contains column || (Row.get? row column).any (· != .null)) &&
  (rules.sizes.all fun (column, most) => (Row.text? row column).all (·.length ≤ most)) &&
  rules.checks.all (·.accepts row)

/-- True when the triggers let a row become another one. -/
def permits (rules : Rules) (old new : Row) : Bool :=
  !rules.appendOnly &&
  (rules.kept.all fun column => Row.get? new column == Row.get? old column) &&
  rules.falling.all fun column =>
    (Row.get? old column).all fun value => !(⟨column, .greater, value⟩ : Condition).accepts new

end Rules

namespace Database

/-- Some row has in the column that a foreign key names what a row has in its own. -/
def Names (db : Database) (reference : Reference) (row : Row) : Prop :=
  ∃ other ∈ db.rows reference.table.name,
    Row.get? other reference.target = Row.get? row reference.column

/-- Under its rules a table takes a new row. -/
structure Takes (db : Database) (rules : Rules) (row : Row) : Prop where
  fits : rules.fits row = true
  unique : ∀ key ∈ rules.keys, ∀ other ∈ db.rows rules.table.name,
    Row.key other key ≠ Row.key row key
  names : ∀ reference ∈ rules.references, db.Names reference row

/-- Under its rules a table lets a row become another one. Only a key or a reference that is not the
old one has to be looked up. -/
structure Lets (db : Database) (rules : Rules) (old new : Row) : Prop where
  permits : rules.permits old new = true
  fits : rules.fits new = true
  unique : ∀ key ∈ rules.keys, Row.key new key = Row.key old key ∨
    ∀ other ∈ db.rows rules.table.name, Row.key other key ≠ Row.key new key
  names : ∀ reference ∈ rules.references,
    Row.get? new reference.column = Row.get? old reference.column ∨ db.Names reference new

/-- No rule of the schema keeps a database from carrying out a statement. -/
inductive Admits (db : Database) : Statement → Prop where
  | insert {rules : Rules} {row : Row} (known : rules ∈ Schema.rules) (takes : db.Takes rules row) :
      Admits db (.insert rules.table row)
  | update {rules : Rules} {changes : Row} {condition : Condition} (known : rules ∈ Schema.rules)
      (lets : ∀ row ∈ db.rows rules.table.name, condition.accepts row = true →
        db.Lets rules row (Row.change row changes)) :
      Admits db (.update rules.table changes condition)

/-- The database with other rows in one table. -/
def put (db : Database) (table : Table) (rows : List Row) : Database :=
  ⟨fun name => if name = table.name then rows else db.rows name⟩

/-- The database once a statement that writes rows is carried out. -/
def after (db : Database) : Statement → Database
  | .insert table row => db.put table (db.rows table.name ++ [row])
  | .update table changes condition =>
    db.put table ((db.rows table.name).map fun row =>
      if condition.accepts row then Row.change row changes else row)
  | _ => db

end Database
end PointLedger.Sql
