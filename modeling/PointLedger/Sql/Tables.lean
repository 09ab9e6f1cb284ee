import PointLedger.Balance
import PointLedger.Entry.Basic
import PointLedger.Pool
import PointLedger.Sql.Statement
/-!
The tables of the ledger, and the rows that entries, pools and balances are kept in. Reading a row
that was written gives back what was written.
-/

namespace PointLedger
namespace Sql

def entryTable : Table where
  name := "ledger_entries"
  columns := Entry.fieldNames
  enumerations := [("type", "ledger_entry_type")]

def poolTable : Table where
  name := "credit_pools"
  columns := CreditPool.fieldNames

def balanceTable : Table where
  name := "balances"
  columns := Balance.fieldNames

namespace Row

/-- The value of a column. -/
def get? (row : Row) (column : String) : Option Value := List.lookup column row

/-- The value of a column of identifiers. -/
def uuid? (row : Row) (column : String) : Option Uuid :=
  match get? row column with
  | some (.uuid id) => some id
  | _ => none

/-- The value of a column of text. -/
def text? (row : Row) (column : String) : Option String :=
  match get? row column with
  | some (.text value) => some value
  | _ => none

/-- The value of a column of amounts. -/
def amount? (row : Row) (column : String) : Option Amount :=
  match get? row column with
  | some (.int value) => Amount.ofInt? value
  | _ => none

/-- The value of a column of times. -/
def time? (row : Row) (column : String) : Option Timestamp :=
  match get? row column with
  | some (.time value) => some value
  | _ => none

/-- The value of a column of JSON values. -/
def json? (row : Row) (column : String) : Option Json :=
  match get? row column with
  | some (.json value) => some value
  | _ => none

end Row
end Sql

open Sql

/-! ### Entries -/

/-- The stored metadata of an entry cannot be decoded. -/
def StoreError.metadataUnreadable : StoreError := .serialization "metadata of a ledger entry"

namespace Entry

/-- The row of an entry. -/
def toRow (e : Entry) : Row := [
  ("id", .uuid e.id.uuid),
  ("organization_id", .text e.organizationId),
  ("user_id", .text e.userId),
  ("type", .text e.kind.name),
  ("amount", .int e.amount.val),
  ("transaction_id", .text e.transactionId),
  ("reference_id", .text e.referenceId),
  ("description", .text e.description),
  ("metadata", .json e.metadata.toJson),
  ("previous_hash", .text e.previousHash),
  ("hash", .text e.hash),
  ("created_at", .time e.createdAt)]

/-- Reads the row of an entry. Without one of its columns there is no entry at all; a row whose
metadata cannot be decoded is that of an entry which cannot be read. -/
def ofRow? (row : Row) : Option (Except StoreError Entry) := do
  let stored ← Row.json? row "metadata"
  let entry : Entry := {
    id := ⟨← Row.uuid? row "id"⟩
    organizationId := ← Row.text? row "organization_id"
    userId := ← Row.text? row "user_id"
    kind := ← (Row.text? row "type").bind EntryKind.ofName?
    amount := ← Row.amount? row "amount"
    transactionId := ← Row.text? row "transaction_id"
    referenceId := ← Row.text? row "reference_id"
    description := ← Row.text? row "description"
    metadata := {}
    previousHash := ← Row.text? row "previous_hash"
    hash := ← Row.text? row "hash"
    createdAt := ← Row.time? row "created_at" }
  match Metadata.ofStored? stored with
  | some decoded => return .ok { entry with metadata := decoded }
  | none => return .error .metadataUnreadable

end Entry

/-! ### Pools -/

namespace CreditPool

/-- The row of a pool. -/
def toRow (p : CreditPool) : Row := [
  ("id", .uuid p.id.uuid),
  ("organization_id", .text p.organizationId),
  ("user_id", .text p.userId),
  ("ledger_entry_id", .uuid p.entryId.uuid),
  ("remaining", .int p.remaining.val),
  ("created_at", .time p.createdAt),
  ("consumed_at", (p.consumedAt.map Value.time).getD .null)]

/-- Reads the row of a pool; what is no time in the last column counts as none. -/
def ofRow? (row : Row) : Option CreditPool := do
  return {
    id := ⟨← Row.uuid? row "id"⟩
    organizationId := ← Row.text? row "organization_id"
    userId := ← Row.text? row "user_id"
    entryId := ⟨← Row.uuid? row "ledger_entry_id"⟩
    remaining := ← Row.amount? row "remaining"
    createdAt := ← Row.time? row "created_at"
    consumedAt := Row.time? row "consumed_at" }

end CreditPool

/-! ### Balances -/

namespace Balance

/-- The row of a balance. -/
def toRow (b : Balance) : Row := [
  ("id", .uuid b.id.uuid),
  ("organization_id", .text b.organizationId),
  ("user_id", .text b.userId),
  ("balance", .int b.balance.val),
  ("created_at", .time b.createdAt),
  ("updated_at", .time b.updatedAt)]

/-- Reads the row of a balance. -/
def ofRow? (row : Row) : Option Balance := do
  return {
    id := ⟨← Row.uuid? row "id"⟩
    organizationId := ← Row.text? row "organization_id"
    userId := ← Row.text? row "user_id"
    balance := ← Row.amount? row "balance"
    createdAt := ← Row.time? row "created_at"
    updatedAt := ← Row.time? row "updated_at" }

end Balance
end PointLedger
