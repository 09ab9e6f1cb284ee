import PointLedger.Account
import PointLedger.Error
import PointLedger.Time.Text
/-!
The balance row of an account, and what readers see of it.
-/

namespace PointLedger

/-- The one balance row of an account. -/
structure Balance where
  id : BalanceId
  organizationId : String
  userId : String
  /-- The current balance; reversals may take it below zero. -/
  balance : Amount
  /-- The time of the first credit. -/
  createdAt : Timestamp
  /-- The time of the last change. -/
  updatedAt : Timestamp
  deriving DecidableEq, Repr, Inhabited

/-- A balance as readers see it. -/
structure BalanceSnapshot where
  organizationId : String
  userId : String
  balance : Amount
  /-- Absent until the first credit. -/
  lastUpdatedAt : Option Timestamp
  deriving DecidableEq, Repr

namespace BalanceSnapshot

/-- What readers see of an account without a balance row. -/
def empty (account : Account) : BalanceSnapshot :=
  ⟨account.organizationId, account.userId, Amount.zero, none⟩

def toJson (s : BalanceSnapshot) : Json :=
  .object [
    ("organization_id", .string s.organizationId),
    ("user_id", .string s.userId),
    ("balance", s.balance.toJson),
    ("last_updated_at", Json.option Timestamp.toJson s.lastUpdatedAt)]

end BalanceSnapshot

namespace Balance

/-- The row of an account's first credit. -/
def opened (id : BalanceId) (account : Account) (amount : Amount) (time : Timestamp) : Balance :=
  ⟨id, account.organizationId, account.userId, amount, time, time⟩

/-- The account that the row belongs to. -/
def account (b : Balance) : Account := ⟨b.organizationId, b.userId⟩

/-- The row after a change at a point in time; a change beyond the range of amounts is refused. -/
def apply (b : Balance) (delta : Amount) (time : Timestamp) : Except LedgerError Balance :=
  match b.balance.add? delta with
  | some sum => pure { b with balance := sum, updatedAt := time }
  | none => throw (.balanceOverflow delta b.balance)

/-- What readers see of the row. -/
def snapshot (b : Balance) : BalanceSnapshot :=
  ⟨b.organizationId, b.userId, b.balance, some b.updatedAt⟩

/-- The fields of a row, in the order in which an array lists them. -/
def fieldNames : List String :=
  ["id", "organization_id", "user_id", "balance", "created_at", "updated_at"]

def toJson (b : Balance) : Json :=
  .object [
    ("id", b.id.toJson),
    ("organization_id", .string b.organizationId),
    ("user_id", .string b.userId),
    ("balance", b.balance.toJson),
    ("created_at", b.createdAt.toJson),
    ("updated_at", b.updatedAt.toJson)]

def ofJson? (value : Json) : Option Balance := do
  let fields ← Json.fields? fieldNames value
  return {
    id := ← fields.required "id" BalanceId.ofJson?
    organizationId := ← fields.required "organization_id" Json.asString?
    userId := ← fields.required "user_id" Json.asString?
    balance := ← fields.required "balance" Amount.ofJson?
    createdAt := ← fields.required "created_at" Timestamp.ofJson?
    updatedAt := ← fields.required "updated_at" Timestamp.ofJson? }

end Balance

/-- What readers see of an account whose balance row may be missing. -/
def Account.snapshot (account : Account) (balance : Option Balance) : BalanceSnapshot :=
  match balance with
  | some b => b.snapshot
  | none => BalanceSnapshot.empty account

end PointLedger
