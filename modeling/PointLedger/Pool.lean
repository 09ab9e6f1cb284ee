import PointLedger.Account
import PointLedger.Amount
import PointLedger.Time.Text
import PointLedger.Uuid
/-!
Credit pools. Every credit opens a pool that holds the part of the credit not yet spent.
-/

namespace PointLedger

/-- The unspent part of one credit. -/
structure CreditPool where
  id : PoolId
  organizationId : String
  userId : String
  /-- The credit that opened the pool. -/
  entryId : EntryId
  /-- The amount not yet spent. -/
  remaining : Amount
  /-- The pool's place in the order of spending. -/
  createdAt : Timestamp
  /-- The last time that the pool was drawn on. -/
  consumedAt : Option Timestamp
  deriving DecidableEq, Repr, Inhabited

namespace CreditPool

/-- The pool of a new credit. -/
def opened (id : PoolId) (account : Account) (entryId : EntryId) (amount : Amount)
    (time : Timestamp) : CreditPool :=
  ⟨id, account.organizationId, account.userId, entryId, amount, time, none⟩

/-- The account that the pool belongs to. -/
def account (p : CreditPool) : Account := ⟨p.organizationId, p.userId⟩

/-- True while the pool has something to give. -/
def isOpen (p : CreditPool) : Bool := p.remaining.isPositive

/-- Pools are ordered by time, then by id. -/
def le (a b : CreditPool) : Bool :=
  a.createdAt < b.createdAt ||
    (a.createdAt ≤ b.createdAt && decide (a.id.uuid.value ≤ b.id.uuid.value))

/-- The pools, oldest first. -/
def sort (pools : List CreditPool) : List CreditPool := pools.mergeSort le

/-- The fields of a pool, in the order in which an array lists them. -/
def fieldNames : List String :=
  ["id", "organization_id", "user_id", "ledger_entry_id", "remaining", "created_at",
    "consumed_at"]

def toJson (p : CreditPool) : Json :=
  .object [
    ("id", p.id.toJson),
    ("organization_id", .string p.organizationId),
    ("user_id", .string p.userId),
    ("ledger_entry_id", p.entryId.toJson),
    ("remaining", p.remaining.toJson),
    ("created_at", p.createdAt.toJson),
    ("consumed_at", Json.option Timestamp.toJson p.consumedAt)]

def ofJson? (value : Json) : Option CreditPool := do
  let fields ← Json.fields? fieldNames value
  return {
    id := ← fields.required "id" PoolId.ofJson?
    organizationId := ← fields.required "organization_id" Json.asString?
    userId := ← fields.required "user_id" Json.asString?
    entryId := ← fields.required "ledger_entry_id" EntryId.ofJson?
    remaining := ← fields.required "remaining" Amount.ofJson?
    createdAt := ← fields.required "created_at" Timestamp.ofJson?
    consumedAt := ← fields.optional "consumed_at" Timestamp.ofJson? }

end CreditPool
end PointLedger
