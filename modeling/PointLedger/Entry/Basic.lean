import PointLedger.Account
import PointLedger.Entry.Kind
import PointLedger.Entry.Metadata
import PointLedger.Page
import PointLedger.Time.Text
/-!
Ledger entries: the links of an account's hash chain.
-/

namespace PointLedger

/-- A ledger entry. -/
structure Entry where
  id : EntryId
  organizationId : String
  userId : String
  kind : EntryKind
  /-- The amount in minor units. -/
  amount : Amount
  /-- The identifier the ledger gave: a date and six hexadecimal digits. -/
  transactionId : String
  /-- The identifier the caller gave, unique within the organization. -/
  referenceId : String
  description : String
  /-- What the entry drew on or reverts, and the caller's keys; not hashed. -/
  metadata : Metadata
  /-- The hash of the entry before it in the chain. -/
  previousHash : String
  /-- The digest of the hashed fields. -/
  hash : String
  /-- The entry's place in the chain. -/
  createdAt : Timestamp
  deriving DecidableEq, Repr, Inhabited

namespace Entry

/-- The account that the entry belongs to. -/
def account (e : Entry) : Account := ⟨e.organizationId, e.userId⟩

/-- True when the entry reverts another one. -/
def isReversal (e : Entry) : Bool := e.metadata.reverts.isSome

/-- True when the entry has this reference within this organization. -/
def hasReference (e : Entry) (organizationId referenceId : String) : Bool :=
  e.organizationId == organizationId && e.referenceId == referenceId

/-- Entries are ordered by time, then by id. -/
def le (a b : Entry) : Bool :=
  a.createdAt < b.createdAt || (a.createdAt ≤ b.createdAt && EntryId.le a.id b.id)

/-- The entries in the order asked for; ascending keeps the order of equals, and descending turns
the whole list around. -/
def sort (entries : List Entry) : SortOrder → List Entry
  | .ascending => entries.mergeSort le
  | .descending => (entries.mergeSort le).reverse

/-- The last of the entries in ascending order. -/
def latest? (entries : List Entry) : Option Entry :=
  entries.foldl
    (fun best e =>
      match best with
      | none => some e
      | some b => if le b e then some e else some b)
    none

/-- The fields of an entry, in the order in which an array lists them. -/
def fieldNames : List String :=
  ["id", "organization_id", "user_id", "type", "amount", "transaction_id", "reference_id",
    "description", "metadata", "previous_hash", "hash", "created_at"]

def toJson (e : Entry) : Json :=
  .object [
    ("id", e.id.toJson),
    ("organization_id", .string e.organizationId),
    ("user_id", .string e.userId),
    ("type", e.kind.toJson),
    ("amount", e.amount.toJson),
    ("transaction_id", .string e.transactionId),
    ("reference_id", .string e.referenceId),
    ("description", .string e.description),
    ("metadata", e.metadata.toJson),
    ("previous_hash", .string e.previousHash),
    ("hash", .string e.hash),
    ("created_at", e.createdAt.toJson)]

def ofJson? (value : Json) : Option Entry := do
  let fields ← Json.fields? fieldNames value
  return {
    id := ← fields.required "id" EntryId.ofJson?
    organizationId := ← fields.required "organization_id" Json.asString?
    userId := ← fields.required "user_id" Json.asString?
    kind := ← fields.required "type" EntryKind.ofJson?
    amount := ← fields.required "amount" Amount.ofJson?
    transactionId := ← fields.required "transaction_id" Json.asString?
    referenceId := ← fields.required "reference_id" Json.asString?
    description := ← fields.required "description" Json.asString?
    metadata := ← fields.required "metadata" Metadata.ofJson?
    previousHash := ← fields.required "previous_hash" Json.asString?
    hash := ← fields.required "hash" Json.asString?
    createdAt := ← fields.required "created_at" Timestamp.ofJson? }

end Entry
end PointLedger
