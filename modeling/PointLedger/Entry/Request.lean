import PointLedger.Entry.Basic
/-!
What callers ask for: a new entry, and a page of an account's entries.
-/

namespace PointLedger

/-- A request for a new credit or debit. -/
structure EntryRequest where
  organizationId : String
  userId : String
  kind : EntryKind
  amount : Amount
  /-- The caller's identifier; a second entry with it is refused. -/
  referenceId : String
  description : String := ""
  /-- The caller's metadata. -/
  metadata : Json.Members := []
  deriving DecidableEq, Repr, Inhabited

namespace EntryRequest

/-- The account that the entry is for. -/
def account (r : EntryRequest) : Account := ⟨r.organizationId, r.userId⟩

/-- The fields of a request, in the order in which an array lists them. -/
def fieldNames : List String :=
  ["organization_id", "user_id", "type", "amount", "reference_id", "description", "metadata"]

def toJson (r : EntryRequest) : Json :=
  .object [
    ("organization_id", .string r.organizationId),
    ("user_id", .string r.userId),
    ("type", r.kind.toJson),
    ("amount", r.amount.toJson),
    ("reference_id", .string r.referenceId),
    ("description", .string r.description),
    ("metadata", .object r.metadata)]

def ofJson? (value : Json) : Option EntryRequest := do
  let fields ← Json.fields? fieldNames value
  return {
    organizationId := ← fields.required "organization_id" Json.asString?
    userId := ← fields.required "user_id" Json.asString?
    kind := ← fields.required "type" EntryKind.ofJson?
    amount := ← fields.required "amount" Amount.ofJson?
    referenceId := ← fields.required "reference_id" Json.asString?
    description := ← fields.defaulted "description" "" Json.asString?
    metadata := ← fields.defaulted "metadata" [] Json.asMembers? }

end EntryRequest

/-- A request for one page of an account's entries. -/
structure EntryQuery where
  account : Account
  /-- Only entries of this kind. -/
  kind : Option EntryKind := none
  /-- No entry before this time. -/
  earliest : Option Timestamp := none
  /-- No entry after this time. -/
  latest : Option Timestamp := none
  order : SortOrder := .descending
  page : PageRequest := .standard
  deriving DecidableEq, Repr

namespace EntryQuery

def toJson (q : EntryQuery) : Json :=
  .object [
    ("key", q.account.toJson),
    ("type", Json.option EntryKind.toJson q.kind),
    ("from", Json.option Timestamp.toJson q.earliest),
    ("to", Json.option Timestamp.toJson q.latest),
    ("order", q.order.toJson),
    ("page", q.page.toJson)]

/-- Reads a query whose fields all stand on one level; all but the account may be left out. -/
def ofJson? (value : Json) : Option EntryQuery := do
  let members ← value.asMembers?
  let account ← Account.ofJson? (.object members)
  let order ← Json.asOption? SortOrder.ofJson? (value.member "order")
  let page ← Json.asOption? Json.asUInt32? (value.member "page")
  let perPage ← Json.asOption? Json.asUInt32? (value.member "per_page")
  return {
    account := account
    kind := ← Json.asOption? EntryKind.ofJson? (value.member "type")
    earliest := ← Json.asOption? Timestamp.ofJson? (value.member "from")
    latest := ← Json.asOption? Timestamp.ofJson? (value.member "to")
    order := order.getD .descending
    page := ⟨page.getD PageRequest.standard.page, perPage.getD PageRequest.standard.perPage⟩ }

end EntryQuery

end PointLedger
