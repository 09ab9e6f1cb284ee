import PointLedger.Entry.Request
import PointLedger.Pool
/-!
How rows are found: a single entry by its id or by its reference, an account's entries by what they
are and when they were made, an account's pools.
-/

namespace PointLedger

/-- How to find a single entry. -/
inductive EntryLookup where
  | byId (id : EntryId)
  /-- By the caller's identifier within an organization. -/
  | byReference (organizationId referenceId : String)
  deriving DecidableEq, Repr

namespace EntryLookup

/-- True when the entry is the one that is looked for. -/
def isMatch (lookup : EntryLookup) (e : Entry) : Bool :=
  match lookup with
  | .byId id => e.id == id
  | .byReference organizationId referenceId => e.hasReference organizationId referenceId

/-- Reads a lookup: by id when there is one, by reference otherwise. -/
def ofJson? (value : Json) : Option EntryLookup := do
  let members ← value.asMembers?
  if Json.Members.has members "id" then return .byId (← EntryId.ofJson? (value.member "id"))
  else
    return .byReference (← (value.member "organization_id").asString?)
      (← (value.member "reference_id").asString?)

end EntryLookup

/-- Which of an account's entries to list. -/
structure EntryFilter where
  account : Account
  /-- Only entries of this kind. -/
  kind : Option EntryKind
  /-- No entry before this time. -/
  earliest : Option Timestamp
  /-- No entry after this time. -/
  latest : Option Timestamp
  order : SortOrder
  /-- Only this page of the listing. -/
  page : Option PageRequest
  deriving DecidableEq, Repr

namespace EntryFilter

/-- All entries of an account, oldest first. -/
def chain (account : Account) : EntryFilter := ⟨account, none, none, none, .ascending, none⟩

/-- Reads a filter; newest first unless it says otherwise. -/
def ofJson? (value : Json) : Option EntryFilter := do
  let members ← value.asMembers?
  let account ← Account.ofJson? (.object members)
  let order ← Json.asOption? SortOrder.ofJson? (value.member "order")
  return {
    account := account
    kind := ← Json.asOption? EntryKind.ofJson? (value.member "type")
    earliest := ← Json.asOption? Timestamp.ofJson? (value.member "from")
    latest := ← Json.asOption? Timestamp.ofJson? (value.member "to")
    order := order.getD .descending
    page := ← Json.asOption? PageRequest.ofJson? (value.member "page") }

/-- True when the entry is listed on some page. -/
def isMatch (filter : EntryFilter) (e : Entry) : Bool :=
  e.account == filter.account &&
    filter.kind.all (e.kind == ·) &&
    filter.earliest.all (decide <| · ≤ e.createdAt) &&
    filter.latest.all (decide <| e.createdAt ≤ ·)

/-- The entries that the filter lists, out of some entries. -/
def list (filter : EntryFilter) (entries : List Entry) : List Entry :=
  let found := Entry.sort (entries.filter filter.isMatch) filter.order
  match filter.page with
  | none => found
  | some page => page.slice found

/-- The number of entries that match, on all pages. -/
def count (filter : EntryFilter) (entries : List Entry) : Nat :=
  (entries.filter filter.isMatch).length

end EntryFilter

/-- Which of an account's pools to list. -/
structure PoolFilter where
  account : Account
  /-- Only pools with something left. -/
  openOnly : Bool
  deriving DecidableEq, Repr

namespace PoolFilter

/-- All pools of an account. -/
def all (account : Account) : PoolFilter := ⟨account, false⟩

/-- True when the pool is listed. -/
def isMatch (filter : PoolFilter) (p : CreditPool) : Bool :=
  p.account == filter.account && (!filter.openOnly || p.isOpen)

/-- The pools that the filter lists, out of some pools, oldest first. -/
def list (filter : PoolFilter) (pools : List CreditPool) : List CreditPool :=
  CreditPool.sort (pools.filter filter.isMatch)

end PoolFilter
end PointLedger
