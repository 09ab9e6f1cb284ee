import PointLedger.Entry.Request
/-!
The query of a request for a page of entries. Every part may be left out; a part that is given
twice or that cannot be read is refused, and pairs with other names are passed over.
-/

namespace PointLedger.Http

/-- What a query asks for. -/
structure ListQuery where
  kind : Option EntryKind := none
  earliest : Option Timestamp := none
  latest : Option Timestamp := none
  order : Option SortOrder := none
  page : Option UInt32 := none
  perPage : Option UInt32 := none
  deriving DecidableEq, Repr

namespace ListQuery

/-- A number of 32 bits in digits, with or without a plus sign. -/
def number? (text : String) : Option UInt32 := do
  let n ← Text.natOfText? text
  if n < UInt32.size then some (UInt32.ofNat n) else none

/-- Reads a part from the pairs with its name. -/
def part? {α : Type} (pairs : List (String × String)) (name : String)
    (read : String → Option α) : Option (Option α) :=
  match pairs.filter (·.1 == name) with
  | [] => some none
  | [pair] => (read pair.2).map some
  | _ => none

/-- Reads the pairs of a query. -/
def ofPairs? (pairs : List (String × String)) : Option ListQuery := do
  return {
    kind := ← part? pairs "type" EntryKind.ofName?
    earliest := ← part? pairs "from" Timestamp.ofText?
    latest := ← part? pairs "to" Timestamp.ofText?
    order := ← part? pairs "order" SortOrder.ofName?
    page := ← part? pairs "page" number?
    perPage := ← part? pairs "per_page" number? }

/-- The query for an account's entries; what is left out has its standard value. -/
def forAccount (q : ListQuery) (account : Account) : EntryQuery where
  account := account
  kind := q.kind
  earliest := q.earliest
  latest := q.latest
  order := q.order.getD .descending
  page := ⟨q.page.getD PageRequest.standard.page, q.perPage.getD PageRequest.standard.perPage⟩

end ListQuery
end PointLedger.Http
