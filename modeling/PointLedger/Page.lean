import PointLedger.Json.Decode
/-!
Pages of a listing, counted from 1, and the direction in which a listing is sorted.
-/

namespace PointLedger

/-- The direction of a listing over time. -/
inductive SortOrder where
  /-- Oldest first. -/
  | ascending
  /-- Newest first. -/
  | descending
  deriving DecidableEq, Repr, Inhabited

namespace SortOrder

/-- The name of a direction. -/
def name : SortOrder → String
  | .ascending => "asc"
  | .descending => "desc"

/-- The direction with a name, in exactly these letters. -/
def ofName? (s : String) : Option SortOrder :=
  if s = "asc" then some .ascending else if s = "desc" then some .descending else none

def toJson (order : SortOrder) : Json := .string order.name
def ofJson? (value : Json) : Option SortOrder := (Json.asName? value).bind ofName?

end SortOrder

/-- One page that a caller asks for. -/
structure PageRequest where
  /-- The number of the page, from 1. -/
  page : UInt32
  /-- The number of items on a page. -/
  perPage : UInt32
  deriving DecidableEq, Repr

namespace PageRequest

/-- The first page of twenty items. -/
def standard : PageRequest := ⟨1, 20⟩

instance : Inhabited PageRequest := ⟨standard⟩

/-- The request with a page of at least 1, and at least 1 and at most `limit` items; a limit of 0
counts as 1. -/
def clamped (request : PageRequest) (limit : UInt32) : PageRequest where
  page := max request.page 1
  perPage := min (max request.perPage 1) (max limit 1)

/-- The number of items before the page; page 0 starts where page 1 does. -/
def offset (request : PageRequest) : Nat := (request.page.toNat - 1) * request.perPage.toNat

/-- The largest number of items on the page. -/
def limit (request : PageRequest) : Nat := request.perPage.toNat

/-- The items of a listing that are on the page. -/
def slice {α : Type} (request : PageRequest) (items : List α) : List α :=
  (items.drop request.offset).take request.limit

def toJson (request : PageRequest) : Json :=
  .object [("page", .int request.page.toNat), ("per_page", .int request.perPage.toNat)]

def ofJson? (value : Json) : Option PageRequest := do
  let fields ← Json.fields? ["page", "per_page"] value
  let page ← fields.defaulted "page" standard.page Json.asUInt32?
  let perPage ← fields.defaulted "per_page" standard.perPage Json.asUInt32?
  return ⟨page, perPage⟩

end PageRequest

/-- What a page says about the whole listing. -/
structure PageMeta where
  page : UInt32
  perPage : UInt32
  /-- The number of items on all pages. -/
  total : Nat
  /-- The number of pages, at least 1. -/
  totalPages : UInt32
  deriving DecidableEq, Repr

/-- One page of a listing. -/
structure PageResponse (α : Type) where
  data : List α
  pageMeta : PageMeta
  deriving Repr

namespace PageResponse

/-- The number of pages that hold `total` items: at least 1, at most what 32 bits can count. -/
def pageCount (perPage : UInt32) (total : Nat) : UInt32 :=
  if total = 0 ∨ perPage = 0 then 1
  else
    let count := (total + perPage.toNat - 1) / perPage.toNat
    if count < UInt32.size then UInt32.ofNat count else UInt32.ofNat (UInt32.size - 1)

/-- A page with its items and the number of items on all pages. -/
def ofPage {α : Type} (data : List α) (page perPage : UInt32) (total : Nat) : PageResponse α :=
  ⟨data, page, perPage, total, pageCount perPage total⟩

/-- The page with every item replaced. -/
def map {α β : Type} (f : α → β) (response : PageResponse α) : PageResponse β :=
  ⟨response.data.map f, response.pageMeta⟩

/-- The page of JSON items as a JSON value. -/
def toJson (response : PageResponse Json) : Json :=
  .object [("data", .array response.data), ("meta", .object [
    ("page", .int response.pageMeta.page.toNat),
    ("per_page", .int response.pageMeta.perPage.toNat),
    ("total", .int response.pageMeta.total),
    ("total_pages", .int response.pageMeta.totalPages.toNat)])]

end PageResponse
end PointLedger
