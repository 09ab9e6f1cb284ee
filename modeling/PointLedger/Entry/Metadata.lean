import PointLedger.Amount
import PointLedger.Uuid
/-!
Entry metadata. Two keys belong to the ledger: `sources` says which credits a debit drew on, and
`reverts` links a reversal to the entry it reverts. Every other key is the caller's and is kept as
it is, so that no reader drops a key it does not know.
-/

namespace PointLedger

/-- One slice of a debit. -/
structure AllocationSource where
  /-- The credit whose pool was drawn on. -/
  entryId : EntryId
  /-- The amount taken from that pool. -/
  amount : Amount
  deriving DecidableEq, Repr

namespace AllocationSource

def toJson (source : AllocationSource) : Json :=
  .object [("ledger_entry_id", source.entryId.toJson), ("amount", source.amount.toJson)]

def ofJson? (value : Json) : Option AllocationSource := do
  let fields ← Json.fields? ["ledger_entry_id", "amount"] value
  let entryId ← fields.required "ledger_entry_id" EntryId.ofJson?
  let amount ← fields.required "amount" Amount.ofJson?
  return ⟨entryId, amount⟩

end AllocationSource

/-- The link from a reversal to the entry it reverts. -/
structure RevertLink where
  entryId : EntryId
  /-- The hash of that entry when it was reverted. -/
  entryHash : String
  deriving DecidableEq, Repr

namespace RevertLink

def toJson (link : RevertLink) : Json :=
  .object [("entry_id", link.entryId.toJson), ("entry_hash", .string link.entryHash)]

def ofJson? (value : Json) : Option RevertLink := do
  let fields ← Json.fields? ["entry_id", "entry_hash"] value
  let entryId ← fields.required "entry_id" EntryId.ofJson?
  let entryHash ← fields.required "entry_hash" Json.asString?
  return ⟨entryId, entryHash⟩

end RevertLink

/-- The metadata of an entry. -/
structure Metadata where
  /-- What a debit drew on, oldest credit first. -/
  sources : List AllocationSource := []
  /-- Present on reversals only. -/
  reverts : Option RevertLink := none
  /-- The caller's keys. -/
  extra : Json.Members := []
  deriving DecidableEq, Repr, Inhabited

namespace Metadata

/-- The keys that belong to the ledger. -/
def reservedKeys : List String := ["sources", "reverts"]

/-- The metadata as a flat JSON object, without the ledger's keys that hold nothing. -/
def toJson (m : Metadata) : Json :=
  let sources :=
    if m.sources.isEmpty then [] else [("sources", Json.list AllocationSource.toJson m.sources)]
  let reverts :=
    match m.reverts with
    | none => []
    | some link => [("reverts", link.toJson)]
  .object (sources ++ reverts ++ m.extra)

/-- Reads metadata from a JSON object. -/
def ofJson? : Json → Option Metadata
  | .object members => do
    let fields : Json.Fields := ⟨Json.Members.get? members, true⟩
    let sources ← fields.defaulted "sources" [] (Json.asList? AllocationSource.ofJson?)
    let reverts ← fields.defaulted "reverts" none (Json.asOption? RevertLink.ofJson?)
    return ⟨sources, reverts, Json.Members.without members reservedKeys⟩
  | _ => none

/-- Reads stored metadata, where `null` stands for none. -/
def ofStored? : Json → Option Metadata
  | .null => some {}
  | value => ofJson? value

end Metadata
end PointLedger
