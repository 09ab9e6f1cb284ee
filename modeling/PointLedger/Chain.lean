import PointLedger.Entry.Encoding
/-!
Verification of a hash chain. Every entry must carry the hash that belongs to its fields and point
at the hash of the entry before it; the first entry points at the genesis hash. Verification stops
at the first entry that does not.
-/

namespace PointLedger

/-- What is wrong with a link of a chain. -/
inductive ChainFault where
  /-- The entry carries another hash than belongs to its fields. -/
  | hashMismatch (expected actual : String)
  /-- The entry points at another hash than that of the entry before it. -/
  | linkMismatch (expected actual : String)
  deriving DecidableEq, Repr

/-- The first place where a chain does not verify. -/
structure ChainBreak where
  /-- The place in the chain, from 0. -/
  position : Nat
  entryId : EntryId
  fault : ChainFault
  deriving DecidableEq, Repr

namespace ChainBreak

def toJson (b : ChainBreak) : Json :=
  let fault : Json.Members :=
    match b.fault with
    | .hashMismatch expected actual =>
      [("check", .string "hash_mismatch"), ("expected", .string expected),
        ("actual", .string actual)]
    | .linkMismatch expected actual =>
      [("check", .string "link_mismatch"), ("expected", .string expected),
        ("actual", .string actual)]
  .object ([("position", Json.int b.position), ("entry_id", b.entryId.toJson)] ++ fault)

end ChainBreak

/-- The outcome of walking a chain. -/
structure ChainReport where
  valid : Bool
  /-- The entries looked at, the broken one included. -/
  entriesChecked : Nat
  /-- The hash of the last entry that verified, the genesis hash when there is none. -/
  tailHash : String
  firstBreak : Option ChainBreak
  deriving DecidableEq, Repr

namespace ChainReport

def toJson (r : ChainReport) : Json :=
  .object [
    ("valid", .bool r.valid),
    ("entries_checked", .int r.entriesChecked),
    ("tail_hash", .string r.tailHash),
    ("first_break", Json.option ChainBreak.toJson r.firstBreak)]

end ChainReport

/-- What is wrong with an entry that should follow the hash `link`. -/
def Entry.fault? (e : Entry) (link : String) : Option ChainFault :=
  let recomputed := e.computeHash
  if recomputed ≠ e.hash then some (.hashMismatch recomputed e.hash)
  else if e.previousHash ≠ link then some (.linkMismatch link e.previousHash)
  else none

/-- Walks the rest of a chain after `checked` entries, the last of which has the hash `link`. -/
def verifyFrom (link : String) (checked : Nat) : List Entry → ChainReport
  | [] => ⟨true, checked, link, none⟩
  | e :: rest =>
    match e.fault? link with
    | some fault => ⟨false, checked + 1, link, some ⟨checked, e.id, fault⟩⟩
    | none => verifyFrom e.hash (checked + 1) rest

/-- Walks a chain from its first entry. -/
def verifyChain (entries : List Entry) : ChainReport := verifyFrom genesisHash 0 entries

end PointLedger
