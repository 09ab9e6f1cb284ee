import PointLedger.Entry.Basic
import PointLedger.Sha256
/-!
The canonical encoding of an entry and the hash over it. The ten hashed fields are written as
`key=value` in the order of their keys, with bars between them. Metadata is not hashed. A draft
becomes an entry when it is sealed: its time is cut to the microsecond and its hash is computed.
-/

namespace PointLedger

/-- The previous hash of the first entry of every chain. -/
def genesisHash : String := "GENESIS"

/-- Three bytes of randomness. -/
structure RandomBytes where
  first : UInt8
  second : UInt8
  third : UInt8
  deriving DecidableEq, Repr, Inhabited

/-- A transaction id: the date of a point in time and three bytes in upper-case hexadecimal. -/
def transactionId (time : Timestamp) (bytes : RandomBytes) : String :=
  let hex (b : UInt8) := (Text.digits 16 2 b.toNat).map Char.toUpper
  time.compactDate ++ "-" ++ String.ofList (hex bytes.first ++ hex bytes.second ++ hex bytes.third)

namespace Entry

/-- The hashed fields with their names, in the order of the names. -/
def hashedFields (e : Entry) : List (String × String) := [
  ("amount", toString e.amount),
  ("created_at", e.createdAt.hashed),
  ("description", e.description),
  ("id", toString e.id),
  ("organization_id", e.organizationId),
  ("previous_hash", e.previousHash),
  ("reference_id", e.referenceId),
  ("transaction_id", e.transactionId),
  ("type", e.kind.name),
  ("user_id", e.userId)]

/-- The text that is hashed. -/
def encoding (e : Entry) : String :=
  String.intercalate "|" (e.hashedFields.map fun field => field.1 ++ "=" ++ field.2)

/-- The hash that belongs to the entry's fields. -/
def computeHash (e : Entry) : String := Sha256.hexOfText e.encoding

/-- True when the entry carries the hash that belongs to its fields. -/
def verifyHash (e : Entry) : Bool := e.computeHash == e.hash

/-- The entry with the hash that belongs to its fields. -/
def rehash (e : Entry) : Entry := { e with hash := e.computeHash }

end Entry

/-- An entry before its hash is computed. -/
structure Draft where
  id : EntryId
  account : Account
  kind : EntryKind
  amount : Amount
  transactionId : String
  referenceId : String
  description : String
  metadata : Metadata
  previousHash : String
  createdAt : Timestamp
  deriving DecidableEq, Repr

namespace Draft

/-- The finished entry. -/
def sealed (d : Draft) : Entry :=
  Entry.rehash {
    id := d.id
    organizationId := d.account.organizationId
    userId := d.account.userId
    kind := d.kind
    amount := d.amount
    transactionId := d.transactionId
    referenceId := d.referenceId
    description := d.description
    metadata := d.metadata
    previousHash := d.previousHash
    hash := ""
    createdAt := d.createdAt.truncate }

/-- The draft that holds the fields of an entry, apart from its hash. -/
def ofEntry (e : Entry) : Draft where
  id := e.id
  account := e.account
  kind := e.kind
  amount := e.amount
  transactionId := e.transactionId
  referenceId := e.referenceId
  description := e.description
  metadata := e.metadata
  previousHash := e.previousHash
  createdAt := e.createdAt

/-- Reads a draft from a JSON object with the fields of an entry except the hash. -/
def ofJson? : Json → Option Draft
  | .object members => (Entry.ofJson? (.object (Json.Members.set members "hash" (.string "")))).map ofEntry
  | _ => none

end Draft
end PointLedger
