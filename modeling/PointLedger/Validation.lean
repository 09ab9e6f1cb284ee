import PointLedger.Text.Chars
import PointLedger.Text.Quoted
import PointLedger.Entry.Request
import PointLedger.Error
/-!
The rules that input must meet before the ledger looks at its store. A request is checked field by
field, and the first rule that is broken is reported.
-/

namespace PointLedger

/-- A rule that some input breaks. -/
inductive Violation where
  /-- An identifier has nothing but blanks. -/
  | required (field : String)
  /-- An identifier is longer than identifiers may be. -/
  | tooLong (field : String)
  /-- An identifier holds a control character. -/
  | controlCharacter (field : String)
  /-- An identifier holds a character that separates hashed fields. -/
  | separator (field : String)
  /-- An entry's amount is zero or less. -/
  | nonPositiveAmount (amount : Amount)
  /-- A debit's amount is zero or less. -/
  | nonPositiveDebit (amount : Amount)
  /-- A description is longer than descriptions may be. -/
  | longDescription
  /-- A caller's metadata holds a key of the ledger's. -/
  | reservedKey (key : String)
  /-- A range of time ends before it starts. -/
  | invertedRange (start stop : Timestamp)
  /-- A text names no kind of entry. -/
  | unknownKind (text : String)
  deriving DecidableEq, Repr

/-- The most characters of an identifier. -/
def maxIdentifierLength : Nat := 255

/-- The most characters of a description. -/
def maxDescriptionLength : Nat := 1024

namespace Violation

/-- The text of a violation. -/
def message : Violation → String
  | .required field => s!"{field} is required"
  | .tooLong field => s!"{field} must be at most {maxIdentifierLength} characters"
  | .controlCharacter field => s!"{field} must not contain control characters"
  | .separator field => s!"{field} must not contain '|' or '='"
  | .nonPositiveAmount amount => s!"amount must be positive, got {amount}"
  | .nonPositiveDebit amount => s!"debit amount must be positive, got {amount}"
  | .longDescription => s!"description must be at most {maxDescriptionLength} characters"
  | .reservedKey key => s!"metadata key '{key}' is reserved"
  | .invertedRange start stop => s!"range start {start} is after range end {stop}"
  | .unknownKind text => "entry type must be CREDIT or DEBIT, got " ++ Text.quoted text

/-- The violation as a ledger failure. -/
def toError (violation : Violation) : LedgerError := .invalidArgument violation.message

end Violation

/-- Checks an identifier. -/
def validateIdentifier (field value : String) : Except Violation Unit :=
  let cs := value.toList
  if cs.all Text.isBlank then throw (.required field)
  else if cs.length > maxIdentifierLength then throw (.tooLong field)
  else if cs.any Text.isControl then throw (.controlCharacter field)
  else if cs.any fun c => c == '|' || c == '=' then throw (.separator field)
  else pure ()

/-- Checks the amount of an entry. -/
def validateAmount (amount : Amount) : Except Violation Unit :=
  if amount.isPositive then pure () else throw (.nonPositiveAmount amount)

/-- Checks a description; it may be empty. -/
def validateDescription (description : String) : Except Violation Unit :=
  if description.length > maxDescriptionLength then throw .longDescription else pure ()

/-- Checks a caller's metadata. -/
def validateMetadata (metadata : Json.Members) : Except Violation Unit :=
  match Metadata.reservedKeys.find? (Json.Members.has metadata) with
  | some key => throw (.reservedKey key)
  | none => pure ()

/-- Checks a range of time, either end of which may be open. -/
def validateRange : Option Timestamp → Option Timestamp → Except Violation Unit
  | some start, some stop => if stop < start then throw (.invertedRange start stop) else pure ()
  | _, _ => pure ()

/-- Checks all that a request for a new entry must meet. -/
def validateRequest (r : EntryRequest) : Except Violation Unit := do
  validateIdentifier "organization_id" r.organizationId
  validateIdentifier "user_id" r.userId
  validateIdentifier "reference_id" r.referenceId
  validateAmount r.amount
  validateDescription r.description
  validateMetadata r.metadata

/-- Checks what a query for a page must meet. -/
def validateQuery (q : EntryQuery) : Except Violation Unit := do
  validateIdentifier "organization_id" q.account.organizationId
  validateIdentifier "user_id" q.account.userId
  validateRange q.earliest q.latest

/-- The kind of entry that a text names, in letters of either case. -/
def parseKind (text : String) : Except Violation EntryKind :=
  match EntryKind.ofText? text with
  | some kind => pure kind
  | none => throw (.unknownKind text)

/-- A caller's metadata as entry metadata. -/
def Metadata.ofCaller (extra : Json.Members) : Except Violation Metadata := do
  validateMetadata extra
  return { extra := extra }

end PointLedger
