import PointLedger.Amount
import PointLedger.Time.Duration
import PointLedger.Uuid
import PointLedger.Account
/-!
Failures. A store reports what it could not do; the ledger reports why an operation was refused;
an application sorts the ledger's failures by what a client may do about them.
-/

namespace PointLedger

/-! ### Failures of a store -/

/-- What a store could not do. -/
inductive StoreError where
  /-- A unique constraint rejected a write. -/
  | uniqueViolation (detail : String)
  /-- The backend failed: connection, query, lock or integrity rule. -/
  | backend (detail : String)
  /-- A stored value could not be decoded. -/
  | serialization (detail : String)
  deriving DecidableEq, Repr, Inhabited

namespace StoreError

/-- The text of a store failure. -/
def message : StoreError → String
  | .uniqueViolation detail => "unique constraint violated: " ++ detail
  | .backend detail => "backend failure: " ++ detail
  | .serialization detail => "serialization failure: " ++ detail

/-- The name of a store failure's kind. -/
def name : StoreError → String
  | .uniqueViolation _ => "UniqueViolation"
  | .backend _ => "Backend"
  | .serialization _ => "Serialization"

/-- The store failure of a named kind. -/
def ofName? (name detail : String) : Option StoreError :=
  match name with
  | "UniqueViolation" => some (.uniqueViolation detail)
  | "Backend" => some (.backend detail)
  | "Serialization" => some (.serialization detail)
  | _ => none

end StoreError

/-! ### Failures of the ledger -/

/-- The categories of ledger failures. -/
inductive ErrorKind where
  /-- The input is malformed and will fail again. -/
  | invalidArgument
  /-- The reference id is in use. -/
  | alreadyExists
  /-- The debit exceeds the open credit. -/
  | insufficientFunds
  /-- The thing asked for does not exist. -/
  | notFound
  /-- The store or the machinery failed; the operation was rolled back. -/
  | internal
  deriving DecidableEq, Repr, Inhabited

/-- The name of a category. -/
def ErrorKind.name : ErrorKind → String
  | .invalidArgument => "InvalidArgument"
  | .alreadyExists => "AlreadyExists"
  | .insufficientFunds => "InsufficientFunds"
  | .notFound => "NotFound"
  | .internal => "Internal"

/-- Why a ledger operation failed. -/
inductive LedgerError where
  | invalidArgument (reason : String)
  | alreadyExists (organizationId referenceId : String)
  | insufficientFunds (requested available : Amount)
  | notFound (what : String)
  | store (error : StoreError)
  /-- Opening the transaction, a lock or staged work took longer than an operation may. -/
  | timeout (limit : Duration)
  | internal (reason : String)
  deriving DecidableEq, Repr, Inhabited

namespace LedgerError

/-- The text of a ledger failure. -/
def message : LedgerError → String
  | .invalidArgument reason => "Invalid argument: " ++ reason
  | .alreadyExists organizationId referenceId =>
    s!"Reference id {referenceId} already exists in organization {organizationId}"
  | .insufficientFunds requested available =>
    s!"Insufficient funds: requested {requested}, available {available}"
  | .notFound what => "Not found: " ++ what
  | .store error => "Store error: " ++ error.message
  | .timeout limit => s!"Operation timed out after {limit}"
  | .internal reason => "Internal error: " ++ reason

/-- The name of a ledger failure's kind. -/
def name : LedgerError → String
  | .invalidArgument _ => "InvalidArgument"
  | .alreadyExists _ _ => "AlreadyExists"
  | .insufficientFunds _ _ => "InsufficientFunds"
  | .notFound _ => "NotFound"
  | .store _ => "Store"
  | .timeout _ => "Timeout"
  | .internal _ => "Internal"

/-- The category of a ledger failure. -/
def kind : LedgerError → ErrorKind
  | .invalidArgument _ => .invalidArgument
  | .alreadyExists _ _ => .alreadyExists
  | .insufficientFunds _ _ => .insufficientFunds
  | .notFound _ => .notFound
  | .store (.uniqueViolation _) => .alreadyExists
  | .store _ | .timeout _ | .internal _ => .internal

/-- The code that responses carry. -/
def code : LedgerError → String
  | .timeout _ => "TIMEOUT"
  | error =>
    match error.kind with
    | .invalidArgument => "INVALID_ARGUMENT"
    | .alreadyExists => "ALREADY_EXISTS"
    | .insufficientFunds => "INSUFFICIENT_FUNDS"
    | .notFound => "NOT_FOUND"
    | .internal => "INTERNAL"

/-- The HTTP status of a response. -/
def httpStatus : LedgerError → Nat
  | .timeout _ => 504
  | error =>
    match error.kind with
    | .invalidArgument => 400
    | .notFound => 404
    | .alreadyExists => 409
    | .insufficientFunds => 422
    | .internal => 500

/-- True when the whole operation may succeed if it is tried again. -/
def isRetryable (error : LedgerError) : Bool := error.kind == .internal

/-! ### The failures that the ledger itself raises -/

/-- No entry has this id. -/
def entryNotFound (id : EntryId) : LedgerError := .notFound s!"ledger entry {id}"

/-- The account has no balance row. -/
def balanceNotFound (account : Account) : LedgerError := .notFound s!"balance for {account}"

/-- A balance would leave the range of amounts. -/
def balanceOverflow (delta balance : Amount) : LedgerError :=
  .internal s!"balance overflow applying {delta} to {balance}"

/-- The account has credit to give but no balance row. -/
def balanceRowMissing (account : Account) : LedgerError :=
  .internal s!"{account} has open credit pools but no balance row"

/-- A pool that was drawn on is not among the pools that were locked. -/
def poolNotLocked (id : PoolId) : LedgerError :=
  .internal s!"allocated pool {id} is not among the locked pools"

/-- The pools ran out although they hold enough. -/
def allocationUncovered (needed available : Amount) : LedgerError :=
  .internal s!"allocation left {needed} uncovered despite {available} available"

/-- The source of random bytes failed. -/
def randomnessFailed (reason : String) : LedgerError :=
  .internal s!"randomness source failed: {reason}"

/-- A committed entry cannot be read back. -/
def vanishedAfterCommit (referenceId : String) : LedgerError :=
  .internal s!"entry {referenceId} vanished after commit"

/-- A reverted entry cannot be read back. -/
def vanishedAfterRevert (id : EntryId) : LedgerError :=
  .internal s!"entry {id} vanished after revert"

end LedgerError

/-! ### Failures of an application -/

/-- The categories of application failures. -/
inductive AppErrorKind where
  | notFound
  | validation
  | businessRule
  | conflict
  | timeout
  | database
  | internal
  deriving DecidableEq, Repr, Inhabited

namespace AppErrorKind

/-- The categories with their names. -/
def names : List (String × AppErrorKind) := [
  ("NotFound", .notFound),
  ("Validation", .validation),
  ("BusinessRule", .businessRule),
  ("Conflict", .conflict),
  ("Timeout", .timeout),
  ("Database", .database),
  ("Internal", .internal)]

/-- The category with a name. -/
def ofName? (name : String) : Option AppErrorKind := List.lookup name names

/-- The name of a category. -/
def name (kind : AppErrorKind) : String := ((names.find? (·.2 == kind)).map Prod.fst).getD ""

end AppErrorKind

/-- A failure as an application reports it. -/
structure AppError where
  kind : AppErrorKind
  detail : String
  deriving DecidableEq, Repr, Inhabited

namespace AppError

/-- The words that a category puts before the detail. -/
def heading : AppErrorKind → String
  | .notFound => "Not found: "
  | .validation => "Validation error: "
  | .businessRule => "Business rule violation: "
  | .conflict => "Conflict: "
  | .timeout => "Timed out: "
  | .database => "Database error: "
  | .internal => "Internal error: "

/-- The text of an application failure. -/
def message (error : AppError) : String := heading error.kind ++ error.detail

/-- The HTTP status of a response. -/
def httpStatus (error : AppError) : Nat :=
  match error.kind with
  | .notFound => 404
  | .validation => 400
  | .businessRule => 422
  | .conflict => 409
  | .timeout => 504
  | .database | .internal => 500

/-- The code that responses carry. -/
def code (error : AppError) : String :=
  match error.kind with
  | .notFound => "NOT_FOUND"
  | .validation => "VALIDATION_ERROR"
  | .businessRule => "BUSINESS_RULE_VIOLATION"
  | .conflict => "CONFLICT"
  | .timeout => "TIMEOUT"
  | .database => "DATABASE_ERROR"
  | .internal => "INTERNAL_ERROR"

/-- True when a client may see the text; what the database or the machinery says stays inside. -/
def isClientVisible (error : AppError) : Bool :=
  error.kind != .database && error.kind != .internal

end AppError

/-- The application failure that a ledger failure is. -/
def LedgerError.toAppError (error : LedgerError) : AppError :=
  let kind : AppErrorKind :=
    match error with
    | .invalidArgument _ => .validation
    | .notFound _ => .notFound
    | .insufficientFunds _ _ => .businessRule
    | .alreadyExists _ _ | .store (.uniqueViolation _) => .conflict
    | .timeout _ => .timeout
    | .store _ => .database
    | .internal _ => .internal
  ⟨kind, error.message⟩

end PointLedger
