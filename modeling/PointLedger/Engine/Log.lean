import PointLedger.Engine.Event
/-!
Log records: what an operator reads about the ledger's work. Failures that may pass when the
operation is tried again are errors; refusals are for debugging only.
-/

namespace PointLedger

/-- How much a log record matters. -/
inductive LogLevel where
  | debug
  | info
  | warn
  | error
  deriving DecidableEq, Repr

/-- The name of a level. -/
def LogLevel.name : LogLevel → String
  | .debug => "DEBUG"
  | .info => "INFO"
  | .warn => "WARN"
  | .error => "ERROR"

/-- The value of a field of a log record. -/
inductive LogValue where
  | text (value : String)
  | number (value : Int)
  /-- A value in an internal form that no reader depends on. -/
  | internal
  deriving DecidableEq, Repr

/-- A log record. -/
structure LogRecord where
  level : LogLevel
  message : String
  fields : List (String × LogValue)
  deriving DecidableEq, Repr

/-- A field's value; one in an internal form is not shown. -/
def LogValue.toJson : LogValue → Json
  | .text value => .string value
  | .number value => .int value
  | .internal => .string "<debug>"

def LogRecord.toJson (record : LogRecord) : Json :=
  .object [
    ("level", .string record.level.name),
    ("message", .string record.message),
    ("fields", .object (record.fields.map fun (name, value) => (name, value.toJson)))]

/-- The log record of an event. -/
def LedgerEvent.log : LedgerEvent → LogRecord
  | .entryAdded e =>
    { level := .info
      message := "ledger entry added"
      fields := [
        ("organization_id", .text e.organizationId),
        ("user_id", .text e.userId),
        ("entry_id", .text (toString e.id)),
        ("entry_type", .text e.kind.name),
        ("amount", .number e.amount.val),
        ("reference_id", .text e.referenceId),
        ("transaction_id", .text e.transactionId)] }
  | .entryReverted reverted reversal =>
    { level := .info
      message := "ledger entry reverted"
      fields := [
        ("organization_id", .text reverted.organizationId),
        ("user_id", .text reverted.userId),
        ("original_id", .text (toString reverted.id)),
        ("reversal_id", .text (toString reversal.id)),
        ("amount", .number reversal.amount.val)] }
  | .chainVerified account report =>
    let walk := [("account", .text (toString account)),
      ("entries_checked", .number report.entriesChecked)]
    if report.valid then ⟨.debug, "chain verified", walk⟩
    else ⟨.warn, "chain verification failed", walk ++ [("first_break", .internal)]⟩
  | .operationFailed operation error =>
    let fields := [
      ("operation", .text operation.name),
      ("error_code", .text error.code),
      ("error", .text error.message)]
    if error.isRetryable then ⟨.error, "ledger operation failed", fields⟩
    else ⟨.debug, "ledger operation rejected", fields⟩

/-- The log record of a signal. -/
def Signal.log : Signal → LogRecord
  | .event e => e.log
  | .rollbackFailed error =>
    ⟨.warn, "rollback failed", [("error", .text error.message)]⟩
  | .failureHidden error =>
    ⟨.error, "Ledger operation failed",
      [("code", .text error.code), ("error", .text error.message)]⟩

end PointLedger
