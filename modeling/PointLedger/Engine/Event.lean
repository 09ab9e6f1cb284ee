import PointLedger.Chain
import PointLedger.Error
/-!
What the ledger reports about its own work: the operations by name, the events that an observer of
the ledger receives, and the two failures that no result shows.
-/

namespace PointLedger

/-- The operations of the ledger. -/
inductive Operation where
  | addEntry
  | revertEntry
  | listEntries
  | getEntry
  | getBalance
  | verifyChain
  | reconcile
  deriving DecidableEq, Repr, Inhabited

namespace Operation

/-- The name of an operation in events. -/
def name : Operation → String
  | .addEntry => "add_entry"
  | .revertEntry => "revert_entry"
  | .listEntries => "list_entries"
  | .getEntry => "get_entry"
  | .getBalance => "get_balance"
  | .verifyChain => "verify_chain"
  | .reconcile => "reconcile"

instance : ToString Operation := ⟨name⟩

/-- All operations. -/
def all : List Operation :=
  [.addEntry, .revertEntry, .listEntries, .getEntry, .getBalance, .verifyChain, .reconcile]

end Operation

/-- Something that the ledger did. -/
inductive LedgerEvent where
  /-- A credit or a debit was committed. -/
  | entryAdded (entry : Entry)
  /-- A reversal was committed. -/
  | entryReverted (reverted reversal : Entry)
  /-- A chain was walked. -/
  | chainVerified (account : Account) (report : ChainReport)
  /-- An operation failed. -/
  | operationFailed (operation : Operation) (error : LedgerError)
  deriving DecidableEq, Repr

def LedgerEvent.toJson : LedgerEvent → Json
  | .entryAdded entry => .object [("event", .string "added"), ("entry_id", entry.id.toJson)]
  | .entryReverted reverted reversal =>
    .object [
      ("event", .string "reverted"),
      ("original", reverted.toJson),
      ("reversal", reversal.toJson)]
  | .chainVerified account report =>
    .object [
      ("event", .string "verified"),
      ("account", .string (toString account)),
      ("valid", .bool report.valid)]
  | .operationFailed operation error =>
    .object [
      ("event", .string "failed"),
      ("operation", .string operation.name),
      ("code", .string error.code),
      ("message", .string error.message)]

/-- What a running program reports. -/
inductive Signal where
  /-- An event for the observer. -/
  | event (event : LedgerEvent)
  /-- A transaction could not be rolled back. -/
  | rollbackFailed (error : StoreError)
  /-- A response hides the text of this failure from its reader. -/
  | failureHidden (error : LedgerError)
  deriving DecidableEq, Repr

end PointLedger
