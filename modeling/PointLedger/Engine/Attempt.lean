import PointLedger.Store.Program
/-!
Work that may fail. An attempt is a program that ends with a value or with a ledger failure. Staged
work is what one transaction does under the timer: it may also run out of time, and then it does
nothing more. Every transaction that was started ends in one commit or in one rollback.
-/

namespace PointLedger

/-- How the ledger is set up. -/
structure EngineConfig where
  /-- The time that opening a transaction, its locks and its staged work may take together. -/
  operationTimeout : Duration
  /-- The largest page of a listing. -/
  maxPageSize : UInt32
  deriving DecidableEq, Repr, Inhabited

/-- A program that may end with a ledger failure. -/
abbrev Attempt := ExceptT LedgerError Program

/-- Why staged work ended early. -/
inductive Interruption where
  | failed (error : LedgerError)
  /-- A request was left waiting when the timer ran out. -/
  | overdue
  deriving DecidableEq, Repr

/-- The work of one transaction under the timer. -/
abbrev Staged := ExceptT Interruption Program

namespace Attempt

/-- Asks the store; its failure is the attempt's. -/
def ask (request : Request) : Attempt request.Answer :=
  .mk <| .ask request fun
    | .ok value => .done (.ok value)
    | .error error => .done (.error (.store error))

/-- Starts a transaction before the timer runs out. -/
def beginTx (config : EngineConfig) : Attempt TxId :=
  .mk <| .askInTime .beginTx fun
    | some (.ok tx) => .done (.ok tx)
    | some (.error error) => .done (.error (.store error))
    | none => .done (.error (.timeout config.operationTimeout))

/-- An outcome that is known already. -/
def ofExcept {α : Type} (outcome : Except LedgerError α) : Attempt α := .mk (.done outcome)

/-- Draws the identifier of a new transaction. -/
def newTransactionId : Attempt String :=
  .mk <| .clock fun time => .random fun
    | .ok bytes => .done (.ok (transactionId time bytes))
    | .error reason => .done (.error (.randomnessFailed reason))

/-- Rolls a transaction back. A store that cannot do so is reported; it drops the transaction all
the same. -/
def discard (tx : TxId) : Program Unit :=
  .ask (.rollback tx) fun
    | .ok _ => .done ()
    | .error error => .report (.rollbackFailed error) (.done ())

/-- Commits when the staged work succeeded in time, and rolls back otherwise. -/
def settle {α : Type} (config : EngineConfig) (tx : TxId) : Except Interruption α → Attempt α
  | .ok value => do
    ask (.commit tx)
    return value
  | .error (.failed error) => do
    discard tx
    throw error
  | .error .overdue => do
    discard tx
    throw (.timeout config.operationTimeout)

/-- A unique constraint that rejects the writes of an entry means that the entry's reference was
taken at the same time. -/
def referenceConflict (organizationId referenceId : String) : LedgerError → LedgerError
  | .store (.uniqueViolation _) => .alreadyExists organizationId referenceId
  | error => error

/-- Stages the writes of a new entry with this reference in one transaction, and settles it. -/
def inTransaction {α : Type} (config : EngineConfig) (organizationId referenceId : String)
    (work : TxId → Staged α) : Attempt α := do
  .mk (.startTimer config.operationTimeout (.done (.ok ())))
  let tx ← beginTx config
  let outcome ← (work tx).run
  ExceptT.adapt (referenceConflict organizationId referenceId) (settle config tx outcome)

end Attempt

namespace Staged

/-- Asks the store before the timer runs out; its failure is the work's. -/
def ask (request : Request) : Staged request.Answer :=
  .mk <| .askInTime request fun
    | some (.ok value) => .done (.ok value)
    | some (.error error) => .done (.error (.failed (.store error)))
    | none => .done (.error .overdue)

/-- Ends the work with a ledger failure. -/
def fail {α : Type} (error : LedgerError) : Staged α := throw (.failed error)

/-- An outcome that is known already. -/
def ofExcept {α : Type} : Except LedgerError α → Staged α
  | .ok value => pure value
  | .error error => fail error

/-- Draws a new identifier. -/
def fresh : Staged Uuid := .mk (.fresh fun id => .done (.ok id))

/-- Reads the clock. -/
def clock : Staged Timestamp := .mk (.clock fun time => .done (.ok time))

end Staged
end PointLedger
