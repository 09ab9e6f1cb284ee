import PointLedger.Engine.Mutation

/-!
How the operations that write are put together. What the single steps of staged work have, and work
has when its parts have it, all staged work of the ledger has; and attempts likewise, which come
upon staged work within one transaction. The properties here are of the work alone: what depends on
what a transaction has staged, or on what a store holds, is followed step by step elsewhere.
-/

namespace PointLedger

/-! ### Staged work -/

/-- The steps of staged work have the property, and work has it when its parts do. -/
structure Staged.Composes (P : ∀ {α : Type}, Staged α → Prop) : Prop where
  pure : ∀ {α : Type} (value : α), P (pure value : Staged α)
  fail : ∀ {α : Type} (error : LedgerError), P (Staged.fail error : Staged α)
  ask : ∀ {request : Request}, request.tx? ≠ none → P (Staged.ask request)
  fresh : P Staged.fresh
  clock : P Staged.clock
  bind : ∀ {α β : Type} {work : Staged α} {next : α → Staged β}, P work →
    (∀ value, P (next value)) → P (work >>= next)

namespace Staged.Composes

variable {P : ∀ {α : Type}, Staged α → Prop} (composes : Composes P)

include composes

theorem ofExcept {α : Type} (outcome : Except LedgerError α) : P (Staged.ofExcept outcome) := by
  cases outcome with
  | error error => exact composes.fail error
  | ok value => exact composes.pure value

theorem forM {α : Type} {items : List α} {work : α → Staged Unit} (each : ∀ item, P (work item)) :
    P (items.forM work) := by
  induction items with
  | nil => exact composes.pure ()
  | cons item rest ih => exact composes.bind (each item) fun _ => ih

/-- Work that is refused under a condition. -/
theorem refusing {α : Type} {condition : Prop} [Decidable condition] {error : LedgerError}
    {next : PUnit → Staged α} (rest : ∀ value, P (next value)) :
    P (if condition then Staged.fail error >>= next else next ()) := by
  split
  · exact composes.bind (composes.fail error) rest
  · exact rest ()

theorem openChain (tx : TxId) (account : Account) (referenceId : String) :
    P (Ledger.openChain tx account referenceId) := by
  refine composes.bind (composes.ask nofun) fun _ => composes.bind (composes.ask nofun) fun found =>
    composes.bind ?_ fun _ => composes.ask nofun
  cases found with
  | none => exact composes.pure ()
  | some _ => exact composes.fail _

theorem stageCredit (tx : TxId) (draft : Draft) (balance : Option Balance) :
    P (Ledger.stageCredit tx draft balance) := by
  refine composes.bind (composes.ask nofun) fun _ => composes.bind composes.fresh fun poolId =>
    composes.bind (composes.ask nofun) fun _ => ?_
  cases balance with
  | some row =>
    exact composes.bind (composes.ofExcept _) fun _ => composes.bind (composes.ask nofun) fun _ =>
      composes.pure _
  | none =>
    exact composes.bind composes.fresh fun _ => composes.bind (composes.ask nofun) fun _ =>
      composes.pure _

theorem stageDraw (tx : TxId) (pools : List CreditPool) (time : Timestamp) (a : Allocation) :
    P (Ledger.stageDraw tx pools time a) := by
  unfold Ledger.stageDraw
  split
  · exact composes.fail _
  · exact composes.ask nofun

theorem stageDebit (tx : TxId) (draft : Draft) (balance : Option Balance) :
    P (Ledger.stageDebit tx draft balance) := by
  refine composes.bind (composes.ask nofun) fun pools => composes.refusing fun _ => ?_
  cases balance with
  | none => exact composes.fail _
  | some row =>
    exact composes.bind (composes.ofExcept _) fun allocations =>
      composes.bind (composes.ask nofun) fun _ =>
      composes.bind (composes.forM fun a => composes.stageDraw tx pools _ a) fun _ =>
      composes.bind (composes.ofExcept _) fun _ => composes.bind (composes.ask nofun) fun _ =>
      composes.pure _

theorem stageAdd (request : EntryRequest) (transactionId : String) (tx : TxId) :
    P (Ledger.stageAdd request transactionId tx) := by
  refine composes.bind (composes.openChain _ _ _) fun _ =>
    composes.bind (composes.ask nofun) fun balance => composes.bind composes.fresh fun id =>
    composes.bind (composes.ofExcept _) fun metadata => composes.bind composes.clock fun now => ?_
  dsimp only
  split
  · exact composes.stageCredit _ _ balance
  · exact composes.stageDebit _ _ balance

theorem stageRevert (reverted : Entry) (transactionId : String) (tx : TxId) :
    P (Ledger.stageRevert reverted transactionId tx) := by
  refine composes.bind (composes.openChain _ _ _) fun _ =>
    composes.bind (composes.ask nofun) fun balance => ?_
  cases balance with
  | none => exact composes.fail _
  | some row =>
    exact composes.bind composes.fresh fun id => composes.bind composes.clock fun now =>
      composes.bind (composes.ask nofun) fun _ => composes.bind (composes.ofExcept _) fun _ =>
      composes.bind (composes.ask nofun) fun _ => composes.pure _

end Staged.Composes

/-! ### Attempts -/

/-- The steps of attempts have the property, with transactions of any work that is put together of
the steps of staged work, and attempts have it when their parts do. -/
structure Attempt.Composes (P : ∀ {α : Type}, Attempt α → Prop) : Prop where
  ofExcept : ∀ {α : Type} (outcome : Except LedgerError α), P (Attempt.ofExcept outcome)
  ask : ∀ {request : Request}, request.tx? = none → P (Attempt.ask request)
  newTransactionId : P Attempt.newTransactionId
  inTransaction : ∀ {α : Type} (config : EngineConfig) (organizationId referenceId : String)
    (work : TxId → Staged α),
    (∀ {Q : ∀ {α : Type}, Staged α → Prop}, Staged.Composes Q → ∀ tx, Q (work tx)) →
      P (Attempt.inTransaction config organizationId referenceId work)
  bind : ∀ {α β : Type} {attempt : Attempt α} {next : α → Attempt β}, P attempt →
    (∀ value, P (next value)) → P (attempt >>= next)

namespace Attempt.Composes

variable {P : ∀ {α : Type}, Attempt α → Prop} (composes : Composes P)

include composes

theorem refuseTaken (organizationId referenceId : String) (found : Option Entry) :
    P (Ledger.refuseTaken throw organizationId referenceId found) := by
  cases found with
  | none => exact composes.ofExcept (.ok ())
  | some _ => exact composes.ofExcept (.error _)

theorem tryAdd (config : EngineConfig) (request : EntryRequest) :
    P (Ledger.tryAdd config request) := by
  refine composes.bind (composes.ofExcept _) fun _ => composes.bind (composes.ask rfl) fun found =>
    composes.bind (composes.refuseTaken _ _ found) fun _ =>
    composes.bind composes.newTransactionId fun id =>
    composes.bind (composes.inTransaction _ _ _ _ fun steps => steps.stageAdd request id) fun _ =>
    composes.bind (composes.ask rfl) fun current => ?_
  cases current with
  | none => exact composes.ofExcept (.error _)
  | some entry => exact composes.ofExcept (.ok entry)

theorem tryRevert (config : EngineConfig) (id : EntryId) : P (Ledger.tryRevert config id) := by
  refine composes.bind (composes.ask rfl) fun present => ?_
  cases present with
  | none => exact composes.ofExcept (.error _)
  | some reverted =>
    refine composes.bind (composes.ask rfl) fun found =>
      composes.bind (composes.refuseTaken _ _ found) fun _ =>
      composes.bind composes.newTransactionId fun transactionId =>
      composes.bind (composes.inTransaction _ _ _ _ fun steps =>
        steps.stageRevert reverted transactionId) fun reversal =>
      composes.bind (composes.ask rfl) fun current => ?_
    cases current with
    | none => exact composes.ofExcept (.error _)
    | some entry => exact composes.ofExcept (.ok (entry, reversal))

end Attempt.Composes
end PointLedger
