import PointLedger.Entry.Metadata
import PointLedger.Pool
import PointLedger.Validation
/-!
Spending in first-in, first-out order. A debit walks the open pools from the oldest on and takes
from each as much as it can, until its amount is covered. It takes nothing at all unless the pools
cover it.
-/

namespace PointLedger

/-- What a debit takes from one pool. -/
structure Allocation where
  poolId : PoolId
  /-- The credit behind the pool. -/
  entryId : EntryId
  /-- The amount taken. -/
  amount : Amount
  /-- What the pool holds afterwards. -/
  remainingAfter : Amount
  deriving DecidableEq, Repr

namespace Allocation

/-- The record of the allocation in the debit's metadata. -/
def source (a : Allocation) : AllocationSource := ⟨a.entryId, a.amount⟩

def toJson (a : Allocation) : Json :=
  .object [
    ("credit_pool_id", a.poolId.toJson),
    ("source", a.source.toJson),
    ("remaining_after", a.remainingAfter.toJson)]

end Allocation

/-- What the pools hold together, clamped to the range of amounts; a pool below zero counts as
empty. -/
def totalRemaining (pools : List CreditPool) : Amount :=
  pools.foldl
    (fun total p => total.addClamped (if p.isOpen then p.remaining else Amount.zero))
    Amount.zero

/-- Takes up to `needed` from the pools in the order given; what stays uncovered comes second. There
is no result when a difference leaves the range of amounts. -/
def drainChecked (needed : Amount) : List CreditPool → Option (List Allocation × Amount)
  | [] => some ([], needed)
  | p :: rest =>
    if needed.val = 0 then some ([], needed)
    else do
      let taken := p.remaining.min needed
      let left ← p.remaining.sub? taken
      let still ← needed.sub? taken
      let (allocations, uncovered) ← drainChecked still rest
      return (⟨p.id, p.entryId, taken, left⟩ :: allocations, uncovered)

/-- What is taken from the pools. No difference leaves the range when they all hold something. -/
def drain (needed : Amount) (pools : List CreditPool) : List Allocation × Amount :=
  (drainChecked needed pools).getD ([], needed)

/-- Covers an amount from pools given in any order. -/
def allocate (pools : List CreditPool) (amount : Amount) :
    Except LedgerError (List Allocation) :=
  if amount.isPositive then
    let available := totalRemaining pools
    if available.val < amount.val then throw (.insufficientFunds amount available)
    else
      let (allocations, uncovered) :=
        drain amount (CreditPool.sort (pools.filter CreditPool.isOpen))
      if uncovered.isPositive then throw (.allocationUncovered uncovered available)
      else pure allocations
  else throw (Violation.nonPositiveDebit amount).toError

end PointLedger
