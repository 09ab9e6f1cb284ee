import PointLedger.Allocation
import PointLedger.Balance
import PointLedger.Entry.Basic
import PointLedger.Table
/-!
Pools and balance rebuilt from entries. What the store keeps besides the entries can be derived
from them, so replaying an account's entries in chain order and comparing the outcome with the
store shows every place where the two disagree.
-/

namespace PointLedger

/-- What is left of each credit, in ascending order of the credits' ids. -/
abbrev Remainders := List (EntryId × Amount)

namespace Remainders

/-- What is left of a credit. -/
def get? (r : Remainders) (id : EntryId) : Option Amount := List.lookup id r

/-- Sets what is left of a credit. -/
def set (r : Remainders) (id : EntryId) (amount : Amount) : Remainders :=
  upsert (·.1 == id) (fun row => id.uuid.value < row.1.uuid.value) (id, amount) r

end Remainders

/-- Balance and pools as rebuilt from entries. -/
structure ReplayedState where
  balance : Amount := Amount.zero
  pools : Remainders := []
  /-- The number of entries applied. -/
  entries : Nat := 0
  deriving DecidableEq, Repr, Inhabited

namespace ReplayedState

/-- The pools after a debit has drawn on one of them; a credit that is not known starts at zero. -/
def draw (pools : Remainders) (source : AllocationSource) : Remainders :=
  pools.set source.entryId
    (((pools.get? source.entryId).getD Amount.zero).subClamped source.amount)

/-- The state after one more entry. A reversal takes its amount off the balance whatever its kind
and leaves the pools alone; a debit draws on exactly the sources that it records. -/
def apply (s : ReplayedState) (e : Entry) : ReplayedState :=
  if e.isReversal then
    { s with balance := s.balance.subClamped e.amount, entries := s.entries + 1 }
  else
    match e.kind with
    | .credit =>
      ⟨s.balance.addClamped e.amount, s.pools.set e.id e.amount, s.entries + 1⟩
    | .debit =>
      ⟨s.balance.subClamped e.amount, e.metadata.sources.foldl draw s.pools, s.entries + 1⟩

/-- What all credits have left together, clamped to the range of amounts. -/
def poolTotal (s : ReplayedState) : Amount :=
  s.pools.foldl (fun total row => total.addClamped row.2) Amount.zero

def toJson (s : ReplayedState) : Json :=
  .object [
    ("balance", s.balance.toJson),
    ("entries", .int s.entries),
    ("pool_total", s.poolTotal.toJson),
    ("pools", Json.list (fun row => .array [row.1.toJson, row.2.toJson]) s.pools)]

end ReplayedState

/-- Replays entries in the order given. -/
def replay (entries : List Entry) : ReplayedState := entries.foldl ReplayedState.apply {}

/-- A credit whose stored and replayed pools disagree. -/
structure PoolDrift where
  entryId : EntryId
  /-- The stored pool, when there is one. -/
  poolId : Option PoolId
  /-- What the stored pool holds. -/
  stored : Option Amount
  /-- What the replayed pool holds, when an entry accounts for it. -/
  replayed : Option Amount
  deriving DecidableEq, Repr

namespace PoolDrift

def toJson (d : PoolDrift) : Json :=
  .object [
    ("ledger_entry_id", d.entryId.toJson),
    ("credit_pool_id", Json.option PoolId.toJson d.poolId),
    ("stored", Json.option Amount.toJson d.stored),
    ("replayed", Json.option Amount.toJson d.replayed)]

end PoolDrift

/-- The comparison of what is stored with what the entries say. -/
structure Reconciliation where
  account : Account
  entriesReplayed : Nat
  storedBalance : Amount
  storedPoolTotal : Amount
  replayedBalance : Amount
  replayedPoolTotal : Amount
  poolDrift : List PoolDrift
  /-- True when the balances agree and no pool drifted. -/
  consistent : Bool
  deriving DecidableEq, Repr

namespace Reconciliation

def toJson (r : Reconciliation) : Json :=
  .object [
    ("organization_id", .string r.account.organizationId),
    ("user_id", .string r.account.userId),
    ("entries_replayed", .int r.entriesReplayed),
    ("stored_balance", r.storedBalance.toJson),
    ("stored_pool_total", r.storedPoolTotal.toJson),
    ("replayed_balance", r.replayedBalance.toJson),
    ("replayed_pool_total", r.replayedPoolTotal.toJson),
    ("pool_drift", Json.list PoolDrift.toJson r.poolDrift),
    ("consistent", .bool r.consistent)]

end Reconciliation

/-- The stored pools that the replay does not confirm, in the order given. -/
def storedDrift (pools : List CreditPool) (replayed : Remainders) : List PoolDrift :=
  pools.filterMap fun p =>
    let expected := replayed.get? p.entryId
    if expected = some p.remaining then none
    else some ⟨p.entryId, some p.id, some p.remaining, expected⟩

/-- The replayed pools that are not stored, in ascending order. -/
def missingDrift (pools : List CreditPool) (replayed : Remainders) : List PoolDrift :=
  replayed.filterMap fun row =>
    if pools.any (·.entryId == row.1) then none
    else some ⟨row.1, none, none, some row.2⟩

/-- Replays an account's entries, given in chain order, and compares the outcome with its stored
pools and balance. -/
def reconcile (account : Account) (entries : List Entry) (pools : List CreditPool)
    (balance : Option Balance) : Reconciliation :=
  let state := replay entries
  let storedBalance := (balance.map (·.balance)).getD Amount.zero
  let poolDrift := storedDrift pools state.pools ++ missingDrift pools state.pools
  { account := account
    entriesReplayed := state.entries
    storedBalance := storedBalance
    storedPoolTotal := totalRemaining pools
    replayedBalance := state.balance
    replayedPoolTotal := state.poolTotal
    poolDrift := poolDrift
    consistent := storedBalance == state.balance && poolDrift.isEmpty }

end PointLedger
