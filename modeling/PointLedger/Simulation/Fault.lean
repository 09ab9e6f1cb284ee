import PointLedger.Error
import PointLedger.Store.Request
/-!
Faults of a store. A rule waits for a certain call of one kind and makes it misbehave once. Rules
count calls on their own; when several are due at one call, the oldest of them acts and all of them
are spent.
-/

namespace PointLedger

/-- The name of a kind of request, as fault rules give it. -/
def Request.name : Request → String
  | .beginTx => "begin"
  | .commit _ => "commit"
  | .rollback _ => "rollback"
  | .lockAccount _ _ => "lock_account"
  | .findEntries _ => "find_entries"
  | .countEntries _ => "count_entries"
  | .findEntry _ => "find_entry"
  | .findEntryIn _ _ => "find_entry_in"
  | .lastEntry _ _ => "last_entry_for_update"
  | .createEntry _ _ => "create_entry"
  | .findPools _ => "find_credit_pools"
  | .openPools _ _ => "open_pools_for_update"
  | .createPool _ _ => "create_credit_pool"
  | .updatePool _ _ => "update_credit_pool"
  | .findBalance _ => "find_balance"
  | .balanceForUpdate _ _ => "find_balance_for_update"
  | .createBalance _ _ => "create_balance"
  | .updateBalance _ _ => "update_balance"

/-- How a call misbehaves. -/
inductive FaultAct where
  /-- The call fails and nothing is done. -/
  | error (error : StoreError)
  /-- The call is carried out and fails. -/
  | errorAfter (error : StoreError)
  /-- The call succeeds and nothing is done: it finds nothing and writes nothing. -/
  | nothing
  /-- The call is carried out after some milliseconds. -/
  | delay (millis : Nat)
  deriving DecidableEq, Repr

/-- A rule that makes one call misbehave. -/
structure FaultRule where
  /-- The kind of request that the rule counts. -/
  method : String
  /-- The number of the call that misbehaves, from 1. -/
  nth : Nat
  act : FaultAct
  /-- The number of calls counted so far. -/
  seen : Nat := 0
  deriving DecidableEq, Repr

namespace FaultRule

/-- The rule after one more call. -/
def count (rule : FaultRule) (method : String) : FaultRule :=
  if rule.method = method then { rule with seen := rule.seen + 1 } else rule

/-- True when the rule is for the call that it counted last. -/
def isDue (rule : FaultRule) (method : String) : Bool :=
  rule.method == method && rule.seen == rule.nth

/-- The act that one more call meets, and the rules that remain. -/
def take (rules : List FaultRule) (method : String) : Option FaultAct × List FaultRule :=
  let counted := rules.map (·.count method)
  ((counted.find? (·.isDue method)).map (·.act), counted.filter fun rule => !rule.isDue method)

end FaultRule

/-- The answer of a store that finds nothing and writes nothing. A transaction is started all the
same, and so has no such answer. -/
def Request.emptyAnswer : (request : Request) → Option request.Answer
  | .beginTx => none
  | .findEntries _ | .findPools _ | .openPools _ _ => some []
  | .countEntries _ => some 0
  | .findEntry _ | .findEntryIn _ _ | .lastEntry _ _ => some none
  | .findBalance _ | .balanceForUpdate _ _ => some none
  | .commit _ | .rollback _ | .lockAccount _ _ | .createEntry _ _ | .createPool _ _
  | .updatePool _ _ | .createBalance _ _ | .updateBalance _ _ => some ()

end PointLedger
