import PointLedger.Engine.Mutation
import PointLedger.Proofs.Outcome
import PointLedger.Simulation.World

/-!
Calls of the operations that write. A call says what is asked for and carries everything that it
draws while it runs, so that the same call can be run alone or among others and draw the same times,
identifiers and random bytes. `serve` runs calls one after the other on a store in memory in which
nothing misbehaves.
-/

namespace PointLedger

/-- What an operation that writes is asked to do. -/
inductive Mutation where
  | add (request : EntryRequest)
  | revert (id : EntryId)
  deriving DecidableEq, Repr

/-- A call of an operation that writes: the engine it goes to, what it asks for, and the times,
identifiers and random bytes that it meets, by the number of the draw. -/
structure Call where
  config : EngineConfig
  mutation : Mutation
  source : Source

namespace Call

/-- The program that a call runs. -/
def program (c : Call) : Program (Except LedgerError Entry) :=
  match c.mutation with
  | .add request => Ledger.addEntry c.config request
  | .revert id => Ledger.revertEntry c.config id

/-- Runs a call alone on a store in memory, and gives its result and the store afterwards. -/
def run (c : Call) (m : Memory) : Except LedgerError Entry × Memory :=
  let (result, w) := World.run { source := c.source, memory := m } c.program
  (result, w.memory)

/-- Two calls never draw the same identifier. -/
def Apart (c c' : Call) : Prop := ∀ i j, c.source.fresh i ≠ c'.source.fresh j

/-- The identifier of the entry that a call creates, when it creates one. -/
def entryId (c : Call) : EntryId := ⟨c.source.fresh 0⟩

/-- The identifier of the pool that a credit opens. -/
def poolId (c : Call) : PoolId := ⟨c.source.fresh 1⟩

/-- The identifier of the balance row that the first credit of an account creates. -/
def balanceId (c : Call) : BalanceId := ⟨c.source.fresh 2⟩

/-- The time that a call reads for its entry; the time before it is for the transaction id. -/
def time (c : Call) : Timestamp := c.source.clock 1

/-- The transaction id that a call draws. -/
def transactionId (c : Call) : Except LedgerError String :=
  match c.source.random 0 with
  | .ok bytes => .ok (PointLedger.transactionId (c.source.clock 0) bytes)
  | .error reason => .error (.randomnessFailed reason)

end Call

/-- A call among numbered ones, each of which draws from its own block of identifiers. The clock
stands still. -/
def Call.numbered (n : Nat) (mutation : Mutation) : Call where
  config := default
  mutation := mutation
  source := {
    clock := fun _ => Timestamp.epoch
    fresh := fun k => Uuid.ofNat (3 * n + min k 2)
    random := fun _ => .ok default }

theorem Call.numbered_apart {n n' : Nat} {mutation mutation' : Mutation} (different : n ≠ n')
    (small : n < 0x10000000000000000) (small' : n' < 0x10000000000000000) :
    (numbered n mutation).Apart (numbered n' mutation') := by
  intro i j same
  have values : (3 * n + min i 2) % 0x100000000000000000000000000000000 =
      (3 * n' + min j 2) % 0x100000000000000000000000000000000 := congrArg Uuid.value same
  have := Nat.min_le_right i 2
  have := Nat.min_le_right j 2
  rw [Nat.mod_eq_of_lt (by omega), Nat.mod_eq_of_lt (by omega)] at values
  omega

/-- Runs calls one after the other, and gives their results and the store afterwards. -/
def Memory.serve (m : Memory) : List Call → List (Except LedgerError Entry) × Memory
  | [] => ([], m)
  | c :: rest =>
    let (result, m) := c.run m
    let (results, m) := serve m rest
    (result :: results, m)

end PointLedger
