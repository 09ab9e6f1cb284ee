import PointLedger.Simulation.Fault
import PointLedger.Store.Memory
import PointLedger.Store.Program
/-!
A world to run ledger operations in: a store in memory that may misbehave, a clock and sources of
identifiers and random bytes that are known in advance, and time that passes only while a call is
delayed or waits for a lock. A call that could be made exactly when the timer runs out is made; one
that has to wait longer is not.
-/

namespace PointLedger

/-- What a world gives out, by the number of the draw. -/
structure Source where
  clock : Nat → Timestamp
  fresh : Nat → Uuid
  random : Nat → Except String RandomBytes

/-- The state of a world. -/
structure World where
  source : Source
  memory : Memory := {}
  /-- The fault rules that have not acted yet, oldest first. -/
  faults : List FaultRule := []
  /-- The milliseconds that have passed. -/
  now : Nat := 0
  /-- When the timer runs out. -/
  deadline : Nat := 0
  clockReads : Nat := 0
  freshDraws : Nat := 0
  randomDraws : Nat := 0
  /-- What was reported, in order. -/
  signals : List Signal := []

namespace World

/-- How the world takes up a request. -/
inductive Reception (request : Request) where
  /-- The store is not asked. -/
  | answered (answer : Except StoreError request.Answer)
  /-- The store is asked after a delay, and a failure may take the place of its answer. -/
  | due (delay : Nat) (failure : Option StoreError)

/-- Ends the transaction that a request would have ended. -/
def dropEnded (w : World) (request : Request) : World :=
  match request with
  | .commit tx | .rollback tx => { w with memory := w.memory.endTx tx }
  | _ => w

/-- Takes up a request: counts it and looks for a fault that is due. -/
def receive (w : World) (request : Request) : Reception request × World :=
  let (act, faults) := FaultRule.take w.faults request.name
  let w := { w with faults := faults }
  match act with
  | none => (.due 0 none, w)
  | some (.error error) => (.answered (.error error), w.dropEnded request)
  | some (.errorAfter error) => (.due 0 (some error), w)
  | some (.delay millis) => (.due millis none, w)
  | some .nothing =>
    match request.emptyAnswer with
    | none => (.due 0 none, w)
    | some answer => (.answered (.ok answer), w.dropEnded request)

/-- Ends a transaction whose start is answered with a failure. -/
def dropStarted (m : Memory) : (request : Request) → Except StoreError request.Answer → Memory
  | .beginTx, .ok tx => m.endTx tx
  | _, _ => m

/-- Asks the store. There is no answer while the request waits for a lock. -/
def call (w : World) (request : Request) (failure : Option StoreError) :
    Option (Except StoreError request.Answer) × World :=
  match w.memory.perform request with
  | (none, memory) => (none, { w with memory := memory })
  | (some answer, memory) =>
    match failure with
    | none => (some answer, { w with memory := memory })
    | some error => (some (.error error), { w with memory := dropStarted memory request answer })

/-- A request that waits as long as it takes. A lock is never asked for in this way; a request
for one that is never released would be answered with a failure. -/
def answer (w : World) (request : Request) : Except StoreError request.Answer × World :=
  match w.receive request with
  | (.answered answer, w) => (answer, w)
  | (.due delay failure, w) =>
    match ({ w with now := w.now + delay } : World).call request failure with
    | (some answer, w) => (answer, w)
    | (none, w) => (.error (.backend "lock is never released"), w)

/-- A request that waits until the timer runs out. -/
def answerInTime (w : World) (request : Request) :
    Option (Except StoreError request.Answer) × World :=
  let overdue (w : World) : World := { w with now := max w.now w.deadline }
  match w.receive request with
  | (.answered answer, w) => (some answer, w)
  | (.due delay failure, w) =>
    if 0 < delay ∧ w.deadline < w.now + delay then (none, overdue w)
    else
      match ({ w with now := w.now + delay } : World).call request failure with
      | (some answer, w) => (some answer, w)
      | (none, w) => (none, overdue w)

def startTimer (w : World) (limit : Duration) : World :=
  { w with deadline := w.now + limit.millis }

def clock (w : World) : Timestamp × World :=
  (w.source.clock w.clockReads, { w with clockReads := w.clockReads + 1 })

def fresh (w : World) : Uuid × World :=
  (w.source.fresh w.freshDraws, { w with freshDraws := w.freshDraws + 1 })

def random (w : World) : Except String RandomBytes × World :=
  (w.source.random w.randomDraws, { w with randomDraws := w.randomDraws + 1 })

def report (w : World) (signal : Signal) : World := { w with signals := w.signals ++ [signal] }

/-- The world as a host of programs. -/
def host : Host World where
  answer := answer
  answerInTime := answerInTime
  startTimer := startTimer
  clock := clock
  fresh := fresh
  random := random
  report := report

/-- Runs a program in the world. -/
def run {α : Type} (w : World) (program : Program α) : α × World := program.run host w

end World
end PointLedger
