import PointLedger.Simulation.World
/-!
Several programs at once in one world. They start in the order given, and each runs until it has to
wait: for a delay to pass or for a lock. Locks are granted first come, first served. Time passes
only when every program waits, and then up to the next moment at which one of them can go on.
-/

namespace PointLedger

/-- A request that waits. -/
structure Pending (α : Type) where
  request : Request
  /-- What takes the place of the store's answer. -/
  failure : Option StoreError
  /-- When the request stops waiting, if it ever does. -/
  limit : Option Nat
  /-- How the program goes on. -/
  next : Option (Except StoreError request.Answer) → Program α

/-- Where one of several programs stands. -/
inductive Task (α : Type) where
  | finished (value : α)
  /-- It can go on; the number is its timer. -/
  | ready (deadline : Nat) (program : Program α)
  /-- Its request is delayed until the moment given. -/
  | asleep (wake : Nat) (deadline : Nat) (pending : Pending α)
  /-- Its request waits for a lock. -/
  | blocked (deadline : Nat) (pending : Pending α)

namespace World

/-- Runs a program until it ends or has to wait. -/
def burst {α : Type} : Program α → World → Task α × World
  | .done value, w => (.finished value, w)
  | .ask request next, w =>
    match w.receive request with
    | (.answered answer, w) => burst (next answer) w
    | (.due delay failure, w) =>
      let pending : Pending α :=
        ⟨request, failure, none, fun answer => next (answer.getD (.error .txEnded))⟩
      if 0 < delay then (.asleep (w.now + delay) w.deadline pending, w)
      else
        match w.call request failure with
        | (some answer, w) => burst (next answer) w
        | (none, w) => (.blocked w.deadline pending, w)
  | .askInTime request next, w =>
    match w.receive request with
    | (.answered answer, w) => burst (next (some answer)) w
    | (.due delay failure, w) =>
      let pending : Pending α := ⟨request, failure, some w.deadline, next⟩
      if 0 < delay then (.asleep (w.now + delay) w.deadline pending, w)
      else
        match w.call request failure with
        | (some answer, w) => burst (next (some answer)) w
        | (none, w) => (.blocked w.deadline pending, w)
  | .startTimer limit next, w => burst next (w.startTimer limit)
  | .clock next, w =>
    let (time, w) := w.clock
    burst (next time) w
  | .fresh next, w =>
    let (id, w) := w.fresh
    burst (next id) w
  | .random next, w =>
    let (bytes, w) := w.random
    burst (next bytes) w
  | .report signal next, w => burst next (w.report signal)

end World

/-- Several programs in one world. -/
structure Schedule (α : Type) where
  world : World
  /-- The programs in the order given. -/
  tasks : List (Task α)
  /-- The places of the programs that can go on, in the order in which they will. -/
  queue : List Nat
  /-- The places of the programs that wait for locks, in the order in which they came. -/
  waiting : List Nat := []
  /-- A transaction that is dropped once nothing more can be done without that. -/
  release : Option TxId := none

namespace Schedule

/-- The schedule with one program's standing replaced. -/
def put {α : Type} (s : Schedule α) (place : Nat) (task : Task α) : Schedule α :=
  { s with tasks := s.tasks.set place task }

/-- Where the program at a place stands. -/
def task? {α : Type} (s : Schedule α) (place : Nat) : Option (Task α) := s.tasks[place]?

/-- Grants locks to those that wait, in the order in which they came. -/
def grant {α : Type} (s : Schedule α) : Schedule α :=
  s.waiting.foldl
    (fun s place =>
      match s.task? place with
      | some (.blocked deadline pending) =>
        match s.world.call pending.request pending.failure with
        | (none, _) => s
        | (some answer, w) =>
          { s.put place (.ready deadline (pending.next (some answer))) with
            world := w
            queue := s.queue ++ [place]
            waiting := s.waiting.filter (· != place) }
      | _ => s)
    s

/-- Lets the program at a place go on until it ends or has to wait. -/
def resume {α : Type} (s : Schedule α) (place deadline : Nat) (program : Program α) :
    Schedule α :=
  let (task, w) := World.burst program { s.world with deadline := deadline }
  let s := { s.put place task with world := w }
  match task with
  | .blocked _ _ => { s with waiting := s.waiting ++ [place] }
  | _ => s

/-- The moment at which a waiting program can go on whatever the others do. -/
def moment? {α : Type} : Task α → Option Nat
  | .asleep wake _ pending => some (pending.limit.elim wake (min wake))
  | .blocked _ pending => pending.limit
  | _ => none

/-- The first place at which a program can go on by time alone, and the moment. -/
def soonest {α : Type} (tasks : List (Task α)) : Option (Nat × Nat) :=
  tasks.zipIdx.foldl
    (fun best (task, place) =>
      match best, moment? task with
      | none, some moment => some (place, moment)
      | some (p, m), some moment => if moment < m then some (place, moment) else some (p, m)
      | best, none => best)
    none

/-- Passes the time to a moment at which the program at a place goes on: its delay is over, or its
timer has run out. -/
def wake {α : Type} (s : Schedule α) (place moment : Nat) : Schedule α :=
  let s := { s with world := { s.world with now := max s.world.now moment } }
  match s.task? place with
  | some (.asleep wake deadline pending) =>
    if wake ≤ moment then
      match s.world.call pending.request pending.failure with
      | (some answer, w) =>
        { s.put place (.ready deadline (pending.next (some answer))) with
          world := w, queue := s.queue ++ [place] }
      | (none, w) =>
        { s.put place (.blocked deadline pending) with
          world := w, waiting := s.waiting ++ [place] }
    else
      { s.put place (.ready deadline (pending.next none)) with queue := s.queue ++ [place] }
  | some (.blocked deadline pending) =>
    { s.put place (.ready deadline (pending.next none)) with
      queue := s.queue ++ [place]
      waiting := s.waiting.filter (· != place) }
  | _ => s

/-- Takes steps until every program has ended or waits for what will never come. -/
def steps {α : Type} : Nat → Schedule α → Schedule α
  | 0, s => s
  | fuel + 1, s =>
    match s.queue with
    | place :: rest =>
      let s := { s with queue := rest }
      match s.task? place with
      | some (.ready deadline program) => steps fuel (s.resume place deadline program).grant
      | _ => steps fuel s
    | [] =>
      match s.release with
      | some tx =>
        let world := { s.world with memory := s.world.memory.endTx tx }
        steps fuel (grant { s with release := none, world := world })
      | none =>
        match soonest s.tasks with
        | some (place, moment) => steps fuel (s.wake place moment)
        | none => s

/-- The value of a program that has ended. -/
def value? {α : Type} : Task α → Option α
  | .finished value => some value
  | _ => none

end Schedule

/-- Runs several programs at once, and gives their values in the order given. An operation of the
ledger waits for at most one lock and gives up at most once, and every delay comes from a rule of
its own, so the number of steps is bounded by the programs and the rules. -/
def World.runAll {α : Type} (w : World) (programs : List (Program α)) (release : Option TxId) :
    List (Option α) × World :=
  let start : Schedule α := {
    world := w
    tasks := programs.map (.ready 0)
    queue := List.range programs.length
    release := release }
  let s := start.steps (8 * (programs.length + w.faults.length) + 8)
  (s.tasks.map Schedule.value?, s.world)

end PointLedger
