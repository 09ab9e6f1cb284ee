import PointLedger.Proofs.Call
import PointLedger.Proofs.Interference

/-!
A call on trial: a store in memory where any request of the call may fail, before or after it is
carried out, and may come too late for the timer, where others use the store as they like between
two steps of the call, and where the call may be dropped between two steps. A transaction whose
handle is lost ends: when its start fails or comes too late, when its commit or its rollback fails,
and when the call is dropped.
-/

namespace PointLedger

/-- How the store treats a request of the call. -/
inductive Conduct where
  | carriedOut
  /-- Nothing is done. -/
  | failed (error : StoreError)
  /-- The request is carried out, but a failure takes the place of the answer. -/
  | failedAfter (error : StoreError)
  /-- The timer runs out before anything is done. -/
  | overdue
  /-- The request is carried out, but the timer runs out before the answer comes. -/
  | tooLate
  deriving DecidableEq, Repr

/-- True when the request is carried out. -/
def Conduct.reaches : Conduct → Bool
  | .carriedOut | .failedAfter _ | .tooLate => true
  | .failed _ | .overdue => false

/-- What the call hears. -/
inductive Reply (request : Request) where
  /-- Nothing yet: the request waits for a lock. -/
  | waiting
  | answered (answer : Except StoreError request.Answer)
  /-- Nothing in time. -/
  | overdue

/-- True when the call hears of no success. -/
def Reply.isFailure {request : Request} : Reply request → Bool
  | .answered (.error _) | .overdue => true
  | _ => false

/-- Only the start of a transaction is taken back when its answer is lost. -/
theorem World.dropStarted_of_ne {m : Memory} {request : Request} (other : request ≠ .beginTx)
    {answer : Except StoreError request.Answer} : dropStarted m request answer = m := by
  unfold dropStarted
  split
  · exact absurd rfl other
  · rfl

namespace Memory

/-- The store after a request that was not carried out. -/
def dropNamed (m : Memory) : Request → Memory
  | .commit tx | .rollback tx => m.endTx tx
  | _ => m

/-- What the call hears of its request, and the store afterwards. -/
def meet (m : Memory) (request : Request) : Conduct → Reply request × Memory
  | .failed error => (.answered (.error error), m.dropNamed request)
  | .overdue => (.overdue, m)
  | .carriedOut =>
    match m.perform request with
    | (some answer, after) => (.answered answer, after)
    | (none, after) => (.waiting, after)
  | .failedAfter error =>
    match m.perform request with
    | (some answer, after) => (.answered (.error error), World.dropStarted after request answer)
    | (none, after) => (.waiting, after)
  | .tooLate =>
    match m.perform request with
    | (some answer, after) => (.overdue, World.dropStarted after request answer)
    | (none, after) => (.waiting, after)

/-- The ways in which a request of the call can go. -/
inductive Meets (m : Memory) (request : Request) (conduct : Conduct) :
    Reply request → Memory → Prop where
  | heard (answer : Except StoreError request.Answer) (after : Memory)
      (how : conduct = .carriedOut) (ran : m.perform request = (some answer, after)) :
      Meets m request conduct (.answered answer) after
  | waits (after : Memory) (ran : m.perform request = (none, after)) :
      Meets m request conduct .waiting after
  /-- What was done goes unheard. -/
  | lost (reply : Reply request) (answer : Except StoreError request.Answer) (after : Memory)
      (how : conduct ≠ .carriedOut) (reaches : conduct.reaches = true)
      (fails : reply.isFailure = true) (ran : m.perform request = (some answer, after)) :
      Meets m request conduct reply (World.dropStarted after request answer)
  | refused (error : StoreError) (how : conduct = .failed error) :
      Meets m request conduct (.answered (.error error)) (m.dropNamed request)
  | late (how : conduct = .overdue) : Meets m request conduct .overdue m

theorem meets_meet (m : Memory) (request : Request) (conduct : Conduct) :
    m.Meets request conduct (m.meet request conduct).1 (m.meet request conduct).2 := by
  cases conduct with
  | failed error => exact .refused error rfl
  | overdue => exact .late rfl
  | carriedOut =>
    rcases ran : m.perform request with ⟨_ | answer, after⟩ <;> simp only [meet, ran]
    · exact .waits after ran
    · exact .heard answer after rfl ran
  | failedAfter error =>
    rcases ran : m.perform request with ⟨_ | answer, after⟩ <;> simp only [meet, ran]
    · exact .waits after ran
    · exact .lost _ answer after nofun rfl rfl ran
  | tooLate =>
    rcases ran : m.perform request with ⟨_ | answer, after⟩ <;> simp only [meet, ran]
    · exact .waits after ran
    · exact .lost _ answer after nofun rfl rfl ran

theorem dropNamed_of_inside {m : Memory} {request : Request} (inside : request.endsTx = false) :
    m.dropNamed request = m := by
  cases request with
  | commit _ | rollback _ => cases inside
  | _ => rfl

/-- True when the request is a commit that the store accepts. -/
def accepts (m : Memory) : Request → Bool
  | .commit tx =>
    match m.perform (.commit tx) with
    | (some (.ok _), _) => true
    | _ => false
  | _ => false

end Memory

/-- A call on trial. -/
structure Trial where
  memory : Memory
  /-- What is left of the call. -/
  program : Program (Except LedgerError Entry)
  draws : Draws := {}
  /-- The transactions that were ever started for the call. -/
  own : List TxId := []
  /-- A commit of the call has gone through, whatever the call was told. -/
  committed : Bool := false
  /-- The request for that commit or a later one was not simply carried out. -/
  faultedLate : Bool := false
  dropped : Bool := false

/-- What happens next. -/
inductive Happening where
  /-- The call goes on; a request that it makes is treated like this. -/
  | step (conduct : Conduct)
  /-- Somebody else makes a request. -/
  | other (request : Request)
  /-- The call is dropped, unless it has ended. -/
  | dropped
  deriving DecidableEq, Repr

/-- Everything but what others do comes from the call. -/
def Happening.isOwn : Happening → Bool
  | .other _ => false
  | _ => true

namespace Trial

/-- The trial after a request of the call. -/
def request (t : Trial) (request : Request) (conduct : Conduct) : Trial :=
  let committed := t.committed || (conduct.reaches && t.memory.accepts request)
  { t with
    memory := (t.memory.meet request conduct).2
    own := if request = .beginTx ∧ conduct.reaches then t.own ++ [⟨t.memory.started⟩] else t.own
    committed := committed
    faultedLate := t.faultedLate || (committed && conduct != .carriedOut) }

theorem committed_request (t : Trial) (request : Request) (conduct : Conduct) :
    (t.request request conduct).committed =
      (t.committed || (conduct.reaches && t.memory.accepts request)) := rfl

theorem faultedLate_request (t : Trial) (request : Request) (conduct : Conduct) :
    (t.request request conduct).faultedLate =
      (t.faultedLate || ((t.request request conduct).committed && conduct != .carriedOut)) := rfl

/-- One step of the call. A request that is not under the timer cannot be late for it. -/
def step (c : Call) (t : Trial) (conduct : Conduct) : Trial :=
  match t.program with
  | .done _ => t
  | .ask request next =>
    match (t.memory.meet request conduct).1 with
    | .answered answer => { t.request request conduct with program := next answer }
    | .waiting => t.request request conduct
    | .overdue => t
  | .askInTime request next =>
    match (t.memory.meet request conduct).1 with
    | .answered answer => { t.request request conduct with program := next (some answer) }
    | .waiting => t.request request conduct
    | .overdue => { t.request request conduct with program := next none }
  | .startTimer _ next => { t with program := next }
  | .clock next =>
    { t with
      program := next (c.source.clock t.draws.clock)
      draws := { t.draws with clock := t.draws.clock + 1 } }
  | .fresh next =>
    { t with
      program := next (c.source.fresh t.draws.fresh)
      draws := { t.draws with fresh := t.draws.fresh + 1 } }
  | .random next =>
    { t with
      program := next (c.source.random t.draws.random)
      draws := { t.draws with random := t.draws.random + 1 } }
  | .report _ next => { t with program := next }

/-- The call makes a request and goes on with the answer, whether it is under the timer or not. -/
def Asks (t : Trial) (request : Request)
    (next : Except StoreError request.Answer → Program (Except LedgerError Entry)) : Prop :=
  t.program = .ask request next ∨
    ∃ nextInTime, t.program = .askInTime request nextInTime ∧ next = nextInTime ∘ some

theorem step_answered {t : Trial} {request : Request} {conduct : Conduct}
    {next : Except StoreError request.Answer → Program (Except LedgerError Entry)} (c : Call)
    (asks : t.Asks request next) {answer : Except StoreError request.Answer}
    (heard : (t.memory.meet request conduct).1 = .answered answer) :
    t.step c conduct = { t.request request conduct with program := next answer } := by
  rcases asks with program | ⟨nextInTime, program, rfl⟩ <;> simp only [step, program, heard]
  rfl

theorem step_waiting {t : Trial} {request : Request} {conduct : Conduct}
    {next : Except StoreError request.Answer → Program (Except LedgerError Entry)} (c : Call)
    (asks : t.Asks request next) (heard : (t.memory.meet request conduct).1 = .waiting) :
    t.step c conduct = t.request request conduct := by
  rcases asks with program | ⟨nextInTime, program, rfl⟩ <;> simp only [step, program, heard]

theorem step_overdue {t : Trial} {request : Request}
    {next : Option (Except StoreError request.Answer) → Program (Except LedgerError Entry)}
    (c : Call) (program : t.program = .askInTime request next) :
    t.step c .overdue = { t.request request .overdue with program := next none } := by
  simp only [step, program, Memory.meet]

/-- The result of the call, once it has ended. -/
def result? (t : Trial) : Option (Except LedgerError Entry) :=
  match t.program with
  | .done result => some result
  | _ => none

/-- What happens to the trial. Nobody else can name a transaction of the call. -/
def turn (c : Call) (t : Trial) : Happening → Trial
  | .step conduct => if t.dropped then t else t.step c conduct
  | .other request =>
    if request.tx?.any t.own.contains then t
    else { t with memory := (t.memory.perform request).2 }
  | .dropped =>
    if t.result?.isSome then t
    else { t with dropped := true, memory := t.own.foldl Memory.endTx t.memory }

/-- What happenings make of a call on a store. -/
def run (c : Call) (m : Memory) (happenings : List Happening) : Trial :=
  happenings.foldl (turn c) { memory := m, program := c.program }

/-- The call has ended or was dropped. -/
def IsOver (t : Trial) : Prop := t.dropped = true ∨ t.result?.isSome = true

theorem run_concat (c : Call) (m : Memory) (happenings : List Happening) (next : Happening) :
    run c m (happenings ++ [next]) = turn c (run c m happenings) next := by
  rw [run, List.foldl_append]
  rfl

end Trial
end PointLedger
