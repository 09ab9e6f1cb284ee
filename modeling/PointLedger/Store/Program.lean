import PointLedger.Entry.Encoding
import PointLedger.Store.Request
import PointLedger.Engine.Event
/-!
Ledger operations as programs. A program asks a store, reads the clock, draws identifiers and
random bytes, and reports what it did; what comes back decides how it goes on. The program itself
does nothing: a host runs it, and every statement about operations over every store is a statement
about the tree.
-/

namespace PointLedger

/-- A program that ends with a value of type `α`. -/
inductive Program (α : Type) where
  | done (value : α)
  /-- Asks the store and waits for the answer as long as it takes. -/
  | ask (request : Request) (next : Except StoreError request.Answer → Program α)
  /-- Asks the store and waits until the timer runs out; then there is no answer. -/
  | askInTime (request : Request) (next : Option (Except StoreError request.Answer) → Program α)
  /-- Sets the timer. -/
  | startTimer (limit : Duration) (next : Program α)
  /-- Reads the clock. -/
  | clock (next : Timestamp → Program α)
  /-- Draws a new identifier. -/
  | fresh (next : Uuid → Program α)
  /-- Draws random bytes, which may fail. -/
  | random (next : Except String RandomBytes → Program α)
  /-- Reports what happened. -/
  | report (signal : Signal) (next : Program α)

namespace Program

/-- The first program, then the one that its value chooses. -/
def bind {α β : Type} : Program α → (α → Program β) → Program β
  | .done value, f => f value
  | .ask request next, f => .ask request fun answer => (next answer).bind f
  | .askInTime request next, f => .askInTime request fun answer => (next answer).bind f
  | .startTimer limit next, f => .startTimer limit (next.bind f)
  | .clock next, f => .clock fun time => (next time).bind f
  | .fresh next, f => .fresh fun id => (next id).bind f
  | .random next, f => .random fun bytes => (next bytes).bind f
  | .report signal next, f => .report signal (next.bind f)

theorem bind_assoc {α β γ : Type} (program : Program α) (next : α → Program β)
    (last : β → Program γ) :
    (program.bind next).bind last = program.bind fun value => (next value).bind last := by
  induction program with
  | done value => rfl
  | ask request rest ih => exact congrArg (Program.ask request) (funext ih)
  | askInTime request rest ih => exact congrArg (Program.askInTime request) (funext ih)
  | startTimer limit rest ih => exact congrArg (Program.startTimer limit) ih
  | clock rest ih => exact congrArg Program.clock (funext ih)
  | fresh rest ih => exact congrArg Program.fresh (funext ih)
  | random rest ih => exact congrArg Program.random (funext ih)
  | report signal rest ih => exact congrArg (Program.report signal) ih

instance : Monad Program where
  pure := .done
  bind := bind

end Program

/-- What runs programs: a state that answers requests and gives out times, identifiers and random
bytes. -/
structure Host (σ : Type) where
  /-- The answer to a request, however long it takes. -/
  answer : σ → (request : Request) → Except StoreError request.Answer × σ
  /-- The answer to a request, when it comes before the timer runs out. -/
  answerInTime : σ → (request : Request) → Option (Except StoreError request.Answer) × σ
  startTimer : σ → Duration → σ
  clock : σ → Timestamp × σ
  fresh : σ → Uuid × σ
  random : σ → Except String RandomBytes × σ
  report : σ → Signal → σ

namespace Program

/-- Runs a program on a host, and gives its value and the host's state afterwards. -/
def run {α σ : Type} (host : Host σ) : Program α → σ → α × σ
  | .done value, s => (value, s)
  | .ask request next, s =>
    let (answer, s) := host.answer s request
    run host (next answer) s
  | .askInTime request next, s =>
    let (answer, s) := host.answerInTime s request
    run host (next answer) s
  | .startTimer limit next, s => run host next (host.startTimer s limit)
  | .clock next, s =>
    let (time, s) := host.clock s
    run host (next time) s
  | .fresh next, s =>
    let (id, s) := host.fresh s
    run host (next id) s
  | .random next, s =>
    let (bytes, s) := host.random s
    run host (next bytes) s
  | .report signal next, s => run host next (host.report s signal)

end Program
end PointLedger
