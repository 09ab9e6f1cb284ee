import PointLedger.Engine.Inquiry
import PointLedger.Proofs.Composition
import PointLedger.Proofs.MemorySteps

/-!
What the operations keep to themselves. An operation reports one event at most, and does so at its
end or, when it verifies a chain, once the chain is read; up to there it is quiet. A quiet program
never waits for a lock without the timer either.
-/

namespace PointLedger

/-- The event that a signal carries. -/
def Signal.event? : Signal → Option LedgerEvent
  | .event e => some e
  | _ => none

namespace Program

variable {α β ε ε' : Type}

/-- The program reports no event, and asks for locks under the timer only. -/
def Quiet : Program α → Prop
  | .done _ => True
  | .ask request next => request.isLock = false ∧ ∀ answer, (next answer).Quiet
  | .askInTime _ next => ∀ answer, (next answer).Quiet
  | .startTimer _ next => next.Quiet
  | .clock next => ∀ time, (next time).Quiet
  | .fresh next => ∀ id, (next id).Quiet
  | .random next => ∀ bytes, (next bytes).Quiet
  | .report signal next => signal.event? = none ∧ next.Quiet

namespace Quiet

theorem bind {program : Program α} {next : α → Program β} (quiet : program.Quiet)
    (rest : ∀ value, (next value).Quiet) : (program.bind next).Quiet := by
  induction program with
  | done value => exact rest value
  | ask request next ih => exact ⟨quiet.1, fun answer => ih answer (quiet.2 answer)⟩
  | askInTime request next ih => exact fun answer => ih answer (quiet answer)
  | startTimer limit next ih => exact ih quiet
  | clock next ih => exact fun time => ih time (quiet time)
  | fresh next ih => exact fun id => ih id (quiet id)
  | random next ih => exact fun bytes => ih bytes (quiet bytes)
  | report signal next ih => exact ⟨quiet.1, ih quiet.2⟩

/-- Work that may fail, in two parts. -/
theorem bindExcept {first : ExceptT ε Program α} {next : α → ExceptT ε Program β}
    (quiet : first.run.Quiet) (rest : ∀ value, (next value).run.Quiet) :
    (first >>= next).run.Quiet := by
  refine quiet.bind fun result => ?_
  cases result with
  | error error => trivial
  | ok value => exact rest value

/-- A program that cannot fail, as work that may. -/
theorem lift {program : Program α} (quiet : program.Quiet) :
    (liftM program : ExceptT ε Program α).run.Quiet :=
  quiet.bind fun _ => trivial

theorem adapt {attempt : ExceptT ε Program α} (quiet : attempt.run.Quiet) (f : ε → ε') :
    (ExceptT.adapt f attempt).run.Quiet :=
  quiet.bind fun _ => trivial

end Quiet
end Program

open Program

theorem Staged.composes_quiet : Staged.Composes fun work => work.run.Quiet where
  pure _ := trivial
  fail _ := trivial
  ask _ answer := by rcases answer with _ | _ | _ <;> trivial
  fresh _ := trivial
  clock _ := trivial
  bind := .bindExcept

namespace Attempt

variable {α : Type}

theorem quiet_ask {request : Request} (outside : request.tx? = none) :
    (ask request).run.Quiet := by
  refine ⟨?_, fun answer => by cases answer <;> trivial⟩
  cases request <;> first | rfl | cases outside

theorem quiet_discard (tx : TxId) : (discard tx).Quiet := by
  refine ⟨rfl, fun answer => ?_⟩
  cases answer <;> trivial

theorem quiet_settle (config : EngineConfig) (tx : TxId) (outcome : Except Interruption α) :
    (settle config tx outcome).run.Quiet := by
  rcases outcome with (_ | _) | value
  · exact .bindExcept (.lift (quiet_discard tx)) fun _ => trivial
  · exact .bindExcept (.lift (quiet_discard tx)) fun _ => trivial
  · exact ⟨rfl, fun answer => by cases answer <;> trivial⟩

theorem quiet_inTransaction {config : EngineConfig} {organizationId referenceId : String}
    {work : TxId → Staged α} (quiet : ∀ tx, (work tx).run.Quiet) :
    (inTransaction config organizationId referenceId work).run.Quiet := by
  intro begun
  rcases begun with _ | _ | tx
  · trivial
  · trivial
  · exact .bindExcept (.lift (quiet tx)) fun outcome => .adapt (quiet_settle config tx outcome) _

theorem composes_quiet : Composes fun attempt => attempt.run.Quiet where
  ofExcept _ := trivial
  ask := quiet_ask
  newTransactionId _ bytes := by cases bytes <;> trivial
  inTransaction _ _ _ _ steps := quiet_inTransaction (steps Staged.composes_quiet)
  bind := .bindExcept

end Attempt
end PointLedger
