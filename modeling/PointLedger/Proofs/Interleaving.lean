import Mathlib.Logic.Function.Basic
import PointLedger.Proofs.Interference

/-!
Calls that take turns on one store. A schedule names the calls one after the other, in any order
and as often as it likes. At its turn a call begins, or does one thing: it asks the store one
request, it draws a time, an identifier or random bytes of its own, or it ends. A request for a
lock that another call holds is asked again at the call's next turn. No timer runs out.
-/

namespace PointLedger

/-- Where a call stands among others. -/
inductive Phase where
  | pending
  | running (draws : Draws) (program : Program (Except LedgerError Entry))
  | finished (result : Except LedgerError Entry)

namespace Phase

/-- The result of a call that has finished. -/
def result? : Phase → Option (Except LedgerError Entry)
  | .finished result => some result
  | _ => none

/-- One turn of a call, and the store after it. -/
def turn (c : Call) (m : Memory) : Phase → Phase × Memory
  | .pending => (.running {} c.program, m)
  | .finished result => (.finished result, m)
  | .running d program =>
    match program with
    | .done result => (.finished result, m)
    | .ask request next =>
      match m.perform request with
      | (some answer, m) => (.running d (next answer), m)
      | (none, m) => (.running d (.ask request next), m)
    | .askInTime request next =>
      match m.perform request with
      | (some answer, m) => (.running d (next (some answer)), m)
      | (none, m) => (.running d (.askInTime request next), m)
    | .startTimer _ next => (.running d next, m)
    | .clock next =>
      (.running { d with clock := d.clock + 1 } (next (c.source.clock d.clock)), m)
    | .fresh next =>
      (.running { d with fresh := d.fresh + 1 } (next (c.source.fresh d.fresh)), m)
    | .random next =>
      (.running { d with random := d.random + 1 } (next (c.source.random d.random)), m)
    | .report _ next => (.running d next, m)

end Phase

/-- Calls that share a store. -/
structure Concurrent (ι : Type) where
  memory : Memory := {}
  phases : ι → Phase := fun _ => .pending

namespace Concurrent

variable {ι : Type} [DecidableEq ι]

/-- The turn of one of the calls. -/
def turn (calls : ι → Call) (s : Concurrent ι) (i : ι) : Concurrent ι :=
  let (phase, memory) := (s.phases i).turn (calls i) s.memory
  ⟨memory, Function.update s.phases i phase⟩

/-- What a schedule makes of calls on an empty store. -/
def run (calls : ι → Call) (schedule : List ι) : Concurrent ι := schedule.foldl (turn calls) {}

theorem run_concat (calls : ι → Call) (schedule : List ι) (i : ι) :
    run calls (schedule ++ [i]) = turn calls (run calls schedule) i := by
  rw [run, List.foldl_append]
  rfl

/-- The one call has finished before the other began. -/
def Precedes (calls : ι → Call) (schedule : List ι) (i j : ι) : Prop :=
  ∃ early, early <+: schedule ∧ (run calls early).phases j = .pending ∧
    ∃ result, (run calls early).phases i = .finished result

end Concurrent

end PointLedger
