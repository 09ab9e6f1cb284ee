import PointLedger.Proofs.Quiet
import PointLedger.Simulation.World

/-!
Worlds in which requests come late and nothing else goes wrong. A request that is not under the
timer is carried out sooner or later, unless it is for a lock. One that is under the timer is
carried out in time or not at all, and it is carried out unless it is delayed or waits for a lock.
What a world reports to the observer of its ledger grows by what programs report in it.
-/

namespace PointLedger

namespace FaultRule

theorem act_count (rule : FaultRule) (method : String) : (rule.count method).act = rule.act := by
  unfold count
  split <;> rfl

/-- The act that a call meets is the act of a rule. -/
theorem act_of_take {rules : List FaultRule} {method : String} {act : FaultAct}
    (acts : (take rules method).1 = some act) : ∃ rule ∈ rules, rule.act = act := by
  obtain ⟨counted, found, rfl⟩ := Option.map_eq_some_iff.mp acts
  obtain ⟨rule, old, rfl⟩ := List.mem_map.mp (List.mem_of_find?_eq_some found)
  exact ⟨rule, old, (act_count rule method).symm⟩

/-- The rules that remain keep their acts. -/
theorem act_of_mem_take {rules : List FaultRule} {method : String} {rule : FaultRule}
    (member : rule ∈ (take rules method).2) : ∃ rule' ∈ rules, rule'.act = rule.act := by
  obtain ⟨rule', old, rfl⟩ := List.mem_map.mp (List.mem_filter.mp member).1
  exact ⟨rule', old, (act_count rule' method).symm⟩

/-- Rules that delay calls and do nothing else. -/
def OnlyDelay (rules : List FaultRule) : Prop := ∀ rule ∈ rules, ∃ millis, rule.act = .delay millis

end FaultRule

namespace World

/-- What the observer of the ledger has been told, in order. -/
def events (w : World) : List LedgerEvent := w.signals.filterMap Signal.event?

variable {w : World} {request : Request}

theorem run_bind {α β : Type} (w : World) (program : Program α) (next : α → Program β) :
    w.run (program.bind next) = (w.run program).2.run (next (w.run program).1) := by
  induction program generalizing w with
  | done value => rfl
  | ask request next ih => exact ih _ _
  | askInTime request next ih => exact ih _ _
  | startTimer limit next ih => exact ih _
  | clock next ih => exact ih _ _
  | fresh next ih => exact ih _ _
  | random next ih => exact ih _ _
  | report signal next ih => exact ih _

theorem run_ask {α : Type} (w : World) (request : Request)
    (next : Except StoreError request.Answer → Program α) :
    w.run (.ask request next) = (w.answer request).2.run (next (w.answer request).1) := rfl

theorem run_askInTime {α : Type} (w : World) (request : Request)
    (next : Option (Except StoreError request.Answer) → Program α) :
    w.run (.askInTime request next) =
      (w.answerInTime request).2.run (next (w.answerInTime request).1) := rfl

/-- Rules that only delay let every request through. -/
theorem receive_of_onlyDelay (late : FaultRule.OnlyDelay w.faults) (request : Request) :
    ∃ delay faults, (∀ rule ∈ faults, ∃ rule' ∈ w.faults, rule'.act = rule.act) ∧
      (0 < delay → w.faults ≠ []) ∧
      w.receive request = (.due delay none, { w with faults := faults }) := by
  have kept : ∀ rule ∈ (FaultRule.take w.faults request.name).2,
      ∃ rule' ∈ w.faults, rule'.act = rule.act := fun rule => FaultRule.act_of_mem_take
  unfold receive
  rcases taken : FaultRule.take w.faults request.name with ⟨_ | act, faults⟩
  · rw [taken] at kept
    exact ⟨0, faults, kept, fun positive => absurd positive (Nat.lt_irrefl 0), rfl⟩
  · rw [taken] at kept
    obtain ⟨rule, member, acts⟩ := FaultRule.act_of_take (congrArg Prod.fst taken)
    obtain ⟨millis, delays⟩ := late rule member
    obtain rfl := acts.symm.trans delays
    exact ⟨millis, faults, kept, fun _ => List.ne_nil_of_mem member, rfl⟩

/-- A request that is not under the timer is carried out. -/
theorem answer_of_onlyDelay (late : FaultRule.OnlyDelay w.faults)
    {answer : Except StoreError request.Answer} {after : Memory}
    (ran : w.memory.perform request = (some answer, after)) :
    ∃ faults now, (∀ rule ∈ faults, ∃ rule' ∈ w.faults, rule'.act = rule.act) ∧
      w.answer request = (answer, { w with faults := faults, now := now, memory := after }) := by
  obtain ⟨delay, faults, kept, -, received⟩ := receive_of_onlyDelay late request
  refine ⟨faults, w.now + delay, kept, ?_⟩
  simp [World.answer, received, call, ran]

/-- A request under the timer is carried out in time or not at all. -/
theorem answerInTime_of_onlyDelay (late : FaultRule.OnlyDelay w.faults) (request : Request) :
    ∃ faults now, (∀ rule ∈ faults, ∃ rule' ∈ w.faults, rule'.act = rule.act) ∧
      ((∃ answer after, w.memory.perform request = (some answer, after) ∧
        w.answerInTime request =
          (some answer, { w with faults := faults, now := now, memory := after })) ∨
      ((w.faults ≠ [] ∨ (w.memory.perform request).1 = none) ∧ ∃ memory,
        (memory = w.memory ∨ w.memory.perform request = (none, memory)) ∧
        w.answerInTime request =
          (none, { w with faults := faults, now := now, memory := memory }))) := by
  obtain ⟨delay, faults, kept, slow, received⟩ := receive_of_onlyDelay late request
  by_cases expired : 0 < delay ∧ w.deadline < w.now + delay
  · refine ⟨faults, max w.now w.deadline, kept,
      .inr ⟨.inl (slow expired.1), w.memory, .inl rfl, ?_⟩⟩
    simp only [answerInTime, received, if_pos expired]
  · rcases ran : w.memory.perform request with ⟨_ | answer, after⟩
    · refine ⟨faults, max (w.now + delay) w.deadline, kept, .inr ⟨.inr rfl, after, .inr rfl, ?_⟩⟩
      simp only [answerInTime, received, if_neg expired, call, ran]
    · refine ⟨faults, w.now + delay, kept, .inl ⟨answer, after, rfl, ?_⟩⟩
      simp only [answerInTime, received, if_neg expired, call, ran]

/-! ### What asking the store leaves alone -/

/-- What a world is after a request, whatever has become of it: nothing was reported, and only fault
rules were spent. -/
structure Asked (w : World) (request : Request) (w' : World) : Prop where
  signals : w'.signals = w.signals
  faults : w'.faults = (FaultRule.take w.faults request.name).2

theorem asked_receive (w : World) (request : Request) :
    w.Asked request (w.receive request).2 := by
  have ended (w' : World) (asked : w.Asked request w') :
      w.Asked request (w'.dropEnded request) := by
    cases request <;> exact ⟨asked.signals, asked.faults⟩
  unfold receive
  rcases taken : FaultRule.take w.faults request.name with ⟨act, faults⟩
  have asked : w.Asked request { w with faults := faults } := ⟨rfl, by rw [taken]⟩
  rcases act with _ | _ | _ | _ | _
  · exact asked
  · exact ended _ asked
  · exact asked
  · cases request.emptyAnswer with
    | none => exact asked
    | some answer => exact ended _ asked
  · exact asked

theorem Asked.call {w w' : World} {request : Request} (asked : w.Asked request w')
    (failure : Option StoreError) : w.Asked request (w'.call request failure).2 := by
  unfold World.call
  rcases w'.memory.perform request with ⟨_ | answer, after⟩
  · exact ⟨asked.signals, asked.faults⟩
  · cases failure <;> exact ⟨asked.signals, asked.faults⟩

theorem asked_answer (w : World) (request : Request) :
    w.Asked request (w.answer request).2 ∧ w.Asked request (w.answerInTime request).2 := by
  have received := w.asked_receive request
  unfold answer answerInTime
  rcases taken : w.receive request with ⟨answer | ⟨delay, failure⟩, w'⟩
  · rw [taken] at received
    exact ⟨received, received⟩
  · rw [taken] at received
    have later : w.Asked request { w' with now := w'.now + delay } :=
      ⟨received.signals, received.faults⟩
    have called := later.call failure
    dsimp only
    rcases ran : ({ w' with now := w'.now + delay } : World).call request failure with
      ⟨answer, w''⟩
    rw [ran] at called
    refine ⟨?_, ?_⟩
    · cases answer <;> exact called
    · split
      · exact ⟨received.signals, received.faults⟩
      · cases answer
        · exact ⟨called.signals, called.faults⟩
        · exact called

theorem Asked.onlyDelay {w w' : World} {request : Request} (asked : w.Asked request w')
    (late : FaultRule.OnlyDelay w.faults) : FaultRule.OnlyDelay w'.faults := by
  intro rule member
  rw [asked.faults] at member
  obtain ⟨rule', old, act⟩ := FaultRule.act_of_mem_take member
  exact act ▸ late rule' old

/-- A program that asks goes on with what the store answers. -/
theorem run_ask_of_onlyDelay {w : World} {request : Request}
    (late : FaultRule.OnlyDelay w.faults) {answer : Except StoreError request.Answer}
    {after : Memory} (ran : w.memory.perform request = (some answer, after)) :
    ∃ w' : World, FaultRule.OnlyDelay w'.faults ∧ w'.memory = after ∧
      ∀ {α : Type} (next : Except StoreError request.Answer → Program α),
        w.run (.ask request next) = w'.run (next answer) := by
  obtain ⟨faults, now, -, answered⟩ := answer_of_onlyDelay late ran
  refine ⟨(w.answer request).2, (w.asked_answer request).1.onlyDelay late, ?_, fun next => ?_⟩
  · rw [answered]
  · rw [run_ask, answered]

/-- Rules that only delay are spent, and no others come up. -/
theorem onlyDelay_run {α : Type} (program : Program α) {w : World}
    (late : FaultRule.OnlyDelay w.faults) : FaultRule.OnlyDelay (w.run program).2.faults := by
  induction program generalizing w with
  | done value => exact late
  | ask request next ih => exact ih _ ((w.asked_answer request).1.onlyDelay late)
  | askInTime request next ih => exact ih _ ((w.asked_answer request).2.onlyDelay late)
  | startTimer limit next ih => exact ih late
  | clock next ih => exact ih _ late
  | fresh next ih => exact ih _ late
  | random next ih => exact ih _ late
  | report signal next ih => exact ih late

end World

/-- A quiet program tells the observer nothing. -/
theorem Program.Quiet.events_run {α : Type} {program : Program α} (quiet : program.Quiet)
    (w : World) : (w.run program).2.events = w.events := by
  have unheard {w w' : World} {request : Request} (asked : w.Asked request w') :
      w'.events = w.events := by
    rw [World.events, World.events, asked.signals]
  induction program generalizing w with
  | done value => rfl
  | ask request next ih =>
    exact (ih _ (quiet.2 _) _).trans (unheard (w.asked_answer request).1)
  | askInTime request next ih =>
    exact (ih _ (quiet _) _).trans (unheard (w.asked_answer request).2)
  | startTimer limit next ih => exact ih quiet (w.startTimer limit)
  | clock next ih => exact ih _ (quiet _) w.clock.2
  | fresh next ih => exact ih _ (quiet _) w.fresh.2
  | random next ih => exact ih _ (quiet _) w.random.2
  | report signal next ih =>
    refine (ih quiet.2 (w.report signal)).trans ?_
    simp [World.events, World.report, quiet.1]

end PointLedger
