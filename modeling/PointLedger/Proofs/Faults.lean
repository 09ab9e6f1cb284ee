import PointLedger.Proofs.Delays
import PointLedger.Proofs.NoTrace
import PointLedger.Simulation.World

/-!
Worlds in which requests fail or are late. Fault rules make a request fail before or after it is
carried out, or delay it until the timer has run out. Whatever such a world does to a call, the call
could meet on trial, so what holds of all trials holds in every such world. Rules that answer a
request with success without carrying it out are left out.
-/

namespace PointLedger

namespace FaultRule

/-- No rule pretends that a request was carried out. -/
def Honest (rules : List FaultRule) : Prop := ∀ rule ∈ rules, rule.act ≠ .nothing

/-- Honest rules stay so, and what they do to a request is honest. -/
theorem Honest.take {rules : List FaultRule} (honest : Honest rules) (method : String) :
    (take rules method).1 ≠ some .nothing ∧ Honest (FaultRule.take rules method).2 := by
  constructor
  · intro acts
    obtain ⟨rule, member, act⟩ := act_of_take acts
    exact honest rule member act
  · intro rule member
    obtain ⟨rule', old, act⟩ := act_of_mem_take member
    exact act ▸ honest rule' old

end FaultRule

/-- A request that is carried out, possibly with a failure in the place of its answer. -/
def Conduct.carried : Option StoreError → Conduct
  | none => .carriedOut
  | some error => .failedAfter error

namespace World

/-- A world and a trial that have come equally far. -/
structure Matches (c : Call) (w : World) (t : Trial) : Prop where
  source : w.source = c.source
  draws : t.draws = ⟨w.clockReads, w.freshDraws, w.randomDraws⟩
  memory : w.memory = t.memory
  honest : FaultRule.Honest w.faults
  on : t.dropped = false

/-- One world is as far as another, but for what is in the store and the time that has passed. -/
structure Beside (w w' : World) : Prop where
  source : w'.source = w.source
  clockReads : w'.clockReads = w.clockReads
  freshDraws : w'.freshDraws = w.freshDraws
  randomDraws : w'.randomDraws = w.randomDraws
  honest : FaultRule.Honest w.faults → FaultRule.Honest w'.faults

theorem Beside.refl (w : World) : w.Beside w := ⟨rfl, rfl, rfl, rfl, id⟩

theorem Beside.trans {w w' w'' : World} (first : w.Beside w') (second : w'.Beside w'') :
    w.Beside w'' where
  source := second.source.trans first.source
  clockReads := second.clockReads.trans first.clockReads
  freshDraws := second.freshDraws.trans first.freshDraws
  randomDraws := second.randomDraws.trans first.randomDraws
  honest honest := second.honest (first.honest honest)

theorem Matches.beside {c : Call} {w w' : World} {t t' : Trial} (matched : w.Matches c t)
    (beside : w.Beside w') (draws : t'.draws = t.draws) (on : t'.dropped = t.dropped)
    (memory : w'.memory = t'.memory) : w'.Matches c t' where
  source := beside.source.trans matched.source
  draws := by
    rw [draws, matched.draws, beside.clockReads, beside.freshDraws, beside.randomDraws]
  memory := memory
  honest := beside.honest matched.honest
  on := on.trans matched.on

/-- An honest world either refuses a request or lets it through later. -/
inductive Receives (w : World) (request : Request) : Reception request → World → Prop where
  | refused (error : StoreError) (w' : World) (beside : w.Beside w')
      (memory : w'.memory = w.memory.dropNamed request) :
      Receives w request (.answered (.error error)) w'
  | due (delay : Nat) (failure : Option StoreError) (w' : World) (beside : w.Beside w')
      (memory : w'.memory = w.memory) : Receives w request (.due delay failure) w'

theorem memory_dropEnded (w : World) (request : Request) :
    (w.dropEnded request).memory = w.memory.dropNamed request := by
  cases request <;> rfl

theorem beside_dropEnded (w : World) (request : Request) : w.Beside (w.dropEnded request) := by
  cases request <;> exact ⟨rfl, rfl, rfl, rfl, id⟩

theorem receives_receive {w : World} (honest : FaultRule.Honest w.faults) (request : Request) :
    w.Receives request (w.receive request).1 (w.receive request).2 := by
  obtain ⟨real, rest⟩ := honest.take request.name
  unfold receive
  rcases taken : FaultRule.take w.faults request.name with ⟨act, faults⟩
  rw [taken] at real rest
  have beside : w.Beside { w with faults := faults } := ⟨rfl, rfl, rfl, rfl, fun _ => rest⟩
  rcases act with _ | error | error | _ | millis
  · exact .due _ _ _ beside rfl
  · refine .refused error _ (beside.trans (beside_dropEnded _ request)) ?_
    exact memory_dropEnded _ request
  · exact .due _ _ _ beside rfl
  · exact absurd rfl real
  · exact .due _ _ _ beside rfl

/-- What a world makes of a request that it lets through. -/
theorem meet_of_call {w w' : World} {request : Request} {failure : Option StoreError}
    {answer : Option (Except StoreError request.Answer)}
    (called : w.call request failure = (answer, w')) :
    w.memory.meet request (.carried failure) =
      (answer.elim .waiting .answered, w'.memory) ∧ w.Beside w' := by
  unfold call at called
  rcases ran : w.memory.perform request with ⟨_ | found, after⟩
  all_goals
    rw [ran] at called
    cases failure <;> cases called
    all_goals exact ⟨by simp [Conduct.carried, Memory.meet, ran], rfl, rfl, rfl, rfl, id⟩

/-! ### Running a call -/

/-- The trial can come as far as the world when the rest of the call is `program`. -/
def Reaches (c : Call) (t : Trial) (w : World) (program : Program (Except LedgerError Entry)) :
    Prop :=
  ∃ conducts : List Conduct, let t' := (conducts.map Happening.step).foldl (Trial.turn c) t
    w.Matches c t' ∧ t'.program = program

theorem Reaches.refl {c : Call} {t : Trial} {w : World} (matched : w.Matches c t) :
    Reaches c t w t.program :=
  ⟨[], matched, rfl⟩

theorem Reaches.step {c : Call} {t : Trial} {w : World}
    {program : Program (Except LedgerError Entry)} (on : t.dropped = false) (conduct : Conduct)
    (rest : Reaches c (t.step c conduct) w program) : Reaches c t w program := by
  obtain ⟨conducts, reached⟩ := rest
  have turned : t.turn c (.step conduct) = t.step c conduct := by simp [Trial.turn, on]
  refine ⟨conduct :: conducts, ?_⟩
  rw [List.map_cons, List.foldl_cons, turned]
  exact reached

theorem Reaches.trans {c : Call} {t : Trial} {w w' : World}
    {program program' : Program (Except LedgerError Entry)} (first : Reaches c t w program)
    (rest : ∀ t', w.Matches c t' → t'.program = program → Reaches c t' w' program') :
    Reaches c t w' program' := by
  obtain ⟨conducts, matched, same⟩ := first
  obtain ⟨conducts', reached⟩ := rest _ matched same
  refine ⟨conducts ++ conducts', ?_⟩
  rw [List.map_append, List.foldl_append]
  exact reached

variable {c : Call} {w w' : World} {t : Trial} {request : Request}

theorem Matches.asked (matched : w.Matches c t) (conduct : Conduct) (beside : w.Beside w')
    (memory : w'.memory = (w.memory.meet request conduct).2)
    (program : Program (Except LedgerError Entry)) :
    w'.Matches c { t.request request conduct with program := program } :=
  matched.beside beside rfl rfl (by rw [memory, matched.memory]; rfl)

/-- The world refuses a request, and so can the store of the trial. -/
theorem reaches_refused (matched : w.Matches c t) (beside : w.Beside w') {error : StoreError}
    (memory : w'.memory = w.memory.dropNamed request)
    {next : Except StoreError request.Answer → Program (Except LedgerError Entry)}
    (asks : t.Asks request next) : Reaches c t w' (next (.error error)) := by
  have heard : (t.memory.meet request (.failed error)).1 = .answered (.error error) := rfl
  refine .step matched.on (.failed error) ?_
  rw [Trial.step_answered c asks heard]
  exact .refl (matched.asked (.failed error) beside memory _)

/-- The world answers a request, and so does the store of the trial. -/
theorem reaches_called (matched : w.Matches c t) {failure : Option StoreError}
    {answer : Except StoreError request.Answer}
    (called : w.call request failure = (some answer, w'))
    {next : Except StoreError request.Answer → Program (Except LedgerError Entry)}
    (asks : t.Asks request next) : Reaches c t w' (next answer) := by
  obtain ⟨met, beside⟩ := meet_of_call called
  have heard : (t.memory.meet request (.carried failure)).1 = .answered answer := by
    rw [← matched.memory, met]
    rfl
  refine .step matched.on (.carried failure) ?_
  rw [Trial.step_answered c asks heard]
  exact .refl (matched.asked _ beside (by rw [met]) _)

/-- A request that waits drops nothing if it fails after all. -/
theorem dropNamed_of_waiting {failure : Option StoreError}
    (called : w.call request failure = (none, w')) :
    w'.memory = w'.memory.dropNamed request := by
  have waits : w.memory.perform request = (none, w'.memory) := by
    unfold call at called
    rcases ran : w.memory.perform request with ⟨_ | answer, after⟩
    · rw [ran] at called
      cases called
      rfl
    · rw [ran] at called
      cases failure <;> cases called
  cases request with
  | commit _ | rollback _ =>
    simp only [Memory.perform] at waits
    repeat' split at waits
    all_goals cases waits
  | _ => rfl

/-- A request waits in the world, and so it does on trial. -/
theorem reaches_waiting (matched : w.Matches c t) {failure : Option StoreError}
    (called : w.call request failure = (none, w'))
    {next : Except StoreError request.Answer → Program (Except LedgerError Entry)}
    (asks : t.Asks request next) : Reaches c t w' t.program := by
  obtain ⟨met, beside⟩ := meet_of_call called
  have heard : (t.memory.meet request (.carried failure)).1 = .waiting := by
    rw [← matched.memory, met]
    rfl
  refine .step matched.on (.carried failure) ?_
  rw [Trial.step_waiting c asks heard]
  exact .refl (matched.asked _ beside (by rw [met]) t.program)

/-- The timer runs out in the world, and so it does on trial. -/
theorem reaches_overdue (matched : w.Matches c t) (beside : w.Beside w')
    (memory : w'.memory = w.memory)
    {next : Option (Except StoreError request.Answer) → Program (Except LedgerError Entry)}
    (program : t.program = .askInTime request next) : Reaches c t w' (next none) := by
  refine .step matched.on .overdue ?_
  rw [Trial.step_overdue c program]
  exact .refl (matched.asked .overdue beside memory _)

/-- The call hears the answer of the world. -/
theorem reaches_answer (matched : w.Matches c t)
    {next : Except StoreError request.Answer → Program (Except LedgerError Entry)}
    (program : t.program = .ask request next) :
    Reaches c t (w.answer request).2 (next (w.answer request).1) := by
  have receives := receives_receive matched.honest request
  unfold answer
  rcases received : w.receive request with ⟨reception, w₁⟩
  rw [received] at receives
  cases receives with
  | refused error _ beside memory => exact reaches_refused matched beside memory (.inl program)
  | due delay failure _ beside memory =>
    dsimp only
    have later : ({ w₁ with now := w₁.now + delay } : World).Matches c t :=
      matched.beside (beside.trans ⟨rfl, rfl, rfl, rfl, id⟩) rfl rfl (memory.trans matched.memory)
    rcases called : ({ w₁ with now := w₁.now + delay } : World).call request failure with
      ⟨_ | answer, w₂⟩
    · refine (reaches_waiting later called (.inl program)).trans fun t' matched' same => ?_
      exact reaches_refused matched' (.refl w₂) (dropNamed_of_waiting called)
        (.inl (same.trans program))
    · exact reaches_called later called (.inl program)

theorem reaches_answerInTime (matched : w.Matches c t)
    {next : Option (Except StoreError request.Answer) → Program (Except LedgerError Entry)}
    (program : t.program = .askInTime request next) :
    Reaches c t (w.answerInTime request).2 (next (w.answerInTime request).1) := by
  have asks : t.Asks request (next ∘ some) := .inr ⟨next, program, rfl⟩
  have receives := receives_receive matched.honest request
  unfold answerInTime
  rcases received : w.receive request with ⟨reception, w₁⟩
  rw [received] at receives
  cases receives with
  | refused error _ beside memory => exact reaches_refused matched beside memory asks
  | due delay failure _ beside memory =>
    dsimp only
    split
    · have late : w.Beside { w₁ with now := max w₁.now w₁.deadline } :=
        beside.trans ⟨rfl, rfl, rfl, rfl, id⟩
      exact reaches_overdue matched late memory program
    · have later : ({ w₁ with now := w₁.now + delay } : World).Matches c t :=
        matched.beside (beside.trans ⟨rfl, rfl, rfl, rfl, id⟩) rfl rfl (memory.trans matched.memory)
      rcases called : ({ w₁ with now := w₁.now + delay } : World).call request failure with
        ⟨_ | answer, w₂⟩
      · refine (reaches_waiting later called asks).trans fun t' matched' same => ?_
        have late : w₂.Beside { w₂ with now := max w₂.now w₂.deadline } :=
          ⟨rfl, rfl, rfl, rfl, id⟩
        exact reaches_overdue matched' late rfl (same.trans program)
      · exact reaches_called later called asks

/-- Running what is left of a call. -/
theorem reaches_run (program : Program (Except LedgerError Entry)) {w : World} {t : Trial}
    (matched : w.Matches c t) (same : t.program = program) :
    Reaches c t (w.run program).2 (.done (w.run program).1) := by
  induction program generalizing w t with
  | done result => exact ⟨[], matched, same⟩
  | ask request next ih =>
    exact (reaches_answer matched same).trans fun t' matched' same' => ih _ matched' same'
  | askInTime request next ih =>
    exact (reaches_answerInTime matched same).trans fun t' matched' same' => ih _ matched' same'
  | startTimer _ next ih | report _ next ih =>
    have stepped : t.step c .carriedOut = { t with program := next } := by
      simp only [Trial.step, same]
    refine .step matched.on .carriedOut ?_
    rw [stepped]
    exact ih (matched.beside ⟨rfl, rfl, rfl, rfl, id⟩ rfl rfl matched.memory) rfl
  | clock next ih | fresh next ih | random next ih =>
    refine .step matched.on .carriedOut (ih _ ?_ ?_)
    all_goals simp only [Trial.step, same]
    · exact ⟨matched.source, by simp only [matched.draws], matched.memory, matched.honest,
        matched.on⟩
    · rw [← matched.source, matched.draws]

end World

/-- Running a call in a world whose rules are honest is a trial of the call. -/
theorem Call.exists_trial (c : Call) (m : Memory) {rules : List FaultRule}
    (honest : FaultRule.Honest rules) :
    let w : World := { source := c.source, memory := m, faults := rules }
    ∃ conducts : List Conduct, let t := Trial.run c m (conducts.map Happening.step)
      t.result? = some (w.run c.program).1 ∧ t.memory = (w.run c.program).2.memory := by
  intro w
  have matched : w.Matches c { memory := m, program := c.program } :=
    ⟨rfl, rfl, rfl, honest, rfl⟩
  obtain ⟨conducts, reached, ended⟩ := World.reaches_run c.program matched rfl
  refine ⟨conducts, ?_, reached.memory.symm⟩
  simp only [Trial.result?, Trial.run, ended]

/-- Whatever such a world does to a call that runs out of time, its books stay as they were. -/
theorem Call.books_of_timeout (c : Call) {m : Memory} (wf : m.WellFormed) {rules : List FaultRule}
    (honest : FaultRule.Honest rules) {limit : Duration} :
    let w : World := { source := c.source, memory := m, faults := rules }
    (w.run c.program).1 = .error (.timeout limit) →
      (w.run c.program).2.memory.books = m.books := by
  intro w late
  obtain ⟨conducts, ended, memory⟩ := c.exists_trial m honest
  have uncommitted := Trial.uncommitted_of_timeout wf (ended.trans (congrArg some late))
  rw [← memory]
  refine (Trial.spares_of_uncommitted uncommitted).alone fun next member => ?_
  obtain ⟨conduct, -, rfl⟩ := List.mem_map.mp member
  rfl

end PointLedger
