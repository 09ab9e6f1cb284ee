import PointLedger.Engine.Attempt

/-!
What programs exchange with a store. A program exhibits a list of exchanges when it makes these
requests and is given these answers, whatever else it meets on the way. The store may answer in any
way; a request under the timer may be left without an answer, after which the program goes on, and
the program may be dropped at any point. Every run on a host is of this kind.
-/

namespace PointLedger

/-- A request to a store and what came of it. A request without an answer was left waiting. -/
structure Exchange where
  request : Request
  answer : Option (Except StoreError request.Answer)

/-- True when the store did what it was asked for. -/
def Exchange.succeeded (x : Exchange) : Bool :=
  match x.answer with
  | some (.ok _) => true
  | _ => false

namespace Program

variable {α β ε : Type}

/-- The program makes these exchanges and gives this value; without a value it was dropped after
them. -/
inductive Exhibits : Program α → List Exchange → Option α → Prop where
  | dropped (program : Program α) : Exhibits program [] none
  | done (value : α) : Exhibits (.done value) [] (some value)
  /-- The program is dropped while the request waits. -/
  | waiting {request : Request} {next : Except StoreError request.Answer → Program α} :
      Exhibits (.ask request next) [⟨request, none⟩] none
  | ask {request : Request} {next : Except StoreError request.Answer → Program α}
      (answer : Except StoreError request.Answer) {xs : List Exchange} {outcome : Option α}
      (rest : Exhibits (next answer) xs outcome) :
      Exhibits (.ask request next) (⟨request, some answer⟩ :: xs) outcome
  | askInTime {request : Request} {next : Option (Except StoreError request.Answer) → Program α}
      (answer : Option (Except StoreError request.Answer)) {xs : List Exchange}
      {outcome : Option α} (rest : Exhibits (next answer) xs outcome) :
      Exhibits (.askInTime request next) (⟨request, answer⟩ :: xs) outcome
  | startTimer {limit : Duration} {next : Program α} {xs : List Exchange} {outcome : Option α}
      (rest : Exhibits next xs outcome) : Exhibits (.startTimer limit next) xs outcome
  | clock {next : Timestamp → Program α} (time : Timestamp) {xs : List Exchange}
      {outcome : Option α} (rest : Exhibits (next time) xs outcome) :
      Exhibits (.clock next) xs outcome
  | fresh {next : Uuid → Program α} (id : Uuid) {xs : List Exchange} {outcome : Option α}
      (rest : Exhibits (next id) xs outcome) : Exhibits (.fresh next) xs outcome
  | random {next : Except String RandomBytes → Program α} (bytes : Except String RandomBytes)
      {xs : List Exchange} {outcome : Option α} (rest : Exhibits (next bytes) xs outcome) :
      Exhibits (.random next) xs outcome
  | report {signal : Signal} {next : Program α} {xs : List Exchange} {outcome : Option α}
      (rest : Exhibits next xs outcome) : Exhibits (.report signal next) xs outcome

/-- What a program exchanges when it runs on a host. -/
def record {σ : Type} (host : Host σ) : Program α → σ → List Exchange
  | .done _, _ => []
  | .ask request next, s =>
    let (answer, s) := host.answer s request
    ⟨request, some answer⟩ :: record host (next answer) s
  | .askInTime request next, s =>
    let (answer, s) := host.answerInTime s request
    ⟨request, answer⟩ :: record host (next answer) s
  | .startTimer limit next, s => record host next (host.startTimer s limit)
  | .clock next, s =>
    let (time, s) := host.clock s
    record host (next time) s
  | .fresh next, s =>
    let (id, s) := host.fresh s
    record host (next id) s
  | .random next, s =>
    let (bytes, s) := host.random s
    record host (next bytes) s
  | .report signal next, s => record host next (host.report s signal)

theorem exhibits_record {σ : Type} (host : Host σ) (program : Program α) (s : σ) :
    program.Exhibits (program.record host s) (some (program.run host s).1) := by
  induction program generalizing s with
  | done value => exact .done value
  | ask request next ih => exact .ask _ (ih _ _)
  | askInTime request next ih => exact .askInTime _ (ih _ _)
  | startTimer limit next ih => exact .startTimer (ih _)
  | clock next ih => exact .clock _ (ih _ _)
  | fresh next ih => exact .fresh _ (ih _ _)
  | random next ih => exact .random _ (ih _ _)
  | report signal next ih => exact .report (ih _)

namespace Exhibits

variable {xs : List Exchange} {value : α}

theorem of_done {outcome : Option α} (exhibits : (Program.done value).Exhibits xs outcome) :
    xs = [] ∧ ∀ result, outcome = some result → result = value := by
  cases exhibits with
  | dropped => exact ⟨rfl, nofun⟩
  | done => exact ⟨rfl, fun _ same => (Option.some.inj same).symm⟩

/-- Of two programs in a row the first one is dropped, or it ends and the second one goes on. -/
theorem of_bind {program : Program α} {next : α → Program β} {outcome : Option β}
    (exhibits : (program.bind next).Exhibits xs outcome) :
    (program.Exhibits xs none ∧ outcome = none) ∨ ∃ value ys zs, xs = ys ++ zs ∧
      program.Exhibits ys (some value) ∧ (next value).Exhibits zs outcome := by
  induction program generalizing xs with
  | done value => exact .inr ⟨value, [], xs, rfl, .done value, exhibits⟩
  | ask request rest ih =>
    cases exhibits with
    | dropped => exact .inl ⟨.dropped _, rfl⟩
    | waiting => exact .inl ⟨.waiting, rfl⟩
    | ask answer exhibits =>
      rcases ih answer exhibits with ⟨early, rfl⟩ | ⟨value, ys, zs, rfl, first, second⟩
      · exact .inl ⟨.ask answer early, rfl⟩
      · exact .inr ⟨value, _ :: ys, zs, rfl, .ask answer first, second⟩
  | askInTime request rest ih =>
    cases exhibits with
    | dropped => exact .inl ⟨.dropped _, rfl⟩
    | askInTime answer exhibits =>
      rcases ih answer exhibits with ⟨early, rfl⟩ | ⟨value, ys, zs, rfl, first, second⟩
      · exact .inl ⟨.askInTime answer early, rfl⟩
      · exact .inr ⟨value, _ :: ys, zs, rfl, .askInTime answer first, second⟩
  | startTimer limit rest ih =>
    cases exhibits with
    | dropped => exact .inl ⟨.dropped _, rfl⟩
    | startTimer exhibits =>
      rcases ih exhibits with ⟨early, rfl⟩ | ⟨value, ys, zs, rfl, first, second⟩
      · exact .inl ⟨.startTimer early, rfl⟩
      · exact .inr ⟨value, ys, zs, rfl, .startTimer first, second⟩
  | clock rest ih =>
    cases exhibits with
    | dropped => exact .inl ⟨.dropped _, rfl⟩
    | clock time exhibits =>
      rcases ih time exhibits with ⟨early, rfl⟩ | ⟨value, ys, zs, rfl, first, second⟩
      · exact .inl ⟨.clock time early, rfl⟩
      · exact .inr ⟨value, ys, zs, rfl, .clock time first, second⟩
  | fresh rest ih =>
    cases exhibits with
    | dropped => exact .inl ⟨.dropped _, rfl⟩
    | fresh id exhibits =>
      rcases ih id exhibits with ⟨early, rfl⟩ | ⟨value, ys, zs, rfl, first, second⟩
      · exact .inl ⟨.fresh id early, rfl⟩
      · exact .inr ⟨value, ys, zs, rfl, .fresh id first, second⟩
  | random rest ih =>
    cases exhibits with
    | dropped => exact .inl ⟨.dropped _, rfl⟩
    | random bytes exhibits =>
      rcases ih bytes exhibits with ⟨early, rfl⟩ | ⟨value, ys, zs, rfl, first, second⟩
      · exact .inl ⟨.random bytes early, rfl⟩
      · exact .inr ⟨value, ys, zs, rfl, .random bytes first, second⟩
  | report signal rest ih =>
    cases exhibits with
    | dropped => exact .inl ⟨.dropped _, rfl⟩
    | report exhibits =>
      rcases ih exhibits with ⟨early, rfl⟩ | ⟨value, ys, zs, rfl, first, second⟩
      · exact .inl ⟨.report early, rfl⟩
      · exact .inr ⟨value, ys, zs, rfl, .report first, second⟩

/-- Work that may fail in two parts ends early, when the first part is dropped or fails, or the
second part goes on. -/
theorem of_bindExcept {first : ExceptT ε Program α} {next : α → ExceptT ε Program β}
    {outcome : Option (Except ε β)} (exhibits : (first >>= next).run.Exhibits xs outcome) :
    (∃ result, first.run.Exhibits xs result ∧ (outcome.isSome → result.isSome) ∧
      ∀ value, outcome ≠ some (.ok value)) ∨
      ∃ value ys zs, xs = ys ++ zs ∧ first.run.Exhibits ys (some (.ok value)) ∧
        (next value).run.Exhibits zs outcome := by
  rcases of_bind exhibits with ⟨dropped, rfl⟩ | ⟨result, ys, zs, rfl, first, second⟩
  · exact .inl ⟨none, dropped, id, nofun⟩
  · cases result with
    | error error =>
      obtain ⟨rfl, same⟩ := of_done second
      refine .inl ⟨_, by rwa [List.append_nil], fun _ => rfl, ?_⟩
      intro value succeeded
      cases same _ succeeded
    | ok value => exact .inr ⟨value, ys, zs, rfl, first, second⟩

/-- When work in two parts succeeds, so did its first part. -/
theorem of_bindOk {first : ExceptT ε Program α} {next : α → ExceptT ε Program β} {result : β}
    (exhibits : (first >>= next).run.Exhibits xs (some (.ok result))) :
    ∃ value ys zs, xs = ys ++ zs ∧ first.run.Exhibits ys (some (.ok value)) ∧
      (next value).run.Exhibits zs (some (.ok result)) := by
  rcases of_bindExcept exhibits with ⟨_, -, -, failed⟩ | both
  · exact absurd rfl (failed result)
  · exact both

/-- A program that cannot fail, as work that may. -/
theorem of_lift {program : Program α} {outcome : Option (Except ε α)}
    (exhibits : (liftM program : ExceptT ε Program α).run.Exhibits xs outcome) :
    (program.Exhibits xs none ∧ outcome = none) ∨ ∃ value, program.Exhibits xs (some value) ∧
      ∀ result, outcome = some result → result = .ok value := by
  have bound : (program.bind fun value => .done (.ok value)).Exhibits xs outcome := exhibits
  rcases of_bind bound with dropped | ⟨value, ys, zs, rfl, first, done⟩
  · exact .inl dropped
  · obtain ⟨rfl, same⟩ := of_done done
    exact .inr ⟨value, by rwa [List.append_nil], same⟩

/-- A program that cannot fail, and what follows. -/
theorem of_bindLift {program : Program α} {next : α → ExceptT ε Program β}
    {outcome : Option (Except ε β)}
    (exhibits : ((liftM program : ExceptT ε Program α) >>= next).run.Exhibits xs outcome) :
    (program.Exhibits xs none ∧ outcome = none) ∨ ∃ value ys zs, xs = ys ++ zs ∧
      program.Exhibits ys (some value) ∧ (next value).run.Exhibits zs outcome := by
  rcases of_bind exhibits with ⟨lifted, rfl⟩ | ⟨result, ys, zs, rfl, lifted, second⟩
  · rcases of_lift lifted with ⟨dropped, -⟩ | ⟨value, first, -⟩
    · exact .inl ⟨dropped, rfl⟩
    · exact .inr ⟨value, xs, [], (List.append_nil xs).symm, first, .dropped _⟩
  · rcases of_lift lifted with ⟨-, ended⟩ | ⟨value, first, same⟩
    · cases ended
    · obtain rfl := same result rfl
      exact .inr ⟨value, ys, zs, rfl, first, second⟩

end Exhibits
end Program
end PointLedger
