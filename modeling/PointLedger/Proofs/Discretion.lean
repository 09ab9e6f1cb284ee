import PointLedger.Proofs.Exchanges

/-!
What the texts of store failures can change. A program is run twice, on a host and on the same host
with other texts in its store's failures. As long as the program takes no decision on a text it
asks for the same things in both runs, so that the two run in lockstep, up to reports after which
nothing is asked. Two programs are discreet when they do so, end in values that agree, and give a
failure outside of transactions straight back.
-/

namespace PointLedger

namespace StoreError

/-- The text that a store gives with a failure. -/
def detail : StoreError → String
  | uniqueViolation detail | backend detail | serialization detail => detail

/-- The failure with another text. -/
def withDetail (text : String) : StoreError → StoreError
  | uniqueViolation _ => uniqueViolation text
  | backend _ => backend text
  | serialization _ => serialization text

end StoreError

/-- The host, with other texts in the failures of its store. -/
def Host.worded {σ : Type} (host : Host σ) (word : σ → Request → String → String) : Host σ :=
  let reworded (s : σ) (request : Request) (e : StoreError) :=
    e.withDetail (word s request e.detail)
  { host with
    answer s request :=
      let (answer, s') := host.answer s request
      (answer.mapError (reworded s request), s')
    answerInTime s request :=
      let (answer, s') := host.answerInTime s request
      (answer.map (Except.mapError (reworded s request)), s') }

/-- The store rejects a request outside of transactions for a unique constraint, with this text. -/
def Exchange.Discloses (x : Exchange) (text : String) : Prop :=
  x.request.tx? = none ∧ x.answer = some (.error (.uniqueViolation text))

/-- In which values two runs may end when the texts differ: in values that agree, after which they
go on alike, or in values after which neither asks for anything; and in which value a failure
outside of transactions surfaces. -/
structure Discretion (α : Type) where
  agree : α → α → Prop
  closing : α → α → Prop
  surface : StoreError → α → Prop
  hidden : ∀ {e : StoreError} {text : String} {a b : α}, (∀ detail, e ≠ .uniqueViolation detail) →
    surface e a → surface (e.withDetail text) b → agree a b

namespace Program

variable {α β : Type}

/-- The program reports and gives this value. -/
def Closes : Program α → α → Prop
  | .done value, a => value = a
  | .report _ next, a => next.Closes a
  | _, _ => False

/-- The failure surfaces in the value that the program closes with. -/
def Surfaces (d : Discretion α) (e : StoreError) (program : Program α) : Prop :=
  ∃ a, d.surface e a ∧ program.Closes a

/-- The two programs ask for the same things, whatever texts the failures of the store have. -/
inductive Discreet (d : Discretion α) : Program α → Program α → Prop where
  | done {a b : α} (agree : d.agree a b) : Discreet d (.done a) (.done b)
  | closed {p p' : Program α} {a b : α} (closing : d.closing a b) (closes : p.Closes a)
      (closes' : p'.Closes b) : Discreet d p p'
  | ask {request : Request} {next next' : Except StoreError request.Answer → Program α}
      (answered : ∀ value, Discreet d (next (.ok value)) (next' (.ok value)))
      (inside : request.tx? ≠ none → ∀ e text,
        Discreet d (next (.error e)) (next' (.error (e.withDetail text))))
      (outside : request.tx? = none → ∀ e,
        (next (.error e)).Surfaces d e ∧ (next' (.error e)).Surfaces d e) :
      Discreet d (.ask request next) (.ask request next')
  | askInTime {request : Request}
      {next next' : Option (Except StoreError request.Answer) → Program α}
      (answered : ∀ value, Discreet d (next (some (.ok value))) (next' (some (.ok value))))
      (late : Discreet d (next none) (next' none))
      (inside : request.tx? ≠ none → ∀ e text,
        Discreet d (next (some (.error e))) (next' (some (.error (e.withDetail text)))))
      (outside : request.tx? = none → ∀ e,
        (next (some (.error e))).Surfaces d e ∧ (next' (some (.error e))).Surfaces d e) :
      Discreet d (.askInTime request next) (.askInTime request next')
  | startTimer {limit : Duration} {next next' : Program α} (rest : Discreet d next next') :
      Discreet d (.startTimer limit next) (.startTimer limit next')
  | clock {next next' : Timestamp → Program α} (rest : ∀ time, Discreet d (next time) (next' time)) :
      Discreet d (.clock next) (.clock next')
  | fresh {next next' : Uuid → Program α} (rest : ∀ id, Discreet d (next id) (next' id)) :
      Discreet d (.fresh next) (.fresh next')
  | random {next next' : Except String RandomBytes → Program α}
      (rest : ∀ bytes, Discreet d (next bytes) (next' bytes)) :
      Discreet d (.random next) (.random next')

theorem Closes.bind {p : Program α} {f : α → Program β} {a : α} {b : β} (closes : p.Closes a)
    (rest : (f a).Closes b) : (p.bind f).Closes b := by
  induction p with
  | done value =>
    obtain rfl : value = a := closes
    exact rest
  | report signal next ih => exact ih closes
  | _ => exact closes.elim

theorem Closes.run {σ : Type} {p : Program α} {a : α} (closes : p.Closes a) (host : Host σ)
    (s : σ) : (p.run host s).1 = a ∧ p.record host s = [] := by
  induction p generalizing s with
  | done value => exact ⟨closes, rfl⟩
  | report signal next ih => exact ih closes _
  | _ => exact closes.elim

namespace Discreet

variable {d : Discretion α} {d' : Discretion β} {p p' : Program α} {f f' : α → Program β}

/-- Discreet programs go on discreetly. -/
theorem bind (discreet : p.Discreet d p')
    (agrees : ∀ a b, d.agree a b → (f a).Discreet d' (f' b))
    (closes : ∀ a b, d.closing a b → ∃ a' b', d'.closing a' b' ∧ (f a).Closes a' ∧ (f' b).Closes b')
    (surfaces : ∀ e a, d.surface e a → (f a).Surfaces d' e ∧ (f' a).Surfaces d' e) :
    (p.bind f).Discreet d' (p'.bind f') := by
  have surfaced {q : Program α} {e : StoreError} (surfacing : q.Surfaces d e) :
      (q.bind f).Surfaces d' e ∧ (q.bind f').Surfaces d' e := by
    obtain ⟨a, surface, ends⟩ := surfacing
    obtain ⟨⟨b, surface₁, ends₁⟩, b', surface₂, ends₂⟩ := surfaces e a surface
    exact ⟨⟨b, surface₁, ends.bind ends₁⟩, b', surface₂, ends.bind ends₂⟩
  induction discreet with
  | done agree => exact agrees _ _ agree
  | closed closing ends ends' =>
    obtain ⟨a', b', closing', first, second⟩ := closes _ _ closing
    exact .closed closing' (ends.bind first) (ends'.bind second)
  | ask _ _ outside answered inside =>
    exact .ask answered inside fun bare e =>
      ⟨(surfaced (outside bare e).1).1, (surfaced (outside bare e).2).2⟩
  | askInTime _ _ _ outside answered late inside =>
    exact .askInTime answered late inside fun bare e =>
      ⟨(surfaced (outside bare e).1).1, (surfaced (outside bare e).2).2⟩
  | startTimer _ ih => exact .startTimer ih
  | clock _ ih => exact .clock ih
  | fresh _ ih => exact .fresh ih
  | random _ ih => exact .random ih

section Outcome

variable {σ : Type} {host : Host σ} {word : σ → Request → String → String} {s s' : σ}
  {q q' : Program α} {x : Exchange}

/-- What two runs come to: nothing was disclosed and the values agree, or what was disclosed surfaces
in both, in the second one with the text that it was given. -/
def Outcome (d : Discretion α) (host : Host σ) (word : σ → Request → String → String)
    (p p' : Program α) (s : σ) : Prop :=
  let a := (p.run host s).1
  let b := (p'.run (host.worded word) s).1
  ((∀ x ∈ p.record host s, ∀ text, ¬x.Discloses text) ∧ (d.agree a b ∨ d.closing a b)) ∨
    ∃ x ∈ p.record host s, ∃ text, x.Discloses text ∧ d.surface (.uniqueViolation text) a ∧
      ∃ s', d.surface (.uniqueViolation (word s' x.request text)) b

/-- An exchange that discloses nothing, and the rest. -/
theorem Outcome.after (rest : Outcome d host word q q' s') (run : p.run host s = q.run host s')
    (run' : p'.run (host.worded word) s = q'.run (host.worded word) s')
    (record : p.record host s = x :: q.record host s') (silent : ∀ text, ¬x.Discloses text) :
    Outcome d host word p p' s := by
  unfold Outcome
  rw [run, run', record]
  rcases rest with ⟨nothing, values⟩ | ⟨x', member, rest⟩
  · exact .inl ⟨List.forall_mem_cons.mpr ⟨silent, nothing⟩, values⟩
  · exact .inr ⟨x', List.mem_cons_of_mem _ member, rest⟩

/-- A failure outside of transactions, after which nothing is asked. -/
theorem Outcome.failed {request : Request} {e : StoreError} (bare : request.tx? = none)
    (surfaces : q.Surfaces d e)
    (surfaces' : q'.Surfaces d (e.withDetail (word s request e.detail)))
    (run : p.run host s = q.run host s')
    (run' : p'.run (host.worded word) s = q'.run (host.worded word) s')
    (record : p.record host s = ⟨request, some (.error e)⟩ :: q.record host s') :
    Outcome d host word p p' s := by
  obtain ⟨a, surface, closes⟩ := surfaces
  obtain ⟨b, surface', closes'⟩ := surfaces'
  obtain ⟨value, nothing⟩ := closes.run host s'
  obtain ⟨value', -⟩ := closes'.run (host.worded word) s'
  unfold Outcome
  rw [run, run', record, nothing, value, value']
  by_cases violation : ∃ text, e = .uniqueViolation text
  · obtain ⟨text, rfl⟩ := violation
    exact .inr ⟨_, List.mem_singleton_self _, text, ⟨bare, rfl⟩, surface, s, surface'⟩
  · have other : ∀ text, e ≠ .uniqueViolation text := fun text same => violation ⟨text, same⟩
    refine .inl ⟨List.forall_mem_singleton.mpr fun text disclosed => ?_,
      .inl (d.hidden other surface surface')⟩
    cases disclosed.2
    exact other text rfl

/-- A request in a run, and in the run with other texts. -/
theorem run_ask (word : σ → Request → String → String) {request : Request}
    (next next' : Except StoreError request.Answer → Program α)
    {answer : Except StoreError request.Answer} (given : host.answer s request = (answer, s')) :
    (Program.ask request next).run host s = (next answer).run host s' ∧
      (Program.ask request next).record host s =
        ⟨request, some answer⟩ :: (next answer).record host s' ∧
      (Program.ask request next').run (host.worded word) s =
        (next' (answer.mapError fun e => e.withDetail (word s request e.detail))).run
          (host.worded word) s' := by
  simp only [Program.run, Program.record, Host.worded, given, and_self]

theorem run_askInTime (word : σ → Request → String → String) {request : Request}
    (next next' : Option (Except StoreError request.Answer) → Program α)
    {answer : Option (Except StoreError request.Answer)}
    (given : host.answerInTime s request = (answer, s')) :
    (Program.askInTime request next).run host s = (next answer).run host s' ∧
      (Program.askInTime request next).record host s =
        ⟨request, answer⟩ :: (next answer).record host s' ∧
      (Program.askInTime request next').run (host.worded word) s =
        (next' (answer.map (Except.mapError fun e =>
          e.withDetail (word s request e.detail)))).run (host.worded word) s' := by
  simp only [Program.run, Program.record, Host.worded, given, and_self]

/-- Discreet programs run in lockstep. -/
theorem outcome (discreet : p.Discreet d p') (host : Host σ)
    (word : σ → Request → String → String) (s : σ) : Outcome d host word p p' s := by
  induction discreet generalizing s with
  | done agree => exact .inl ⟨fun _ member => (nomatch member), .inl agree⟩
  | closed closing closes closes' =>
    obtain ⟨value, nothing⟩ := closes.run host s
    obtain ⟨value', -⟩ := closes'.run (host.worded word) s
    unfold Outcome
    rw [value, value', nothing]
    exact .inl ⟨fun _ member => (nomatch member), .inr closing⟩
  | @ask request next next' _ _ outside answered inside =>
    rcases given : host.answer s request with ⟨e | value, s'⟩
    all_goals obtain ⟨run, record, run'⟩ := run_ask word next next' given
    · by_cases bare : request.tx? = none
      · exact .failed bare (outside bare _).1 (outside bare _).2 run run' record
      · exact (inside bare e _ s').after run run' record fun text disclosed => bare disclosed.1
    · exact (answered value s').after run run' record fun text disclosed => nomatch disclosed.2
  | @askInTime request next next' _ _ _ outside answered late inside =>
    rcases given : host.answerInTime s request with ⟨_ | e | value, s'⟩
    all_goals obtain ⟨run, record, run'⟩ := run_askInTime word next next' given
    · exact (late s').after run run' record fun text disclosed => nomatch disclosed.2
    · by_cases bare : request.tx? = none
      · exact .failed bare (outside bare _).1 (outside bare _).2 run run' record
      · exact (inside bare e _ s').after run run' record fun text disclosed => bare disclosed.1
    · exact (answered value s').after run run' record fun text disclosed => nomatch disclosed.2
  | startTimer _ ih => exact ih _
  | clock _ ih => exact ih _ _
  | fresh _ ih => exact ih _ _
  | random _ ih => exact ih _ _

end Outcome
end Discreet
end Program

/-! ### Work that may fail -/

/-- What becomes visible of the failures of work: a view of each of them; whether anything is asked
for after one; and which failure one of the store outside of transactions surfaces in. -/
structure Sight (ε φ : Type) where
  view : ε → φ
  last : Prop
  surface : StoreError → ε → Prop
  hidden : ∀ {e : StoreError} {text : String} {f f' : ε}, (∀ detail, e ≠ .uniqueViolation detail) →
    surface e f → surface (e.withDetail text) f' → view f = view f'

section Failing

variable {α β ε ε' φ : Type} {sight : Sight ε φ}

/-- The sight of work within a transaction, from where no failure surfaces as it is. -/
def Sight.within (view : ε → φ) (last : Prop) : Sight ε φ where
  view := view
  last := last
  surface _ _ := False
  hidden _ surface := surface.elim

/-- Discretion towards those who see this much of the failures. -/
def Discretion.towards (sight : Sight ε φ) : Discretion (Except ε α) where
  agree a b := a.mapError sight.view = b.mapError sight.view
  closing a b := sight.last ∧
    ∃ e e', a = .error e ∧ b = .error e' ∧ sight.view e = sight.view e'
  surface e a := ∃ f, a = .error f ∧ sight.surface e f
  hidden := by
    rintro e text _ _ other ⟨f, rfl, first⟩ ⟨f', rfl, second⟩
    exact congrArg Except.error (sight.hidden other first second)

namespace Program.Discreet

/-- Two failures that look the same. -/
theorem failed {e e' : ε} (same : sight.view e = sight.view e') :
    (Program.done (.error e)).Discreet (.towards sight) (Program.done (.error e' : Except ε α)) :=
  .done (congrArg Except.error same)

theorem bindExcept {first first' : ExceptT ε Program α} {next : α → ExceptT ε Program β}
    (discreet : first.run.Discreet (.towards sight) first'.run)
    (rest : ∀ value, (next value).run.Discreet (.towards sight) (next value).run) :
    (first >>= next).run.Discreet (.towards sight) (first' >>= next).run := by
  refine discreet.bind (fun a b agree => ?_) (fun a b closed => ?_) fun e a surfaces => ?_
  · rcases a with e | value <;> rcases b with e' | value'
    · exact .failed (Except.error.inj agree)
    · cases agree
    · cases agree
    · obtain rfl := Except.ok.inj agree
      exact rest value
  · obtain ⟨last, e, e', rfl, rfl, same⟩ := closed
    exact ⟨.error e, .error e', ⟨last, e, e', rfl, rfl, same⟩, rfl, rfl⟩
  · obtain ⟨f, rfl, surface⟩ := surfaces
    exact ⟨⟨_, ⟨f, rfl, surface⟩, rfl⟩, _, ⟨f, rfl, surface⟩, rfl⟩

/-- A program that cannot fail goes on with what follows. -/
theorem run_bindLift (program : Program α) (next : α → ExceptT ε Program β) :
    ((liftM program : ExceptT ε Program α) >>= next).run =
      program.bind fun value => (next value).run :=
  bind_assoc _ _ _

/-- Failures are adapted when they leave a transaction. -/
theorem adapt {attempt attempt' : ExceptT ε' Program α} (f : ε' → ε) (last : sight.last)
    (discreet : attempt.run.Discreet (.towards (.within (sight.view ∘ f) True)) attempt'.run) :
    (ExceptT.adapt f attempt).run.Discreet (.towards sight) (ExceptT.adapt f attempt').run := by
  refine discreet.bind (fun a b agree => .done ?_) (fun a b closed => ?_) fun _ _ surfaces => ?_
  · rcases a with e | value <;> rcases b with e' | value'
    · exact congrArg Except.error (Except.error.inj agree)
    · cases agree
    · cases agree
    · exact congrArg Except.ok (Except.ok.inj agree)
  · obtain ⟨-, e, e', rfl, rfl, same⟩ := closed
    exact ⟨_, _, ⟨last, f e, f e', rfl, rfl, same⟩, rfl, rfl⟩
  · obtain ⟨_, -, never⟩ := surfaces
    exact never.elim

end Program.Discreet
end Failing
end PointLedger
