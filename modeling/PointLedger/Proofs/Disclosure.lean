import PointLedger.Proofs.Composition
import PointLedger.Proofs.Discretion
import PointLedger.Proofs.Routing

/-!
What a response shows of the store's own words. The text of a store failure is replaced in the
response, and a unique violation within a transaction becomes a conflict of references. A unique
violation outside of transactions is neither: its text is in the response, and no other text is.
-/

namespace PointLedger

open Program

/-- A view in which no two store failures of one kind differ. -/
def Wordless {φ : Type} (view : LedgerError → φ) : Prop :=
  ∀ (e : StoreError) (text : String), view (.store e) = view (.store (e.withDetail text))

/-- What is seen of an interruption. -/
def Interruption.view {φ : Type} (view : LedgerError → φ) : Interruption → Option φ
  | .failed error => some (view error)
  | .overdue => none

/-- Work that looks the same in every run, for those who see a view of its failures. -/
def Staged.Discreet {α φ : Type} (view : LedgerError → φ) (work : Staged α) : Prop :=
  work.run.Discreet (.towards (.within (Interruption.view view) False)) work.run

theorem Staged.composes_discreet {φ : Type} {view : LedgerError → φ} (wordless : Wordless view) :
    Staged.Composes (Discreet view) where
  pure _ := .done rfl
  fail _ := .failed rfl
  ask inside := .askInTime (fun _ => .done rfl) (.failed rfl)
    (fun _ e text => .failed (congrArg some (wordless e text))) fun outside => absurd outside inside
  fresh := .fresh fun _ => .done rfl
  clock := .clock fun _ => .done rfl
  bind := .bindExcept

/-! ### Attempts -/

namespace Attempt

variable {α φ : Type}

/-- What a response shows of the failures of a ledger. -/
def shown : Sight LedgerError Http.Failure where
  view := Http.Failure.ofLedger
  last := True
  surface e f := f = .store e
  hidden := by
    rintro (_ | _ | _) text _ _ other rfl rfl
    · exact absurd rfl (other _)
    · rfl
    · rfl

/-- An attempt that looks the same in every run but for what the store disclosed. -/
def Discreet (attempt : Attempt α) : Prop :=
  attempt.run.Discreet (.towards shown) attempt.run

/-- Unique violations within a transaction are shown without their texts, as all other failures of
the store. -/
theorem wordless_referenceConflict (organizationId referenceId : String) :
    Wordless (Http.Failure.ofLedger ∘ referenceConflict organizationId referenceId) := by
  intro e text
  cases e <;> rfl

/-- A failure outside of transactions surfaces as it is. -/
theorem discreet_ask {request : Request} (outside : request.tx? = none) :
    Discreet (ask request) := by
  have surfaces (e : StoreError) : (Program.done (.error (.store e))).Surfaces
      (Discretion.towards shown : Discretion (Except _ request.Answer)) e := ⟨_, ⟨_, rfl, rfl⟩, rfl⟩
  exact .ask (fun _ => .done rfl) (fun inside => absurd outside inside)
    fun _ e => ⟨surfaces e, surfaces e⟩

/-- A rollback that fails is reported, and nothing is asked for after it. -/
theorem discreet_discard (tx : TxId) {d : Discretion α} {a b : α} (agree : d.agree a b)
    (closing : d.closing a b) :
    ((discard tx).bind fun _ => .done a).Discreet d ((discard tx).bind fun _ => .done b) :=
  .ask (fun _ => .done agree) (fun _ _ _ => .closed closing rfl rfl) nofun

theorem discreet_settle {view : LedgerError → φ} (wordless : Wordless view) (config : EngineConfig)
    (tx : TxId) {a b : Except Interruption α}
    (agree : a.mapError (Interruption.view view) = b.mapError (Interruption.view view)) :
    (settle config tx a).run.Discreet (.towards (.within view True)) (settle config tx b).run := by
  have discarded {e e' : LedgerError} (same : view e = view e') :
      ((discard tx : Attempt Unit) >>= fun _ => (throw e : Attempt α)).run.Discreet
        (.towards (.within view True))
        ((discard tx : Attempt Unit) >>= fun _ => (throw e' : Attempt α)).run := by
    rw [Discreet.run_bindLift, Discreet.run_bindLift]
    exact discreet_discard tx (congrArg Except.error same) ⟨trivial, e, e', rfl, rfl, same⟩
  rcases a with (e | _) | value <;> rcases b with (e' | _) | value'
  · exact discarded (Option.some.inj (Except.error.inj agree))
  · cases agree
  · cases agree
  · cases agree
  · exact discarded rfl
  · cases agree
  · cases agree
  · cases agree
  · obtain rfl := Except.ok.inj agree
    refine .bindExcept ?_ fun _ => .done rfl
    exact .ask (fun _ => .done rfl) (fun _ e text => .failed (wordless e text)) nofun

theorem discreet_inTransaction {config : EngineConfig} {organizationId referenceId : String}
    {work : TxId → Staged α}
    (discreet : ∀ {φ : Type} {view : LedgerError → φ}, Wordless view →
      ∀ tx, Staged.Discreet view (work tx)) :
    Discreet (inTransaction config organizationId referenceId work) := by
  refine .startTimer (.askInTime (fun tx => ?_) (.failed rfl) nofun fun _ e =>
    ⟨⟨_, ⟨_, rfl, rfl⟩, rfl⟩, _, ⟨_, rfl, rfl⟩, rfl⟩)
  have wordless := wordless_referenceConflict organizationId referenceId
  change ((liftM (work tx).run : Attempt _) >>= _).run.Discreet _
    ((liftM (work tx).run : Attempt _) >>= _).run
  rw [Discreet.run_bindLift]
  refine Program.Discreet.bind (discreet wordless tx) (fun a b agree => ?_)
    (fun _ _ closed => closed.1.elim) fun _ _ ⟨_, _, never⟩ => never.elim
  exact .adapt _ trivial (discreet_settle wordless config tx agree)

theorem composes_discreet : Composes Discreet where
  ofExcept _ := .done rfl
  ask := discreet_ask
  newTransactionId := .clock fun _ => .random fun bytes => by cases bytes <;> exact .done rfl
  inTransaction _ _ _ _ steps := discreet_inTransaction fun wordless =>
    steps (Staged.composes_discreet wordless)
  bind := .bindExcept

end Attempt

/-! ### Responses -/

namespace Http

/-- Discretion towards those who see the response to a request. -/
def Request.discretion (r : Request) : Discretion Response where
  agree a b := a = b
  closing a b := a = b
  surface e a := a = r.sent (Failure.ofLedger (.store e)).response
  hidden := by
    rintro (_ | _ | _) text _ _ other rfl rfl
    · exact absurd rfl (other _)
    · rfl
    · rfl

variable {α : Type} {config : EngineConfig} {r : Request} {encode : α → Json} {status : Nat}

theorem closes_conclude (r : Request) (status : Nat) (encode : α → Json)
    (result : Except LedgerError α) :
    (r.conclude status encode result).Closes (r.sent (reply status encode result)) := by
  cases result with
  | ok value => rfl
  | error error =>
    unfold Request.conclude respond
    dsimp only
    split <;> rfl

/-- What an attempt comes to is answered. -/
theorem discreet_answered {attempt : Attempt α} (discreet : attempt.Discreet)
    {answer : Except LedgerError α → Program Response} {shown : α → Response}
    (succeeded : ∀ value, (answer (.ok value)).Closes (shown value))
    (failed : ∀ error,
      (answer (.error error)).Closes (r.sent (Failure.ofLedger error).response)) :
    (attempt.run.bind answer).Discreet r.discretion (attempt.run.bind answer) := by
  refine Program.Discreet.bind discreet (fun a b agree => ?_) (fun a b closed => ?_)
    fun e a surfaces => ?_
  · rcases a with e | value <;> rcases b with e' | value'
    · refine .closed ?_ (failed e) (failed e')
      exact congrArg (r.sent ·.response) (Except.error.inj agree)
    · cases agree
    · cases agree
    · obtain rfl := Except.ok.inj agree
      exact .closed rfl (succeeded value) (succeeded value)
  · obtain ⟨-, e, e', rfl, rfl, same⟩ := closed
    exact ⟨_, _, congrArg (r.sent ·.response) same, failed e, failed e'⟩
  · obtain ⟨f, rfl, rfl⟩ := surfaces
    exact ⟨⟨_, rfl, failed _⟩, _, rfl, failed _⟩

theorem discreet_observed {operation : Operation} {attempt : Attempt α}
    (discreet : attempt.Discreet) :
    ((Ledger.observe operation attempt).bind (r.conclude status encode)).Discreet r.discretion
      ((Ledger.observe operation attempt).bind (r.conclude status encode)) := by
  unfold Ledger.observe
  change ((attempt.run.bind _).bind _).Discreet r.discretion ((attempt.run.bind _).bind _)
  rw [Program.bind_assoc]
  exact discreet_answered discreet (fun value => closes_conclude r status encode (.ok value))
    fun error => closes_conclude r status encode (.error error)

theorem discreet_inquiry (q : Inquiry) (encode : q.Answer → Json) :
    (q.program.bind (r.conclude status encode)).Discreet r.discretion
      (q.program.bind (r.conclude status encode)) := by
  by_cases verifies : ∃ account, q = .verification account
  · -- what the chain comes to is reported within the attempt, when nothing is left to be asked
    obtain ⟨account, rfl⟩ := verifies
    change (((Attempt.ask _).run.bind _).bind _ |>.bind _).Discreet r.discretion
      (((Attempt.ask _).run.bind _).bind _ |>.bind _)
    rw [Program.bind_assoc, Program.bind_assoc]
    exact discreet_answered (Attempt.discreet_ask rfl)
      (fun entries => closes_conclude r status encode (.ok (verifyChain entries)))
      fun error => closes_conclude r status encode (.error error)
  · obtain ⟨attempt, program, composed⟩ :=
      Duty.exists_attempt q fun account same => verifies ⟨account, same⟩
    rw [program]
    exact discreet_observed (composed Attempt.composes_discreet)

theorem discreet_serve (config : EngineConfig) (r : Request) :
    (serve config r).Discreet r.discretion (serve config r) := by
  have serves := serves_serve config r
  generalize serve config r = program at serves ⊢
  cases serves with
  | plain response refused => exact .done rfl
  | addition organization user account body named posted =>
    change ((Program.bind _ _).bind _).Discreet r.discretion ((Program.bind _ _).bind _)
    rw [Program.bind_assoc]
    exact discreet_answered (Attempt.composes_discreet.tryAdd config _)
      (fun entry => closes_conclude r 201 Entry.toJson (.ok entry))
      fun error => closes_conclude r 201 Entry.toJson (.error error)
  | reversal raw text id named posted decoded read =>
    change ((Program.bind _ _).bind _).Discreet r.discretion ((Program.bind _ _).bind _)
    rw [Program.bind_assoc]
    exact discreet_answered (Attempt.composes_discreet.tryRevert config id)
      (fun pair => closes_conclude r 200 Entry.toJson (.ok pair.1))
      fun error => closes_conclude r 200 Entry.toJson (.error error)
  | inquiry q encode asked => exact discreet_inquiry q encode

/-! ### What the response to a request depends on -/

/-- The text of a unique violation can be read off the response, but not without a body. -/
theorem sent_uniqueViolation_inj {text text' : String} (body : r.method ≠ "HEAD")
    (same : r.sent (Failure.ofLedger (.store (.uniqueViolation text))).response =
      r.sent (Failure.ofLedger (.store (.uniqueViolation text'))).response) : text = text' := by
  unfold Request.sent at same
  rw [if_neg body, if_neg body] at same
  have messages : Json.string ("Store error: " ++ ("unique constraint violated: " ++ text)) =
      .string ("Store error: " ++ ("unique constraint violated: " ++ text')) := by
    have members := Json.object.inj (Body.json.inj (congrArg Response.body same))
    exact congrArg Prod.snd (List.cons.inj (List.cons.inj members).2).1
  simpa using Json.string.inj messages

theorem sent_uniqueViolation_head (head : r.method = "HEAD") (text text' : String) :
    r.sent (Failure.ofLedger (.store (.uniqueViolation text))).response =
      r.sent (Failure.ofLedger (.store (.uniqueViolation text'))).response := by
  unfold Request.sent
  rw [if_pos head, if_pos head]
  rfl

/-- The response to a request is the same whatever texts the failures of the store have, unless it
has a body and the store rejects a request outside of transactions for a unique constraint. -/
theorem same_response_iff {σ : Type} (config : EngineConfig) (r : Request) (host : Host σ) (s : σ) :
    (∀ word : σ → PointLedger.Request → String → String,
      ((serve config r).run (host.worded word) s).1 = ((serve config r).run host s).1) ↔
    r.method = "HEAD" ∨ ∀ x ∈ (serve config r).record host s, ∀ text, ¬x.Discloses text := by
  have outcome (word : σ → PointLedger.Request → String → String) :=
    (discreet_serve config r).outcome host word s
  constructor
  · intro same
    rcases outcome fun _ _ text => text ++ "!" with
      ⟨silent, -⟩ | ⟨x, -, text, -, shown, s', shown'⟩
    · exact .inr silent
    · refine .inl (Classical.byContradiction fun body => ?_)
      have longer : text = text ++ "!" :=
        sent_uniqueViolation_inj body (shown.symm.trans ((same _).symm.trans shown'))
      simpa using congrArg String.length longer
  · intro unseen word
    rcases outcome word with ⟨-, same | same⟩ | ⟨x, member, text, disclosed, shown, s', shown'⟩
    · exact same.symm
    · exact same.symm
    · have head := unseen.resolve_right fun silent => silent x member text disclosed
      exact shown'.trans ((sent_uniqueViolation_head head _ _).trans shown.symm)

/-- The text of a store failure reaches the client. -/
theorem response_depends_on_text :
    ¬∀ (σ : Type) (config : EngineConfig) (r : Request) (host : Host σ)
      (word : σ → PointLedger.Request → String → String) (s : σ),
      ((serve config r).run (host.worded word) s).1 = ((serve config r).run host s).1 := by
  intro same
  let r : Request := ⟨"GET", "/api/v1/organizations/acme/users/ann/balance", [], ""⟩
  let w : World := {
    source := {
      clock := fun _ => Timestamp.epoch, fresh := Uuid.ofNat, random := fun _ => .ok default }
    faults := [⟨"find_balance", 1, .error (.uniqueViolation "rows of 10.0.0.7"), 0⟩] }
  have bodies := congrArg Response.body
    (same World default r World.host (fun _ _ _ => "rows of another") w)
  exact absurd bodies (by decide +kernel)

end Http
end PointLedger
