import Mathlib.Data.List.Forall2
import PointLedger.Proofs.Booking
import PointLedger.Proofs.Isolation
import PointLedger.Proofs.Serial

/-!
The observer's log. Every operation tells the observer of the ledger what became of it, with one
event or, when it only read and did not verify a chain, with one event if it failed. The log of
operations one after the other is what they told, in their order, and it carries the entries that
they committed, each once and in the order of their commits. Requests may come late and accounts may
be locked by others, so that operations run out of time.
-/

namespace PointLedger

/-- The entry whose commit an event reports. -/
def LedgerEvent.committed? : LedgerEvent → Option Entry
  | .entryAdded entry => some entry
  | .entryReverted _ reversal => some reversal
  | _ => none

/-- One operation of a ledger with what it is asked for. -/
inductive Duty where
  | mutation (config : EngineConfig) (mutation : Mutation)
  | inquiry (inquiry : Inquiry)

namespace Duty

/-- What an operation gives when it succeeds. -/
@[reducible] def Answer : Duty → Type
  | .mutation _ _ => Entry
  | .inquiry q => q.Answer

def operation : Duty → Operation
  | .mutation _ (.add _) => .addEntry
  | .mutation _ (.revert _) => .revertEntry
  | .inquiry (.listing _ _) => .listEntries
  | .inquiry (.entry _) => .getEntry
  | .inquiry (.balance _) => .getBalance
  | .inquiry (.verification _) => .verifyChain
  | .inquiry (.reconciliation _) => .reconcile

/-- The program that an operation runs. -/
def program : (t : Duty) → Program (Except LedgerError t.Answer)
  | .mutation config (.add request) => Ledger.addEntry config request
  | .mutation config (.revert id) => Ledger.revertEntry config id
  | .inquiry q => q.program

/-- What an operation with this result tells the observer. -/
def Tells : (t : Duty) → Except LedgerError t.Answer → List LedgerEvent → Prop
  | t, .error error, events => events = [.operationFailed t.operation error]
  | .mutation _ (.add _), .ok entry, events => events = [.entryAdded entry]
  | .mutation _ (.revert _), .ok reverted, events =>
    ∃ reversal, events = [.entryReverted reverted reversal]
  | .inquiry (.verification account), .ok report, events =>
    events = [.chainVerified account report]
  | .inquiry _, .ok _, events => events = []

end Duty

/-- Every inquiry but the verification of a chain is an attempt whose failure is reported, put
together of the steps of attempts. -/
theorem Duty.exists_attempt (q : Inquiry) (other : ∀ account, q ≠ .verification account) :
    ∃ attempt : Attempt q.Answer,
      q.program = Ledger.observe (Duty.inquiry q).operation attempt ∧
      ∀ {P : ∀ {α : Type}, Attempt α → Prop}, Attempt.Composes P → P attempt := by
  cases q with
  | listing config query =>
    exact ⟨_, rfl, fun steps => steps.bind (steps.ofExcept _) fun _ =>
      steps.bind (steps.ask rfl) fun total => steps.bind (steps.ask rfl) fun data =>
      steps.ofExcept (.ok _)⟩
  | entry id =>
    refine ⟨_, rfl, fun steps => steps.bind (steps.ask rfl) fun found => ?_⟩
    cases found with
    | none => exact steps.ofExcept (.error _)
    | some entry => exact steps.ofExcept (.ok entry)
  | balance account =>
    exact ⟨_, rfl, fun steps => steps.bind (steps.ask rfl) fun found => steps.ofExcept (.ok _)⟩
  | reconciliation account =>
    exact ⟨_, rfl, fun steps => steps.bind (steps.ask rfl) fun entries =>
      steps.bind (steps.ask rfl) fun pools => steps.bind (steps.ask rfl) fun balance =>
      steps.ofExcept (.ok _)⟩
  | verification account => exact absurd rfl (other account)

/-- An operation that has ended, with its result. -/
abbrev Ended := Σ t : Duty, Except LedgerError t.Answer

/-- Runs operations one after the other, and gives them with their results and the world
afterwards. -/
def World.work (w : World) : List Duty → List Ended × World
  | [] => ([], w)
  | t :: rest =>
    let (result, w) := w.run t.program
    let (results, w) := w.work rest
    (⟨t, result⟩ :: results, w)

/-! ### What calls commit -/

namespace Books

variable {b after : Books} {c : Call} {entry : Entry}

theorem apply_eq_ok (applied : b.apply c = (.ok entry, after)) :
    b.post c = .ok (entry, after) := by
  unfold apply at applied
  split at applied
  · rename_i posted
    cases applied
    exact posted
  · cases applied

theorem apply_eq_error {error : LedgerError} (applied : b.apply c = (.error error, after)) :
    after = b := by
  unfold apply at applied
  split at applied <;> cases applied
  rfl

/-- A call that adds an entry commits the entry that it gives back. -/
theorem entries_of_add {r : EntryRequest} (asked : c.mutation = .add r)
    (posted : b.post c = .ok (entry, after)) : after.entries = b.entries ++ [entry] := by
  obtain ⟨transactionId, -, ⟨r, t, -, -, plan, committed⟩ | ⟨id, e, t, other, -⟩⟩ :=
    post_eq_ok posted
  · obtain ⟨staged, -⟩ := r.job_proper c transactionId _ _ entry t plan
    obtain ⟨-, -, -, rfl⟩ := commit_eq_ok committed
    rw [staged]
  · rw [asked] at other
    cases other

/-- A call that reverts an entry commits the entry that the reference of the reversal finds. -/
theorem entries_of_revert {id : EntryId} (asked : c.mutation = .revert id)
    (posted : b.post c = .ok (entry, after)) {reversal : Entry}
    (found : after.findEntry (.byReference entry.organizationId entry.transactionId) =
      some reversal) : after.entries = b.entries ++ [reversal] := by
  obtain ⟨transactionId, -, ⟨r, t, other, -⟩ | ⟨id, e, t, -, -, plan, committed⟩⟩ :=
    post_eq_ok posted
  · rw [asked] at other
    cases other
  · have proper := entry.revertJob_proper c transactionId
    have planned : (entry.revertJob c transactionId).plan (b.rows entry.account) false =
        .ok (e, t) := plan
    have added : after.findEntry (.byReference entry.organizationId entry.transactionId) = some e :=
      proper.findEntry_duplicate planned committed
    obtain rfl := Option.some.inj (added.symm.trans found)
    obtain ⟨staged, -⟩ := proper _ false e t plan
    obtain ⟨-, -, -, rfl⟩ := commit_eq_ok committed
    rw [staged]

end Books

/-- A call that comes to its report has done what it does on the books, or it has failed and done
nothing. -/
theorem Call.Tried.settled {c : Call} {overdue : Prop} {result : Except LedgerError Entry}
    {g : Progress} {before after : Books} (tried : c.Tried overdue result g)
    (effected : Effected c before after {} g) :
    before.apply c = (result, after) ∨ after = before ∧ ∃ error, result = .error error := by
  rcases effected with ⟨rfl, pending⟩ | ⟨result', -, decided, applied⟩
  · rcases tried with ⟨-, decided | ⟨-, -, failed⟩⟩ | ⟨-, -, applied⟩
    · rw [pending] at decided
      cases decided
    · exact .inr ⟨rfl, failed⟩
    · exact .inl (applied _)
  · rcases tried with ⟨-, decided' | ⟨-, unposted, failed⟩⟩ | ⟨-, pending, -⟩
    · obtain rfl : result' = result := Option.some.inj (decided.symm.trans decided')
      exact .inl applied
    · cases result' with
      | ok entry => exact absurd decided (unposted entry)
      | error error => exact .inr ⟨Books.apply_eq_error applied, failed⟩
    · rw [decided] at pending
      cases pending

/-! ### One operation -/

namespace World

/-- What a world has still to give out. -/
def ahead (w : World) : Source where
  clock k := w.source.clock (w.clockReads + k)
  fresh k := w.source.fresh (w.freshDraws + k)
  random k := w.source.random (w.randomDraws + k)

variable {w : World}

theorem alone_ahead (late : FaultRule.OnlyDelay w.faults) (wf : w.memory.WellFormed)
    (config : EngineConfig) (mutation : Mutation) :
    Alone ⟨config, mutation, w.ahead⟩ True w {} {} where
  clock k := by rw [Nat.zero_add]; rfl
  fresh k := by rw [Nat.zero_add]; rfl
  random k := by rw [Nat.zero_add]; rfl
  late := late
  punctual onTime := absurd trivial onTime
  wellFormed := wf
  live _ _ _ := .inr trivial

/-- What an operation has told the observer and left in the store. -/
structure Logged (w : World) (t : Duty) (result : Except LedgerError t.Answer) (w' : World)
    (events : List LedgerEvent) : Prop where
  tells : t.Tells result events
  heard : w'.events = w.events ++ events
  entries : w'.memory.books.entries =
    w.memory.books.entries ++ events.filterMap LedgerEvent.committed?
  wellFormed : w'.memory.WellFormed

theorem events_report (w : World) (event : LedgerEvent) :
    (w.report (.event event)).events = w.events ++ [event] := by
  simp [events, report, Signal.event?]

/-- What an attempt has left behind when it comes to its report. -/
structure Attempted (w w' : World) (committed : List Entry) : Prop where
  events : w'.events = w.events
  entries : w'.memory.books.entries = w.memory.books.entries ++ committed
  wellFormed : w'.memory.WellFormed

theorem attempted_add (late : FaultRule.OnlyDelay w.faults) (wf : w.memory.WellFormed)
    {config : EngineConfig} {request : EntryRequest} {result : Except LedgerError Entry} {w' : World}
    (ran : w.run (Ledger.tryAdd config request).run = (result, w')) :
    w.Attempted w' result.toOption.toList := by
  have quiet := Attempt.composes_quiet.tryAdd config request
  have heard := quiet.events_run w
  obtain ⟨d, g, alone, tried, effected⟩ :=
    (Attempt.ensures_tryAdd (c := ⟨config, .add request, w.ahead⟩) rfl).run (fun _ => quiet)
      (alone_ahead late wf config _)
  dsimp only at alone tried effected
  rw [ran] at heard alone tried effected
  refine ⟨heard, ?_, alone.wellFormed⟩
  rcases tried.settled effected with applied | ⟨same, error, rfl⟩
  · cases result with
    | error error => simp [Except.toOption, show w'.memory.books = _ from Books.apply_eq_error applied]
    | ok entry => exact Books.entries_of_add rfl (Books.apply_eq_ok applied)
  · simp [Except.toOption, show w'.memory.books = _ from same]

theorem attempted_revert (late : FaultRule.OnlyDelay w.faults) (wf : w.memory.WellFormed)
    {config : EngineConfig} {id : EntryId} {result : Except LedgerError (Entry × Entry)} {w' : World}
    (ran : w.run (Ledger.tryRevert config id).run = (result, w')) :
    w.Attempted w' (result.toOption.map Prod.snd).toList := by
  have quiet := Attempt.composes_quiet.tryRevert config id
  have heard := quiet.events_run w
  obtain ⟨d, g, alone, done, effected⟩ :=
    (Attempt.ensures_tryRevert (c := ⟨config, .revert id, w.ahead⟩) rfl).run (fun _ => quiet)
      (alone_ahead late wf config _)
  dsimp only at alone done effected
  rw [ran] at heard alone done effected
  refine ⟨heard, ?_, alone.wellFormed⟩
  have settled := done.tried.settled effected
  cases result with
  | error error =>
    have same : w'.memory.books = w.memory.books := by
      rcases settled with applied | ⟨same, -⟩
      · exact Books.apply_eq_error applied
      · exact same
    simp [Except.toOption, same]
  | ok pair =>
    obtain ⟨reverted, reversal⟩ := pair
    have applied := settled.resolve_right (by simp [Except.map])
    exact Books.entries_of_revert rfl (Books.apply_eq_ok applied)
      (done.reversal reverted reversal rfl)

/-- Reporting what an attempt came to. -/
theorem Attempted.logged {w' : World} {t : Duty} {result : Except LedgerError t.Answer}
    {committed : List Entry} {event : LedgerEvent} (attempted : w.Attempted w' committed)
    (tells : t.Tells result [event]) (carries : event.committed?.toList = committed) :
    w.Logged t result (w'.report (.event event)) [event] where
  tells := tells
  heard := by rw [events_report, attempted.events]
  entries := by
    refine attempted.entries.trans ?_
    rw [← carries]
    cases committed : event.committed? <;> simp [committed]
  wellFormed := attempted.wellFormed

theorem logged_add (late : FaultRule.OnlyDelay w.faults) (wf : w.memory.WellFormed)
    (config : EngineConfig) (request : EntryRequest) :
    let t : Duty := .mutation config (.add request)
    ∃ events, w.Logged t (w.run t.program).1 (w.run t.program).2 events := by
  intro t
  have run : w.run t.program = _ := w.run_bind (Ledger.tryAdd config request).run _
  rw [run]
  rcases ran : w.run (Ledger.tryAdd config request).run with ⟨error | entry, w'⟩
  · exact ⟨_, (attempted_add late wf ran).logged rfl rfl⟩
  · exact ⟨_, (attempted_add late wf ran).logged rfl rfl⟩

theorem logged_revert (late : FaultRule.OnlyDelay w.faults) (wf : w.memory.WellFormed)
    (config : EngineConfig) (id : EntryId) :
    let t : Duty := .mutation config (.revert id)
    ∃ events, w.Logged t (w.run t.program).1 (w.run t.program).2 events := by
  intro t
  have run : w.run t.program = _ := w.run_bind (Ledger.tryRevert config id).run _
  rw [run]
  rcases ran : w.run (Ledger.tryRevert config id).run with ⟨error | ⟨reverted, reversal⟩, w'⟩
  · exact ⟨_, (attempted_revert late wf ran).logged rfl rfl⟩
  · exact ⟨_, (attempted_revert late wf ran).logged ⟨reversal, rfl⟩ rfl⟩

/-- An operation that is quiet up to its end reports its failure, and nothing else. -/
theorem events_observe {α : Type} {attempt : Attempt α} (quiet : attempt.run.Quiet)
    (operation : Operation) (w : World) :
    (w.run (Ledger.observe operation attempt)).2.events = w.events ++
      match (w.run (Ledger.observe operation attempt)).1 with
      | .ok _ => []
      | .error error => [.operationFailed operation error] := by
  have heard := quiet.events_run w
  have run : w.run (Ledger.observe operation attempt) = _ := w.run_bind attempt.run _
  rw [run]
  rcases ran : w.run attempt.run with ⟨error | value, w'⟩
  · rw [ran] at heard
    exact (w'.events_report _).trans (congrArg (· ++ _) heard)
  · rw [ran] at heard
    exact heard.trans (List.append_nil _).symm

/-- The verification of a chain reports what it found, or its failure. -/
theorem events_verifyChain (account : Account) (w : World) :
    (w.run (Ledger.verifyChain account)).2.events = w.events ++
      match (w.run (Ledger.verifyChain account)).1 with
      | .ok report => [.chainVerified account report]
      | .error error => [.operationFailed .verifyChain error] := by
  have asked := (w.asked_answer (.findEntries (.chain account))).1.signals
  have run : w.run (Ledger.verifyChain account) = _ :=
    w.run_ask (.findEntries (.chain account)) _
  rw [run]
  rcases ran : w.answer (.findEntries (.chain account)) with ⟨error | entries, w'⟩
  all_goals
    rw [ran] at asked
    have heard : w'.events = w.events := by rw [events, events, asked]
    exact (w'.events_report _).trans (congrArg (· ++ _) heard)

/-- What an inquiry tells the observer carries no entry. -/
theorem logged_of_events (wf : w.memory.WellFormed) {q : Inquiry} {events : List LedgerEvent}
    (heard : (w.run q.program).2.events = w.events ++ events)
    (tells : Duty.Tells (.inquiry q) (w.run q.program).1 events)
    (uncommitted : events.filterMap LedgerEvent.committed? = []) :
    w.Logged (.inquiry q) (w.run q.program).1 (w.run q.program).2 events where
  tells := tells
  heard := heard
  entries := by rw [(Inquiry.onlyReads_program q).run w, uncommitted, List.append_nil]
  wellFormed := (Inquiry.onlyReads_program q).run w ▸ wf

theorem logged_observed (wf : w.memory.WellFormed) {q : Inquiry} {attempt : Attempt q.Answer}
    (program : q.program = Ledger.observe (Duty.inquiry q).operation attempt)
    (quiet : attempt.run.Quiet) (silent : ∀ value, Duty.Tells (.inquiry q) (.ok value) []) :
    ∃ events, w.Logged (.inquiry q) (w.run q.program).1 (w.run q.program).2 events := by
  have heard := events_observe quiet (Duty.inquiry q).operation w
  rw [← program] at heard
  refine ⟨_, logged_of_events wf heard ?_ ?_⟩
  · cases (w.run q.program).1 with
    | error error => cases q <;> rfl
    | ok value => exact silent value
  · cases (w.run q.program).1 <;> rfl

theorem logged_inquiry (wf : w.memory.WellFormed) (q : Inquiry) :
    ∃ events, w.Logged (.inquiry q) (w.run q.program).1 (w.run q.program).2 events := by
  by_cases verifies : ∃ account, q = .verification account
  · obtain ⟨account, rfl⟩ := verifies
    refine ⟨_, logged_of_events wf (events_verifyChain account w) ?_ ?_⟩
    · change Duty.Tells (.inquiry (.verification account)) (w.run (Ledger.verifyChain account)).1 _
      cases (w.run (Ledger.verifyChain account)).1 <;> rfl
    · cases (w.run (Ledger.verifyChain account)).1 <;> rfl
  · have other : ∀ account, q ≠ .verification account :=
      fun account same => verifies ⟨account, same⟩
    obtain ⟨attempt, program, composed⟩ := Duty.exists_attempt q other
    refine logged_observed wf program (composed Attempt.composes_quiet) fun value => ?_
    cases q with
    | verification account => exact absurd rfl (other account)
    | _ => rfl

theorem logged_duty (late : FaultRule.OnlyDelay w.faults) (wf : w.memory.WellFormed) (t : Duty) :
    ∃ events, w.Logged t (w.run t.program).1 (w.run t.program).2 events := by
  match t with
  | .mutation config (.add request) => exact logged_add late wf config request
  | .mutation config (.revert id) => exact logged_revert late wf config id
  | .inquiry q => exact logged_inquiry wf q

/-! ### All operations -/

/-- The log of operations one after the other, in a world in which requests come late at worst: the
observer has received what each of them told, in their order, and the entries that the events carry
are the ones that were committed, in the order of their commits. -/
theorem audit_trail (duties : List Duty) (w : World) (late : FaultRule.OnlyDelay w.faults)
    (wf : w.memory.WellFormed) :
    (w.work duties).1.map Sigma.fst = duties ∧ ∃ log : List (List LedgerEvent),
      List.Forall₂ (fun (t : Ended) events => t.1.Tells t.2 events) (w.work duties).1 log ∧
      (w.work duties).2.events = w.events ++ log.flatten ∧
      (w.work duties).2.memory.books.entries =
        w.memory.books.entries ++ log.flatten.filterMap LedgerEvent.committed? := by
  induction duties generalizing w with
  | nil => exact ⟨rfl, [], .nil, (List.append_nil _).symm, (List.append_nil _).symm⟩
  | cons t rest ih =>
    obtain ⟨events, logged⟩ := logged_duty late wf t
    obtain ⟨ended, log, tells, heard, entries⟩ :=
      ih (w.run t.program).2 (onlyDelay_run t.program late) logged.wellFormed
    refine ⟨congrArg (t :: ·) ended, events :: log, .cons logged.tells tells, ?_, ?_⟩
    · refine heard.trans ?_
      rw [logged.heard, List.flatten_cons, List.append_assoc]
    · refine entries.trans ?_
      rw [logged.entries, List.flatten_cons, List.filterMap_append, List.append_assoc]

theorem audit_trail_late_lock :
    let w : World := {
      source := {
        clock := fun _ => Timestamp.epoch, fresh := Uuid.ofNat, random := fun _ => .ok default }
      faults := [⟨"lock_account", 2, .delay 1, 0⟩] }
    let duties : List Duty := [
      .mutation default (.add ⟨"acme", "ann", .credit, ⟨10, by decide⟩, "first", "", []⟩),
      .mutation default (.add ⟨"acme", "ann", .credit, ⟨7, by decide⟩, "second", "", []⟩),
      .inquiry (.balance ⟨"acme", "ann"⟩),
      .mutation default (.revert ⟨Uuid.ofNat 0⟩),
      .inquiry (.entry ⟨Uuid.ofNat 9⟩)]
    ((w.work duties).2.events.map (fun event => event.committed?.map (·.amount.val)) =
      [some 10, none, some 10, none]) ∧
    (w.work duties).1.map Sigma.fst = duties ∧ ∃ log : List (List LedgerEvent),
      List.Forall₂ (fun (t : Ended) events => t.1.Tells t.2 events) (w.work duties).1 log ∧
      (w.work duties).2.events = w.events ++ log.flatten ∧
      (w.work duties).2.memory.books.entries =
        w.memory.books.entries ++ log.flatten.filterMap LedgerEvent.committed? := by
  intro w duties
  refine ⟨by decide +kernel, audit_trail duties w ?_ Memory.atRest_empty.wellFormed⟩
  exact List.forall_mem_singleton.mpr ⟨1, rfl⟩

end World
end PointLedger
