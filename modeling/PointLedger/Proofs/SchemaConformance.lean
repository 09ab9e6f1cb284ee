import PointLedger.Proofs.LawfulWork

/-!
The ledger never breaks the schema. Around its staged work a call only reads and settles, so every
write that it passes to the store is one of those that obey. At any moment of calls that take turns
the next write of each is lawful if the store in memory takes it, and a database that holds what
the transaction sees carries out its statement.
-/

namespace PointLedger

/-- Whatever others do in between, every request of an attempt conforms. -/
def Attempt.Conforms {α : Type} (c : Call) (attempt : Attempt α) (d : Draws) (m : Memory)
    (held : Option TxId) : Prop :=
  attempt.run.Observes c Books.Sound Memory.Conforms (fun _ _ _ _ => True) d m held

namespace Attempt

variable {α β : Type} {c : Call} {d : Draws} {m : Memory} {held : Option TxId}

/-- An attempt in two parts. -/
theorem conforms_bind {first : Attempt α} {next : α → Attempt β}
    (conforms : Conforms c first d m held)
    (rest : ∀ value d m held, Conforms c (next value) d m held) :
    Conforms c (first >>= next) d m held := by
  apply Program.Observes.bind
  refine Program.Observes.mono conforms fun result d m held _ => ?_
  cases result with
  | ok value => exact rest value d m held
  | error error => exact fun _ _ => trivial

/-- Looking for an entry outside the transaction. -/
theorem conforms_findEntry {lookup : EntryLookup} {next : Option Entry → Attempt β}
    (turn : ∀ m₁, m₁.books.Sound → Meanwhile c held m m₁ → ∀ held',
      Conforms c (next (m₁.books.findEntry lookup)) d m₁ held') :
    Conforms c (ask (.findEntry lookup) >>= next) d m held := by
  intro m₁ wf sound same
  refine ⟨Memory.conforms_of_not_writes rfl, fun answer m₂ held' ran _ => ?_⟩
  cases ran
  exact turn m₁ sound same held'

/-- A program that cannot fail, and what follows. -/
theorem conforms_lift_bind {program : Program α} {next : α → Attempt β}
    (observes : program.Observes c Books.Sound Memory.Conforms
      (fun value d m held => Conforms c (next value) d m held) d m held) :
    Conforms c ((liftM program : Attempt α) >>= next) d m held := by
  refine Program.Observes.bind (Program.Observes.bind ?_)
  exact observes.mono fun value d m held rest m₁ same => Program.Observes.meanwhile rest same

/-- Drawing the transaction id. -/
theorem conforms_newTransactionId {next : String → Attempt β} (clock : d.clock = 0)
    (random : d.random = 0)
    (rest : ∀ transactionId, c.transactionId = .ok transactionId →
      Conforms c (next transactionId) { d with clock := 1, random := 1 } m held) :
    Conforms c (newTransactionId >>= next) d m held := by
  obtain ⟨clocks, fresh, randoms⟩ := d
  obtain rfl : clocks = 0 := clock
  obtain rfl : randoms = 0 := random
  unfold Call.transactionId at rest
  simp only [Conforms, newTransactionId, Bind.bind, ExceptT.bind, ExceptT.run, ExceptT.mk,
    Program.bind, Program.Observes]
  cases bytes : c.source.random 0 with
  | error reason => exact fun _ _ => trivial
  | ok drawn =>
    rw [bytes] at rest
    exact rest _ rfl

/-- The checks of a call before its transaction. -/
theorem conforms_checked {organizationId referenceId : String} {next : String → Attempt β}
    (clock : d.clock = 0) (random : d.random = 0)
    (rest : ∀ m₁ held' transactionId, Meanwhile c held m m₁ →
      c.transactionId = .ok transactionId →
      Conforms c (next transactionId) { d with clock := 1, random := 1 } m₁ held') :
    Conforms c (do
      let found ← ask (.findEntry (.byReference organizationId referenceId))
      Ledger.refuseTaken throw organizationId referenceId found
      let transactionId ← newTransactionId
      next transactionId) d m held := by
  refine conforms_findEntry fun m₁ _ same held' => ?_
  cases m₁.books.findEntry (.byReference organizationId referenceId) with
  | some taken => exact fun _ _ => trivial
  | none => exact conforms_newTransactionId clock random fun id drawn => rest m₁ held' id same drawn

/-- Committing and rolling back write no row. -/
theorem conforms_settle {config : EngineConfig} {tx : TxId} {outcome : Except Interruption α} :
    Conforms c (settle config tx outcome) d m held := by
  have discarded (error : LedgerError) :
      Conforms c (do discard tx; throw error : Attempt α) d m held := by
    refine conforms_lift_bind fun m₁ _ _ _ => ⟨Memory.conforms_of_not_writes rfl, ?_⟩
    intro answer m₂ held' _ _
    cases answer <;> exact fun _ _ _ _ => trivial
  cases outcome with
  | ok value =>
    refine fun m₁ _ _ _ => ⟨Memory.conforms_of_not_writes rfl, fun answer m₂ held' _ _ => ?_⟩
    cases answer <;> exact fun _ _ => trivial
  | error interruption =>
    cases interruption with
    | failed error => exact discarded error
    | overdue => exact discarded (.timeout config.operationTimeout)

/-- The transaction of a call. -/
theorem conforms_inTransaction {config : EngineConfig} {organizationId referenceId : String}
    {work : TxId → Staged α} (unused : m.books.Unused c)
    (stages : ∀ tx m₁, m₁.tx? tx = some {} → m₁.books.Unused c →
      m.books.entries <+: m₁.books.entries →
      Staged.Conforms c tx (fun _ _ _ => True) (work tx) d m₁) :
    Conforms c (inTransaction config organizationId referenceId work) d m held := by
  intro m₁ wf _ same
  refine ⟨Memory.conforms_of_not_writes rfl, fun answer m₂ held' ran hands => ?_⟩
  cases ran
  have live : (m₁.perform .beginTx).2.tx? ⟨m₁.started⟩ = some {} := by
    rw [Memory.tx?_perform_beginTx wf, if_pos rfl]
  obtain rfl := (hands ⟨m₁.started⟩).mpr ⟨⟨_, live⟩, .inr wf.tx?_next⟩
  refine conforms_lift_bind ?_
  refine Program.Observes.mono (stages _ _ live (same.unused unused) same.entries) ?_
  intro outcome d m held _
  refine Program.Observes.bind (Program.Observes.mono conforms_settle fun _ _ _ _ _ => ?_)
  exact fun _ _ => trivial

/-! ### Whole calls -/

/-- Reading what is committed writes no row. -/
theorem conforms_rest {attempt : Attempt α} (reads : attempt.run.OnlyReads) :
    Conforms c attempt d m held := by
  refine Program.Observes.of_onlyReads reads
    (fun m request free => Memory.conforms_of_not_writes ?_) fun _ _ _ _ => trivial
  cases request <;> trivial

/-- Adding an entry, up to the report. -/
theorem conforms_tryAdd {r : EntryRequest} (asked : c.mutation = .add r)
    (unused : m.books.Unused c) : Conforms c (Ledger.tryAdd c.config r) {} m held := by
  cases valid : validateRequest r with
  | error violation =>
    rw [Ledger.tryAdd, valid]
    exact fun _ _ => trivial
  | ok _ =>
    rw [Ledger.tryAdd, valid]
    refine conforms_checked rfl rfl fun m₁ held' transactionId same drawn => ?_
    have fits := EntryRequest.job_fits asked valid drawn
    refine conforms_bind (conforms_inTransaction (same.unused unused) fun tx m₂ live unused _ =>
      Staged.conforms_stageAdd live unused valid drawn (fun b _ => fits b) rfl) ?_
    refine fun entry d m held => conforms_rest (.ask rfl fun found => ?_)
    cases found <;> exact trivial

/-- Reverting an entry, up to the report. -/
theorem conforms_tryRevert {id : EntryId} (asked : c.mutation = .revert id)
    (unused : m.books.Unused c) : Conforms c (Ledger.tryRevert c.config id) {} m held := by
  refine conforms_findEntry fun m₁ sound same held' => ?_
  cases present : m₁.books.findEntry (.byId id) with
  | none => exact fun _ _ => trivial
  | some reverted =>
    have original : reverted.Fits := sound.fits reverted (Books.mem_of_findEntry present).1
    refine conforms_checked rfl rfl fun m₂ held₂ transactionId same₂ drawn => ?_
    have fits : ∀ b : Books, m₁.books.entries <+: b.entries →
        (reverted.revertJob c transactionId).Fits c b :=
      fun b later => Entry.revertJob_fits asked drawn (Books.findEntry_of_prefix later present)
    refine conforms_bind (conforms_inTransaction (same₂.unused (same.unused unused))
      fun tx m₃ live unused later => Staged.conforms_stageRevert live unused original drawn
        (fun b grown => fits b ((same₂.entries.trans later).trans grown)) rfl) ?_
    refine fun reversal d m held => conforms_rest (.ask rfl fun found => ?_)
    cases found <;> exact trivial

end Attempt

/-- Whatever others do in between, every write of a call obeys the schema if the store takes it. -/
theorem Call.conforms_program (c : Call) {m : Memory} {held : Option TxId}
    (unused : m.books.Unused c) :
    c.program.Observes c Books.Sound Memory.Conforms (fun _ _ _ _ => True) {} m held := by
  cases asked : c.mutation with
  | add r =>
    rw [Call.program, asked]
    refine Program.Observes.bind (Program.Observes.mono (Attempt.conforms_tryAdd asked unused) ?_)
    intro result d m held _
    cases result <;> exact fun _ _ => trivial
  | revert id =>
    rw [Call.program, asked]
    refine Program.Observes.bind
      (Program.Observes.mono (Attempt.conforms_tryRevert asked unused) ?_)
    intro result d m held _
    cases result <;> exact fun _ _ => trivial

namespace Concurrent

variable {ι : Type} [DecidableEq ι] {calls : ι → Call}

/-- What holds at a moment of calls that take turns. -/
structure Conforming (calls : ι → Call) (schedule : List ι) : Prop where
  /-- The committed entries fit their table, and no account has two balance rows. -/
  sound : (run calls schedule).memory.books.Sound
  /-- The balance rows of earlier moments are there, each for its account, so none is ever created
  for an account that had one. -/
  balances : ∀ earlier, earlier <+: schedule →
    (run calls earlier).memory.books.balances.map Balance.account <+:
      (run calls schedule).memory.books.balances.map Balance.account
  /-- The next write of each call is lawful if the store takes it, and no rule of the schema keeps a
  database from doing the same. -/
  writes : ∀ i request, ((run calls schedule).phases i).request? = some request →
    (run calls schedule).memory.Conforms request
  /-- What a transaction commits is what it saw, so the database holds the books afterwards too. -/
  commits : ∀ tx t after, (run calls schedule).memory.tx? tx = some t →
    (run calls schedule).memory.books.commit t = .ok after →
    after = t.over (run calls schedule).memory.books

/-- The ledger never breaks the schema, whatever the calls on an empty store ask for and however
they take turns. Calls that are made one after the other are the case in which each takes all its
turns before the next begins. -/
theorem writes_obey_schema (apart : ∀ i j, i ≠ j → (calls i).Apart (calls j))
    (schedule : List ι) : Conforming calls schedule := by
  refine ⟨sound apart schedule, ?_, fun i request next => ?_,
    fun _ _ _ _ committed => Books.commit_eq_over committed⟩
  · intro earlier begun
    obtain ⟨order, g, explains, before⟩ := exists_explains apart schedule
    obtain ⟨order₀, g₀, explains₀, sooner⟩ := before earlier begun
    rw [← explains.ordered.books, ← explains₀.ordered.books]
    exact Books.accounts_applyAll (explains.ordered.apart apart) (sooner.map calls)
  · exact observes apart (sound apart) (fun i m unused => (calls i).conforms_program unused)
      schedule i next

/-- Ann's credit is there, and her debit is about to draw on its pool. -/
theorem writes_obey_schema_next_draw :
    let credit := Call.numbered 0 (.add ⟨"acme", "ann", .credit, ⟨10, by decide⟩, "first", "", []⟩)
    let debit := Call.numbered 1 (.add ⟨"acme", "ann", .debit, ⟨4, by decide⟩, "second", "", []⟩)
    let calls (i : Fin 2) := if i = 0 then credit else debit
    let schedule := List.replicate 21 0 ++ List.replicate 14 1
    let s := run calls schedule
    ((s.phases 1).request?.any fun request => match request with
      | .updatePool _ p => p.remaining.val == 6 && s.memory.grants request
      | _ => false) = true ∧ Conforming calls schedule := by
  intro credit debit calls schedule s
  have apart : ∀ i j, i ≠ j → (calls i).Apart (calls j) := by
    intro i j different
    fin_cases i <;> fin_cases j <;> simp_all [calls, credit, debit, Call.numbered_apart]
  exact ⟨by decide +kernel, writes_obey_schema apart schedule⟩

end Concurrent
end PointLedger
