import PointLedger.Proofs.Call

/-!
The course of a call, whatever the store answers. A call knows what it was told: which transaction
it holds, what it has staged there, whether it has asked for the commit and whether the commit went
through. `Program.Follows` says that a program only makes requests that fit what it knows, for all
answers, and ends in a certain way. Calls hold one transaction at a time and let it go before they
end; when a commit went through, they fail only if they are misled afterwards.
-/

namespace PointLedger

/-- What a call has been told so far. -/
structure Course where
  /-- The transaction that the call has started and not yet ended. -/
  tx : Option TxId := none
  /-- The entries that are staged there. -/
  staged : List Entry := []
  /-- The entries that are committed. -/
  known : List Entry := []
  /-- The call has asked for a commit. -/
  asked : Bool := false
  /-- A commit was answered with success. -/
  committed : Bool := false
  /-- The call was given an entry that it did not ask for, or none where it knows of one, or no
  entry but a failure after its commit. -/
  misled : Bool := false

namespace Course

/-- What the call knows after an answer; no answer means that the timer ran out. -/
def after (s : Course) : (request : Request) → Option (Except StoreError request.Answer) → Course
  | .beginTx, some (.ok tx) => { s with tx := some tx }
  | .commit _, some (.ok _) =>
    { s with
      tx := none, staged := [], known := s.known ++ s.staged, asked := true, committed := true }
  | .commit _, _ => { s with tx := none, staged := [], asked := true }
  | .rollback _, _ => { s with tx := none, staged := [] }
  | .createEntry _ e, some (.ok _) => { s with staged := s.staged ++ [e] }
  | .findEntry lookup, some (.ok (some e)) =>
    { s with known := s.known ++ [e], misled := s.misled || !lookup.isMatch e }
  | .findEntry lookup, some (.ok none) =>
    { s with misled := s.misled || s.known.any lookup.isMatch }
  | .findEntry _, _ => { s with misled := s.misled || s.committed }
  | _, _ => s

/-- The call starts a transaction only when it holds none, and names no other than the one it
holds. -/
structure Allows (s : Course) (request : Request) : Prop where
  starts : request = .beginTx → s.tx = none
  names : ∀ tx, request.tx? = some tx → s.tx = some tx

theorem Allows.of_named {s : Course} {request : Request} {tx : TxId} (own : s.tx = some tx)
    (named : request.tx? = some tx) : s.Allows request where
  starts asked := by subst asked; cases named
  names tx' other := by rw [own, ← other, named]

theorem Allows.of_unnamed {s : Course} {request : Request} (plain : request ≠ .beginTx)
    (unnamed : request.tx? = none) : s.Allows request where
  starts asked := absurd asked plain
  names tx named := by rw [unnamed] at named; cases named

/-- Looking for an entry changes nothing about the call's transaction. -/
theorem after_findEntry (s : Course) (lookup : EntryLookup) (found : Option Entry) :
    let s' := s.after (.findEntry lookup) (some (.ok found))
    s'.tx = s.tx ∧ s'.asked = s.asked ∧ s'.committed = s.committed ∧ s.known <+: s'.known ∧
      (s.misled = true → s'.misled = true) := by
  cases found with
  | none => exact ⟨rfl, rfl, rfl, List.prefix_rfl, fun misled => by simp [after, misled]⟩
  | some e => exact ⟨rfl, rfl, rfl, List.prefix_append _ _, fun misled => by simp [after, misled]⟩

/-- How a call ends: it holds no transaction. It fails after its commit only when it was misled, and
it runs out of time only when it never asked for a commit. -/
structure Finishes {α : Type} (result : Except LedgerError α) (s : Course) : Prop where
  released : s.tx = none
  failed : ∀ error, result = .error error → s.committed = true → s.misled = true
  late : ∀ limit, result = .error (.timeout limit) → s.asked = false

end Course

namespace Program

/-- Whatever is answered, the program makes only requests that its course allows, and it ends in
`post`. A request that ends a transaction is never under the timer. -/
def Follows {α : Type} (post : α → Course → Prop) : Program α → Course → Prop
  | .done value, s => post value s
  | .ask request next, s =>
    s.Allows request ∧ ∀ answer, (next answer).Follows post (s.after request (some answer))
  | .askInTime request next, s =>
    s.Allows request ∧ request.endsTx = false ∧
      ∀ answer, (next answer).Follows post (s.after request answer)
  | .startTimer _ next, s => next.Follows post s
  | .clock next, s => ∀ time, (next time).Follows post s
  | .fresh next, s => ∀ id, (next id).Follows post s
  | .random next, s => ∀ bytes, (next bytes).Follows post s
  | .report _ next, s => next.Follows post s

namespace Follows

variable {α β ε : Type} {s : Course} {post post' : α → Course → Prop}

theorem mono {program : Program α} (follows : program.Follows post s)
    (weaker : ∀ value s, post value s → post' value s) : program.Follows post' s := by
  induction program generalizing s with
  | done value => exact weaker value s follows
  | ask request next ih => exact ⟨follows.1, fun answer => ih answer (follows.2 answer)⟩
  | askInTime request next ih =>
    exact ⟨follows.1, follows.2.1, fun answer => ih answer (follows.2.2 answer)⟩
  | startTimer limit next ih => exact ih follows
  | clock next ih => exact fun time => ih time (follows time)
  | fresh next ih => exact fun id => ih id (follows id)
  | random next ih => exact fun bytes => ih bytes (follows bytes)
  | report signal next ih => exact ih follows

/-- One program after the other. -/
theorem bind {program : Program α} {next : α → Program β} {post : β → Course → Prop}
    (follows : program.Follows (fun value s => (next value).Follows post s) s) :
    (program.bind next).Follows post s := by
  induction program generalizing s with
  | done value => exact follows
  | ask request rest ih => exact ⟨follows.1, fun answer => ih answer (follows.2 answer)⟩
  | askInTime request rest ih =>
    exact ⟨follows.1, follows.2.1, fun answer => ih answer (follows.2.2 answer)⟩
  | startTimer limit rest ih => exact ih follows
  | clock rest ih => exact fun time => ih time (follows time)
  | fresh rest ih => exact fun id => ih id (follows id)
  | random rest ih => exact fun bytes => ih bytes (follows bytes)
  | report signal rest ih => exact ih follows

/-- Work that may fail, in two parts. -/
theorem bindExcept {first : ExceptT ε Program α} {next : α → ExceptT ε Program β}
    {middle : Except ε α → Course → Prop} {post : Except ε β → Course → Prop}
    (follows : first.run.Follows middle s)
    (failed : ∀ error s, middle (.error error) s → post (.error error) s)
    (rest : ∀ value s, middle (.ok value) s → (next value).run.Follows post s) :
    (first >>= next).run.Follows post s := by
  refine bind (follows.mono fun result s reached => ?_)
  cases result with
  | ok value => exact rest value s reached
  | error error => exact failed error s reached

/-- A program that cannot fail, and what follows. -/
theorem bindLift {program : Program α} {next : α → ExceptT ε Program β}
    {post : Except ε β → Course → Prop}
    (follows : program.Follows (fun value s => (next value).run.Follows post s) s) :
    ((liftM program : ExceptT ε Program α) >>= next).run.Follows post s :=
  bind (bind (follows.mono fun _ _ rest => rest))

end Follows
end Program

/-! ### Staged work -/

namespace Staged

variable {α β : Type} {tx : TxId} {brings : List Entry → Prop}

/-- The work makes requests in its transaction only and does not end it. It adds to what is staged
there, and when it succeeds then what `brings` says. -/
def Adds (tx : TxId) (brings : List Entry → Prop) (work : Staged α) : Prop :=
  ∀ s : Course, s.tx = some tx → work.run.Follows (fun result s' =>
    ∃ added, s' = { s with staged := s.staged ++ added } ∧
      ∀ value, result = .ok value → brings added) s

/-- Nothing in particular is brought. -/
def Anything (_ : List Entry) : Prop := True

/-- An entry with a reference is brought. -/
def Referenced (organizationId referenceId : String) (added : List Entry) : Prop :=
  ∃ e ∈ added, e.hasReference organizationId referenceId = true

namespace Adds

/-- Work that asks nothing. -/
theorem pure (none : brings []) (value : α) : Adds tx brings (Pure.pure value) :=
  fun s _ => ⟨[], by simp, fun _ _ => none⟩

theorem fail (error : LedgerError) : Adds tx brings (Staged.fail error : Staged α) :=
  fun s _ => ⟨[], by simp, fun _ succeeded => by cases succeeded⟩

/-- Work that is refused under a condition. -/
theorem refusing {condition : Prop} [Decidable condition] {error : LedgerError}
    {next : PUnit → Staged α} (rest : Adds tx brings (next ())) :
    Adds tx brings (if condition then Staged.fail error >>= next else next ()) := by
  split
  · exact fun s _ => ⟨[], by simp, fun _ succeeded => by cases succeeded⟩
  · exact rest

theorem ofExcept (outcome : Except LedgerError α) : Adds tx Anything (Staged.ofExcept outcome) := by
  cases outcome with
  | ok value => exact pure trivial value
  | error error => exact fail error

theorem fresh : Adds tx Anything Staged.fresh :=
  fun _ _ _ => ⟨[], by simp, fun _ _ => trivial⟩

theorem clock : Adds tx Anything Staged.clock :=
  fun _ _ _ => ⟨[], by simp, fun _ _ => trivial⟩

/-- A request in the transaction. -/
theorem ofAsk {request : Request} (named : request.tx? = some tx) (inside : request.endsTx = false)
    (kept : ∀ s answer, ∃ added, Course.after s request answer =
      { s with staged := s.staged ++ added } ∧ ∀ value, answer = some (.ok value) → brings added) :
    Adds tx brings (Staged.ask request) := by
  refine fun s own => ⟨.of_named own named, inside, fun answer => ?_⟩
  obtain ⟨added, same, brought⟩ := kept s answer
  rcases answer with _ | error | value
  · exact ⟨added, same, fun _ succeeded => by cases succeeded⟩
  · exact ⟨added, same, fun _ succeeded => by cases succeeded⟩
  · exact ⟨added, same, fun _ _ => brought value rfl⟩

/-- A request in the transaction that stages no entry. -/
theorem ask {request : Request} (named : request.tx? = some tx) (inside : request.endsTx = false)
    (still : ∀ s answer, Course.after s request answer = s) :
    Adds tx Anything (Staged.ask request) :=
  ofAsk named inside fun s answer => ⟨[], by simp [still], fun _ _ => trivial⟩

theorem createEntry {e : Entry} (brought : brings [e]) :
    Adds tx brings (Staged.ask (.createEntry tx e)) := by
  refine ofAsk rfl rfl fun s answer => ?_
  rcases answer with _ | error | value
  · exact ⟨[], by simp [Course.after], fun _ succeeded => by cases succeeded⟩
  · exact ⟨[], by simp [Course.after], fun _ succeeded => by cases succeeded⟩
  · exact ⟨[e], rfl, fun _ _ => brought⟩

/-- Work in two parts. -/
theorem bind {first : Staged α} {next : α → Staged β} {brings' both : List Entry → Prop}
    (adds : Adds tx brings first) (rest : ∀ value, Adds tx brings' (next value))
    (joined : ∀ added added', brings added → brings' added' → both (added ++ added')) :
    Adds tx both (first >>= next) := by
  intro s own
  refine Program.Follows.bindExcept (adds s own) ?_ ?_
  · rintro error s' ⟨added, same, -⟩
    exact ⟨added, same, fun _ succeeded => by cases succeeded⟩
  · rintro value s' ⟨added, rfl, brought⟩
    refine (rest value { s with staged := s.staged ++ added } own).mono ?_
    rintro result s' ⟨added', rfl, brought'⟩
    refine ⟨added ++ added', by simp, fun value' succeeded => ?_⟩
    exact joined added added' (brought value rfl) (brought' value' succeeded)

/-- What matters comes later. -/
theorem later {first : Staged α} {next : α → Staged β} {organizationId referenceId : String}
    (adds : Adds tx Anything first)
    (rest : ∀ value, Adds tx (Referenced organizationId referenceId) (next value)) :
    Adds tx (Referenced organizationId referenceId) (first >>= next) := by
  refine adds.bind rest ?_
  rintro added added' - ⟨e, member, reference⟩
  exact ⟨e, List.mem_append_right added member, reference⟩

/-- What matters is done first. -/
theorem first {first : Staged α} {next : α → Staged β} {organizationId referenceId : String}
    (adds : Adds tx (Referenced organizationId referenceId) first)
    (rest : ∀ value, Adds tx Anything (next value)) :
    Adds tx (Referenced organizationId referenceId) (first >>= next) := by
  refine adds.bind rest ?_
  rintro added added' ⟨e, member, reference⟩ -
  exact ⟨e, List.mem_append_left added' member, reference⟩

theorem andThen {first : Staged α} {next : α → Staged β} (adds : Adds tx Anything first)
    (rest : ∀ value, Adds tx Anything (next value)) : Adds tx Anything (first >>= next) :=
  adds.bind rest fun _ _ _ _ => trivial

theorem forM {items : List α} {work : α → Staged Unit}
    (adds : ∀ item, Adds tx Anything (work item)) : Adds tx Anything (items.forM work) := by
  induction items with
  | nil => exact pure trivial ()
  | cons item rest ih => exact (adds item).andThen fun _ => ih

end Adds

/-! ### The two kinds of staged work -/

theorem adds_openChain (account : Account) (referenceId : String) :
    Adds tx Anything (Ledger.openChain tx account referenceId) := by
  refine (Adds.ask rfl rfl fun _ _ => rfl).andThen fun _ => ?_
  refine (Adds.ask rfl rfl fun _ _ => rfl).andThen fun found => ?_
  refine Adds.andThen ?_ fun _ => Adds.ask rfl rfl fun _ _ => rfl
  cases found with
  | none => exact .pure trivial ()
  | some taken => exact .fail _

/-- Creating the entry of a draft. -/
theorem adds_createEntry (draft : Draft) :
    Adds tx (Referenced draft.account.organizationId draft.referenceId)
      (Staged.ask (.createEntry tx draft.sealed)) :=
  Adds.createEntry ⟨draft.sealed, List.mem_singleton_self _, by
    simp [Entry.hasReference, Draft.sealed, Entry.rehash]⟩

theorem adds_stageCredit (draft : Draft) (balance : Option Balance) :
    Adds tx (Referenced draft.account.organizationId draft.referenceId)
      (Ledger.stageCredit tx draft balance) := by
  refine (adds_createEntry draft).first fun _ => ?_
  refine Adds.fresh.andThen fun _ => ?_
  refine (Adds.ask rfl rfl fun _ _ => rfl).andThen fun _ => ?_
  cases balance with
  | some balance =>
    refine (Adds.ofExcept _).andThen fun _ => ?_
    exact (Adds.ask rfl rfl fun _ _ => rfl).andThen fun _ => .pure trivial _
  | none =>
    refine Adds.fresh.andThen fun _ => ?_
    exact (Adds.ask rfl rfl fun _ _ => rfl).andThen fun _ => .pure trivial _

theorem adds_stageDraw (pools : List CreditPool) (time : Timestamp) (a : Allocation) :
    Adds tx Anything (Ledger.stageDraw tx pools time a) := by
  unfold Ledger.stageDraw
  cases pools.find? (·.id == a.poolId) with
  | none => exact .fail _
  | some pool => exact .ask rfl rfl fun _ _ => rfl

theorem adds_stageDebit (draft : Draft) (balance : Option Balance) :
    Adds tx (Referenced draft.account.organizationId draft.referenceId)
      (Ledger.stageDebit tx draft balance) := by
  refine (Adds.ask rfl rfl fun _ _ => rfl).later fun pools => ?_
  refine Adds.refusing ?_
  cases balance with
  | none => exact .fail _
  | some balance =>
    refine (Adds.ofExcept _).later fun allocations => ?_
    refine (adds_createEntry { draft with metadata := _ }).first fun _ => ?_
    refine (Adds.forM fun a => adds_stageDraw pools _ a).andThen fun _ => ?_
    refine (Adds.ofExcept _).andThen fun _ => ?_
    exact (Adds.ask rfl rfl fun _ _ => rfl).andThen fun _ => .pure trivial _

theorem adds_stageAdd (request : EntryRequest) (transactionId : String) :
    Adds tx (Referenced request.organizationId request.referenceId)
      (Ledger.stageAdd request transactionId tx) := by
  refine (adds_openChain _ _).later fun tail => ?_
  refine (Adds.ask rfl rfl fun _ _ => rfl).later fun balance => ?_
  refine Adds.fresh.later fun id => ?_
  refine (Adds.ofExcept _).later fun metadata => Adds.clock.later fun now => ?_
  cases request.kind with
  | credit => exact adds_stageCredit _ balance
  | debit => exact adds_stageDebit _ balance

theorem adds_stageRevert (reverted : Entry) (transactionId : String) :
    Adds tx (Referenced reverted.organizationId reverted.transactionId)
      (Ledger.stageRevert reverted transactionId tx) := by
  refine (adds_openChain _ _).later fun tail => ?_
  refine (Adds.ask rfl rfl fun _ _ => rfl).later fun balance => ?_
  cases balance with
  | none => exact .fail _
  | some balance =>
    refine Adds.fresh.later fun id => Adds.clock.later fun now => ?_
    refine (adds_createEntry _).first fun _ => ?_
    refine (Adds.ofExcept _).andThen fun _ => ?_
    exact (Adds.ask rfl rfl fun _ _ => rfl).andThen fun _ => .pure trivial _

end Staged

/-! ### Whole calls -/

namespace Attempt

variable {α β : Type} {s : Course} {organizationId referenceId : String}

/-- How the transaction of a new entry that was begun in the course `s` leaves it. A failure after
the commit was asked for is no timeout. -/
structure Leaves (organizationId referenceId : String) (s : Course) (result : Except LedgerError α)
    (s' : Course) : Prop where
  released : s'.tx = none
  misled : s'.misled = s.misled
  known : s.known <+: s'.known
  succeeded : ∀ value, result = .ok value →
    s'.committed = true ∧ Staged.Referenced organizationId referenceId s'.known
  failed : ∀ error, result = .error error → s'.committed = s.committed
  late : ∀ limit, result = .error (.timeout limit) → s'.asked = s.asked

/-- Rolling back, however the store answers. -/
theorem follows_discard {tx : TxId} {post : Unit → Course → Prop} (own : s.tx = some tx)
    (rest : post () { s with tx := none, staged := [] }) : (discard tx).Follows post s := by
  refine ⟨.of_named own rfl, fun answer => ?_⟩
  rcases answer with error | done
  · exact rest
  · exact rest

theorem leaves_discarded {error : LedgerError} :
    Leaves (α := α) organizationId referenceId s (.error error)
      { s with tx := none, staged := [] } where
  released := rfl
  misled := rfl
  known := List.prefix_rfl
  succeeded _ succeeded := by cases succeeded
  failed _ _ := rfl
  late _ _ := rfl

/-- A failure of the store is never reported as a timeout. -/
theorem referenceConflict_ne_timeout (error : StoreError) (limit : Duration) :
    referenceConflict organizationId referenceId (.store error) ≠ .timeout limit := by
  intro same
  cases error <;> cases same

theorem follows_settle {config : EngineConfig} {tx : TxId} {outcome : Except Interruption α}
    (own : s.tx = some tx)
    (brought : ∀ value, outcome = .ok value →
      Staged.Referenced organizationId referenceId s.staged) :
    (ExceptT.adapt (referenceConflict organizationId referenceId)
      (settle config tx outcome)).run.Follows (Leaves organizationId referenceId s) s := by
  refine Program.Follows.bind ?_
  cases outcome with
  | ok value =>
    refine ⟨.of_named own rfl, fun answer => ?_⟩
    rcases answer with error | done
    · exact ⟨rfl, rfl, List.prefix_rfl, nofun, fun _ _ => rfl, fun limit late =>
        absurd (Except.error.inj late) (referenceConflict_ne_timeout error limit)⟩
    · obtain ⟨e, member, reference⟩ := brought value rfl
      exact ⟨rfl, rfl, List.prefix_append _ _,
        fun _ _ => ⟨rfl, e, List.mem_append_right _ member, reference⟩,
        fun _ failed => (by cases failed), fun _ late => (by cases late)⟩
  | error interruption =>
    cases interruption with
    | failed error => exact Program.Follows.bindLift (follows_discard own leaves_discarded)
    | overdue => exact Program.Follows.bindLift (follows_discard own leaves_discarded)

/-- The transaction of a call. -/
theorem follows_inTransaction {config : EngineConfig} {work : TxId → Staged α}
    (free : s.tx = none)
    (adds : ∀ tx, (work tx).Adds tx (Staged.Referenced organizationId referenceId)) :
    (inTransaction config organizationId referenceId work).run.Follows
      (Leaves organizationId referenceId s) s := by
  refine ⟨⟨fun _ => free, nofun⟩, rfl, fun answer => ?_⟩
  have unbegun : ∀ error : LedgerError,
      Leaves (α := α) organizationId referenceId s (.error error) s :=
    fun error => ⟨free, rfl, List.prefix_rfl, nofun, fun _ _ => rfl, fun _ _ => rfl⟩
  rcases answer with _ | error | tx
  · exact unbegun _
  · exact unbegun _
  · refine Program.Follows.bindLift ((adds tx { s with tx := some tx } rfl).mono ?_)
    rintro outcome s' ⟨added, rfl, brought⟩
    have settled : (ExceptT.adapt (referenceConflict organizationId referenceId)
        (settle config tx outcome)).run.Follows (Leaves organizationId referenceId
          { s with tx := some tx, staged := s.staged ++ added })
        { s with tx := some tx, staged := s.staged ++ added } := by
      refine follows_settle rfl fun value succeeded => ?_
      obtain ⟨e, member, reference⟩ := brought value succeeded
      exact ⟨e, List.mem_append_right _ member, reference⟩
    exact settled.mono fun result s' leaves => ⟨leaves.released, leaves.misled, leaves.known,
      leaves.succeeded, leaves.failed, leaves.late⟩

/-- Looking for an entry outside the transaction. -/
theorem follows_findEntry {lookup : EntryLookup} {next : Option Entry → Attempt β}
    {post : Except LedgerError β → Course → Prop}
    (failed : ∀ error, post (.error (.store error))
      { s with misled := s.misled || s.committed })
    (rest : ∀ found, (next found).run.Follows post
      (s.after (.findEntry lookup) (some (.ok found)))) :
    (ask (.findEntry lookup) >>= next).run.Follows post s := by
  refine ⟨.of_unnamed nofun rfl, fun answer => ?_⟩
  rcases answer with error | found
  · exact failed error
  · exact rest found

theorem follows_newTransactionId {next : String → Attempt β}
    {post : Except LedgerError β → Course → Prop} (failed : ∀ error, post (.error error) s)
    (rest : ∀ transactionId, (next transactionId).run.Follows post s) :
    (newTransactionId >>= next).run.Follows post s := by
  refine fun time bytes => ?_
  rcases bytes with reason | bytes
  · exact failed _
  · exact rest _

theorem follows_refuseTaken {found : Option Entry} {next : Unit → Attempt β}
    {post : Except LedgerError β → Course → Prop} (failed : ∀ error, post (.error error) s)
    (rest : (next ()).run.Follows post s) :
    (Ledger.refuseTaken throw organizationId referenceId found >>= next).run.Follows post s := by
  cases found with
  | none => exact rest
  | some taken => exact failed _

/-- A failure before the commit was asked for. -/
theorem finishes_early (free : s.tx = none) (asked : s.asked = false)
    (committed : s.committed = false) (error : LedgerError) :
    Course.Finishes (α := α) (.error error) s where
  released := free
  failed _ _ done := by rw [committed] at done; cases done
  late _ _ := asked

/-- From the draw of the transaction id to the end of the transaction. -/
theorem follows_transaction {config : EngineConfig} {work : String → TxId → Staged α}
    {next : α → Attempt β} (free : s.tx = none) (asked : s.asked = false)
    (committed : s.committed = false)
    (adds : ∀ transactionId tx, (work transactionId tx).Adds tx
      (Staged.Referenced organizationId referenceId))
    (rest : ∀ value s', s'.tx = none → s'.committed = true → s'.misled = s.misled →
      s.known <+: s'.known → Staged.Referenced organizationId referenceId s'.known →
      (next value).run.Follows Course.Finishes s') :
    (do
      let transactionId ← newTransactionId
      let value ← inTransaction config organizationId referenceId (work transactionId)
      next value).run.Follows Course.Finishes s := by
  refine follows_newTransactionId (finishes_early free asked committed) fun transactionId => ?_
  refine Program.Follows.bindExcept (follows_inTransaction free (adds transactionId)) ?_ ?_
  · intro error s' leaves
    refine ⟨leaves.released, fun _ _ done => ?_, fun limit late => ?_⟩
    · rw [leaves.failed error rfl, committed] at done
      cases done
    · obtain rfl := Except.error.inj late
      exact (leaves.late limit rfl).trans asked
  · intro value s' leaves
    obtain ⟨done, referenced⟩ := leaves.succeeded value rfl
    exact rest value s' leaves.released done leaves.misled leaves.known referenced

/-- Reading back what is known to be committed. -/
theorem follows_readBack {lookup : EntryLookup} {next : Option Entry → Attempt β}
    {missing : LedgerError} (free : s.tx = none) (committed : s.committed = true)
    (there : s.misled = true ∨ s.known.any lookup.isMatch = true)
    (found : ∀ entry, ∃ value, next (some entry) = pure value)
    (unfound : next none = throw missing) (other : ∀ limit, missing ≠ .timeout limit) :
    (ask (.findEntry lookup) >>= next).run.Follows Course.Finishes s := by
  refine follows_findEntry (fun error => ⟨free, fun _ _ _ => ?_, nofun⟩) fun answer => ?_
  · simp [committed]
  · cases answer with
    | some entry =>
      obtain ⟨value, same⟩ := found entry
      rw [same]
      exact ⟨free, fun _ failed => (by cases failed), fun _ late => (by cases late)⟩
    | none =>
      rw [unfound]
      refine ⟨free, fun _ _ _ => ?_, fun limit late => absurd (Except.error.inj late) (other limit)⟩
      rcases there with misled | known
      · simp [Course.after, misled]
      · simp only [Course.after, known, Bool.or_true]

/-- Adding an entry, up to the report. -/
theorem follows_tryAdd (config : EngineConfig) (request : EntryRequest) :
    (Ledger.tryAdd config request).run.Follows Course.Finishes {} := by
  unfold Ledger.tryAdd
  cases validateRequest request with
  | error violation => exact finishes_early rfl rfl rfl _
  | ok _ =>
    refine follows_findEntry (fun error => finishes_early rfl rfl rfl _) fun found => ?_
    obtain ⟨free, asked, committed, -⟩ := Course.after_findEntry {} _ found
    refine follows_refuseTaken (finishes_early free asked committed) ?_
    refine follows_transaction free asked committed
      (fun transactionId tx => Staged.adds_stageAdd request transactionId) ?_
    intro value s' released done misled known ⟨e, member, reference⟩
    exact follows_readBack released done (.inr (List.any_eq_true.mpr ⟨e, member, reference⟩))
      (fun entry => ⟨entry, rfl⟩) rfl nofun

/-- Reverting an entry, up to the report. -/
theorem follows_tryRevert (config : EngineConfig) (id : EntryId) :
    (Ledger.tryRevert config id).run.Follows Course.Finishes {} := by
  refine follows_findEntry (fun error => finishes_early rfl rfl rfl _) fun found => ?_
  cases found with
  | none => exact finishes_early rfl rfl rfl _
  | some reverted =>
    refine follows_findEntry (fun error => finishes_early rfl rfl rfl _) fun found => ?_
    obtain ⟨free, asked, committed, known, misled⟩ := Course.after_findEntry _ _ found
    refine follows_refuseTaken (finishes_early free asked committed) ?_
    refine follows_transaction free asked committed
      (fun transactionId tx => Staged.adds_stageRevert reverted transactionId) ?_
    intro value s' released done kept grown _
    have there : s'.misled = true ∨ s'.known.any (EntryLookup.byId id).isMatch = true := by
      -- A store that gives another entry than the one asked for misleads the call.
      cases asked : (EntryLookup.byId id).isMatch reverted with
      | true =>
        have member : reverted ∈ s'.known :=
          (known.trans grown).subset (by simp [Course.after])
        exact .inr (List.any_eq_true.mpr ⟨reverted, member, asked⟩)
      | false => exact .inl (kept.trans (misled (by simp [Course.after, asked])))
    exact follows_readBack released done there (fun entry => ⟨(entry, value), rfl⟩) rfl nofun

end Attempt

/-- Whatever the store answers, a call makes only requests that fit what it knows, and lets its
transaction go before it ends. -/
theorem Call.follows_program (c : Call) : c.program.Follows Course.Finishes {} := by
  unfold Call.program
  cases c.mutation with
  | add request =>
    refine Program.Follows.bind ((Attempt.follows_tryAdd c.config request).mono ?_)
    intro result s finishes
    cases result with
    | ok entry => exact finishes
    | error error => exact finishes
  | revert id =>
    refine Program.Follows.bind ((Attempt.follows_tryRevert c.config id).mono ?_)
    intro result s finishes
    cases result with
    | ok pair =>
      exact ⟨finishes.released, fun _ failed => (by cases failed), fun _ late => (by cases late)⟩
    | error error =>
      exact ⟨finishes.released, fun _ _ => finishes.failed error rfl, fun limit late =>
        finishes.late limit (by rw [Except.error.inj late])⟩


end PointLedger
