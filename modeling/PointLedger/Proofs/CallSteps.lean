import PointLedger.Proofs.PlannedWork

/-!
Whole calls. Around its transaction a call makes the checks that need no lock, starts and ends the
transaction, and reads back what was committed. Every call ends with the result that was decided for
it; only when a request was left without an answer under the timer does it end with a timeout, and
then it has changed nothing.
-/

namespace PointLedger

/-! ### Ending the transaction -/

namespace Working

variable {c : Call} {job : Job} {v : AccountRows} {hasPool : Bool} {tx : TxId} {t : Transaction}
  {m : Memory} {g : Progress} {entry : Entry}

/-- The commit of planned writes is what the call does on the books of that moment. -/
theorem apply_planned (work : Working c job v hasPool tx t m g) (proper : job.Proper)
    (plan : job.plan v hasPool = .ok (entry, t)) :
    m.books.apply c =
      match m.books.commit t with
      | .ok after => (.ok (job.result entry), after)
      | .error error => (.error (job.conflict (.store error)), m.books) := by
  obtain ⟨entries, account, reference⟩ := proper v hasPool entry t plan
  have duplicate := Working.hasReferenceOf_eq entry account reference m.books
  cases found : m.books.findEntry job.duplicate with
  | some taken =>
    rw [found] at duplicate
    have refused : m.books.commit t = .error .referenceTaken := by
      simp [Books.commit, entries, duplicate]
    rw [refused, work.apply_taken found]
    rfl
  | none =>
    have free : m.books.findEntry (.byReference job.account.organizationId job.reference) = none :=
      found
    have post : m.books.post c = (do
        return (job.result entry,
          ← m.books.settle job.account.organizationId job.reference t)) := by
      simp only [work.fits_now.post, Job.finish, Books.refuseTaken, free, Ledger.refuseTaken,
        work.rows, work.pool, plan, ok_bind, pure_eq_ok]
    cases committed : m.books.commit t with
    | ok after =>
      simp [Books.apply, post, Books.settle, committed]
    | error error =>
      simp [Books.apply, post, Books.settle, committed, Job.conflict]

end Working

/-- After the commit of a new entry its reference finds it. -/
theorem Books.findEntry_of_commit {b after : Books} {t : Transaction} {entry : Entry}
    (entries : t.entries = [entry]) (committed : b.commit t = .ok after) :
    after.findEntry (.byReference entry.organizationId entry.referenceId) = some entry := by
  obtain ⟨free, -, -, rfl⟩ := commit_eq_ok committed
  have new : (b.entries.find? (EntryLookup.byReference entry.organizationId
      entry.referenceId).isMatch) = none := by
    rw [entries] at free
    simpa [hasReferenceOf, EntryLookup.isMatch] using free
  have own : (EntryLookup.byReference entry.organizationId entry.referenceId).isMatch entry := by
    simp [EntryLookup.isMatch, Entry.hasReference]
  simp only [findEntry, entries, List.find?_append, new]
  simp [own]

/-- After the commit of planned writes the reference of the job finds the new entry. -/
theorem Job.Proper.findEntry_duplicate {job : Job} (proper : job.Proper) {v : AccountRows}
    {hasPool : Bool} {entry : Entry} {t : Transaction} {b after : Books}
    (plan : job.plan v hasPool = .ok (entry, t)) (committed : b.commit t = .ok after) :
    after.findEntry job.duplicate = some entry := by
  obtain ⟨entries, account, reference⟩ := proper v hasPool entry t plan
  have organization : entry.organizationId = job.account.organizationId :=
    congrArg Account.organizationId account
  have found := Books.findEntry_of_commit entries committed
  rwa [organization, reference] at found

/-- After the transaction of a call: its outcome is known, and what it committed can be found. -/
def Job.Ended (job : Job) (overdue : Prop) (result : Except LedgerError Entry) (m : Memory)
    (g : Progress) : Prop :=
  g.tx = none ∧
    match result with
    | .ok entry => g.outcome = some (.ok (job.result entry)) ∧
        m.books.findEntry job.lookup = some (job.result entry) ∧
        m.books.findEntry job.duplicate = some entry
    | .error error => g.outcome = some (.error error) ∨ overdue ∧ g.Unposted

theorem Job.Ended.undisturbed {c : Call} {job : Job} {overdue : Prop}
    {result : Except LedgerError Entry} {m m₁ : Memory} {g : Progress}
    (ended : job.Ended overdue result m g) (same : Undisturbed c g.tx m m₁) :
    job.Ended overdue result m₁ g := by
  cases result with
  | ok entry =>
    obtain ⟨free, decided, found, added⟩ := ended
    exact ⟨free, decided, Books.findEntry_of_prefix same.entries found,
      Books.findEntry_of_prefix same.entries added⟩
  | error error => exact ended

namespace Attempt

variable {α β : Type} {c : Call} {job : Job} {overdue : Prop} {tx : TxId} {d : Draws} {m : Memory}
  {g : Progress}

/-- An attempt in two parts. -/
theorem ensures_bind {first : Attempt α} {next : α → Attempt β}
    {middle : Except LedgerError α → Draws → Memory → Progress → Prop}
    {post : Except LedgerError β → Draws → Memory → Progress → Prop}
    (ensured : first.run.Ensures c overdue middle d m g)
    (failed : ∀ error d m g, middle (.error error) d m g → ∀ m₁, Undisturbed c g.tx m m₁ →
      post (.error error) d m₁ g)
    (rest : ∀ value d m g, middle (.ok value) d m g →
      (next value).run.Ensures c overdue post d m g) :
    (first >>= next).run.Ensures c overdue post d m g := by
  apply Program.Ensures.bind
  refine ensured.mono fun result d m g reached => ?_
  cases result with
  | ok value => exact rest value d m g reached
  | error error => exact failed error d m g reached

/-- A program that cannot fail, and what follows. -/
theorem ensures_lift_bind {program : Program α} {next : α → Attempt β}
    {post : Except LedgerError β → Draws → Memory → Progress → Prop}
    (ensured : program.Ensures c overdue
      (fun value d m g => (next value).run.Ensures c overdue post d m g) d m g) :
    ((liftM program : Attempt α) >>= next).run.Ensures c overdue post d m g := by
  refine Program.Ensures.bind (Program.Ensures.bind ?_)
  exact ensured.mono fun value d m g rest m₁ same => rest.undisturbed same

/-- Rolling back leaves the outcome as it is. -/
theorem ensures_discard (holding : Holding tx m g) :
    (discard tx).Ensures c overdue
      (fun _ _ _ g' => g'.tx = none ∧ g'.outcome = g.outcome) d m g := by
  intro m₁ wf same answer m₂ ran
  obtain ⟨own, t, live⟩ := holding.undisturbed same
  have gone : (m₁.endTx tx).tx? tx = none := by simp [Memory.tx?_endTx]
  have ended := ran
  simp only [Memory.perform, live] at ran
  cases ran
  exact ⟨{ g with tx := none }, .ended wf ended rfl own rfl gone (.silent rfl rfl),
    fun _ _ => ⟨rfl, rfl⟩⟩

/-- The commit of planned writes. -/
theorem ensures_commit {entry : Entry} (planned : Planned c job tx entry m g)
    (proper : job.Proper) :
    (ask (.commit tx)).run.Ensures c overdue (fun result _ m g =>
      job.Ended overdue ((result.mapError job.conflict).map fun _ => entry) m g) d m g := by
  obtain ⟨v, hasPool, t, staging, plan⟩ := planned
  intro m₁ wf same answer m₂ ran
  have work := staging.work.undisturbed same
  have gone : (m₁.endTx tx).tx? tx = none := by simp [Memory.tx?_endTx]
  have applied := work.apply_planned proper plan
  have ended := ran
  simp only [Memory.perform, work.staged] at ran
  have pending : g.outcome = none := staging.outcome
  cases committed : m₁.books.commit t with
  | error error =>
    simp only [committed] at ran applied
    cases ran
    refine ⟨{ tx := none, outcome := some (.error (job.conflict (.store error))) },
      .ended wf ended rfl work.own rfl gone ?_, fun _ _ => ⟨rfl, .inl rfl⟩⟩
    exact .decided _ pending rfl applied (.inl rfl)
  | ok after =>
    simp only [committed] at ran applied
    cases ran
    have found : after.findEntry job.lookup = some (job.result entry) :=
      work.fits_now.found v hasPool entry t after plan committed
    have added := proper.findEntry_duplicate plan committed
    refine ⟨{ tx := none, outcome := some (.ok (job.result entry)) },
      .ended wf ended rfl work.own rfl gone ?_, fun m₃ later => ⟨rfl, rfl, ?_, ?_⟩⟩
    · exact .decided _ pending rfl applied
        (.inr ⟨tx, t, job.account, work.own, work.staged, work.fits_now.target, work.locked⟩)
    · exact Books.findEntry_of_prefix later.entries found
    · exact Books.findEntry_of_prefix later.entries added

/-- Settling staged work. -/
theorem ensures_settle {config : EngineConfig} {outcome : Except Interruption Entry}
    (staged : Stages job overdue tx (fun entry _ => Planned c job tx entry) outcome d m g)
    (proper : job.Proper) :
    (ExceptT.adapt job.conflict (settle config tx outcome)).run.Ensures c overdue
      (fun result _ => job.Ended overdue result) d m g := by
  refine Program.Ensures.bind ?_
  cases outcome with
  | ok entry =>
    exact ensures_bind (ensures_commit staged proper)
      (fun error _ m g ended m₁ same m₂ later => ended.undisturbed (same.trans later))
      fun _ _ m g ended m₁ same m₂ later => ended.undisturbed (same.trans later)
  | error interruption =>
    cases interruption with
    | failed error =>
      obtain ⟨holding, decided⟩ := staged
      refine ensures_lift_bind ((ensures_discard holding).mono ?_)
      rintro - d m g' ⟨released, kept⟩ m₁ - m₂ -
      exact ⟨released, .inl (kept.trans decided)⟩
    | overdue =>
      obtain ⟨holding, late, unposted⟩ := staged
      refine ensures_lift_bind ((ensures_discard holding).mono ?_)
      rintro - d m g' ⟨released, kept⟩ m₁ - m₂ -
      exact ⟨released, .inr ⟨late, fun entry posted => unposted entry (kept ▸ posted)⟩⟩

/-- The transaction of a call. -/
theorem ensures_inTransaction (job : Job) {config : EngineConfig} {work : TxId → Staged Entry}
    (proper : job.Proper) (free : g.tx = none) (pending : g.outcome = none)
    (fits : ∀ b, m.books.entries <+: b.entries → job.Fits c b)
    (stages : ∀ tx m g, g.tx = some tx → m.tx? tx = some {} → g.outcome = none →
      (∀ b, m.books.entries <+: b.entries → job.Fits c b) →
      (work tx).run.Ensures c overdue
        (Stages job overdue tx fun entry _ => Planned c job tx entry) d m g) :
    (inTransaction config job.account.organizationId job.reference work).run.Ensures c overdue
      (fun result _ => job.Ended overdue result) d m g := by
  intro m₁ wf same
  refine ⟨fun answer m₂ ran => ?_, fun late m₂ _ => ?_⟩
  · cases ran
    have held : (m₁.perform .beginTx).2.tx? ⟨m₁.started⟩ = some {} := by
      rw [Memory.tx?_perform_beginTx wf, if_pos rfl]
    let g' : Progress := { g with tx := some ⟨m₁.started⟩ }
    refine ⟨g', .started wf free rfl rfl, ensures_lift_bind ?_⟩
    refine (stages ⟨m₁.started⟩ _ g' rfl held pending
      fun b later => fits b (same.entries.trans later)).mono ?_
    intro outcome d m g staged
    exact ensures_settle staged proper
  · refine ⟨free, .inr ⟨late, fun entry posted => ?_⟩⟩
    rw [pending] at posted
    cases posted

end Attempt

/-! ### The work of a call fits the call -/

/-- The writes of a new entry add that entry to its account. -/
theorem EntryRequest.job_proper (r : EntryRequest) (c : Call) (transactionId : String) :
    (r.job c transactionId).Proper := by
  intro v hasPool entry t plan
  simp only [EntryRequest.job, AccountRows.addPlan] at plan
  cases kind : r.kind with
  | credit =>
    simp only [kind] at plan
    obtain ⟨-, rfl, ⟨_, _, _, _, rfl⟩ | ⟨_, rfl⟩⟩ := AccountRows.creditPlan_eq_ok plan
    · exact ⟨rfl, rfl, rfl⟩
    · exact ⟨rfl, rfl, rfl⟩
  | debit =>
    simp only [kind] at plan
    obtain ⟨allocations, row, row', -, -, rfl, -, rfl⟩ := AccountRows.debitPlan_eq_ok plan
    exact ⟨rfl, rfl, rfl⟩

/-- The writes of a reversal add the reversal to the account of the entry. -/
theorem Entry.revertJob_proper (e : Entry) (c : Call) (transactionId : String) :
    (e.revertJob c transactionId).Proper := by
  intro v hasPool entry t plan
  obtain ⟨row, row', -, rfl, -, rfl⟩ := AccountRows.revertPlan_eq_ok plan
  exact ⟨rfl, rfl, rfl⟩

theorem EntryRequest.job_fits {r : EntryRequest} {c : Call} {transactionId : String}
    (asked : c.mutation = .add r) (valid : validateRequest r = .ok ())
    (drawn : c.transactionId = .ok transactionId) (b : Books) :
    (r.job c transactionId).Fits c b where
  target := by simp [Books.target, asked, EntryRequest.job]
  post := by
    simp [Books.post, asked, valid, drawn, Job.finish, EntryRequest.job, EntryRequest.account]
  found _ _ _ _ _ plan committed := (r.job_proper c transactionId).findEntry_duplicate plan committed

theorem Entry.revertJob_fits {reverted : Entry} {id : EntryId} {c : Call} {transactionId : String}
    (asked : c.mutation = .revert id) (drawn : c.transactionId = .ok transactionId) {b : Books}
    (present : b.findEntry (.byId id) = some reverted) :
    (reverted.revertJob c transactionId).Fits c b where
  target := by simp [Books.target, asked, present, Entry.revertJob]
  post := by
    simp [Books.post, asked, present, drawn, Job.finish, Entry.revertJob, Entry.account]
  found := by
    intro v hasPool entry t after plan committed
    obtain ⟨-, -, -, rfl⟩ := Books.commit_eq_ok committed
    have same : reverted.id = id := (Books.mem_of_findEntry present).2
    simp only [Entry.revertJob, same]
    exact Books.findEntry_of_prefix (List.prefix_append _ _) present

/-! ### Whole calls -/

/-- How a call ends that may be left without an answer under the timer when it is `overdue`: then
it may fail with nothing decided. -/
def Call.Ends (overdue : Prop) (result : Except LedgerError Entry) (g : Progress) : Prop :=
  g.tx = none ∧
    (g.outcome = some result ∨ overdue ∧ g.Unposted ∧ ∃ error, result = .error error)

theorem Job.Ended.ends {job : Job} {overdue : Prop} {error : LedgerError} {m : Memory}
    {g : Progress} (ended : job.Ended overdue (.error error) m g) :
    Call.Ends overdue (.error error) g := by
  obtain ⟨free, decided | ⟨late, unposted⟩⟩ := ended
  · exact ⟨free, .inl decided⟩
  · exact ⟨free, .inr ⟨late, unposted, error, rfl⟩⟩

/-- How a call comes to its report: its result is decided, or it does not depend on any books. -/
def Call.Tried (c : Call) (overdue : Prop) (result : Except LedgerError Entry) (g : Progress) :
    Prop :=
  Call.Ends overdue result g ∨
    (g.tx = none ∧ g.outcome = none ∧ ∀ b : Books, b.apply c = (result, b))

/-- How a call that reverts an entry comes to its report: the reversal that it reports is the one
that the reference of a reversal finds. -/
structure Call.TriedRevert (c : Call) (overdue : Prop)
    (result : Except LedgerError (Entry × Entry)) (m : Memory) (g : Progress) : Prop where
  tried : c.Tried overdue (result.map Prod.fst) g
  reversal : ∀ reverted reversal, result = .ok (reverted, reversal) →
    m.books.findEntry (.byReference reverted.organizationId reverted.transactionId) = some reversal

theorem Call.Ends.triedRevert {c : Call} {overdue : Prop} {error : LedgerError} {m : Memory}
    {g : Progress} (ended : Call.Ends overdue (.error error) g) :
    c.TriedRevert overdue (.error error) m g where
  tried := .inl ended
  reversal := by
    intro _ _ failed
    cases failed

namespace Attempt

variable {α β : Type} {c : Call} {job : Job} {overdue : Prop} {d : Draws} {m : Memory}
  {g : Progress} {post : Except LedgerError β → Draws → Memory → Progress → Prop}

/-- Looking for an entry outside the transaction. -/
theorem ensures_findEntry {lookup : EntryLookup} {next : Option Entry → Attempt β}
    (free : g.tx = none)
    (turn : ∀ m₁, Undisturbed c g.tx m m₁ → ∃ g', g'.tx = none ∧ Effect c m₁ m₁ g g' ∧
      (next (m₁.books.findEntry lookup)).run.Ensures c overdue post d m₁ g') :
    (ask (.findEntry lookup) >>= next).run.Ensures c overdue post d m g := by
  intro m₁ wf same answer m₂ ran
  cases ran
  obtain ⟨g', released, effect, rest⟩ := turn m₁ same
  refine ⟨g', .still (fun tx own => ?_) (released.trans free.symm) effect, rest⟩
  rw [free] at own
  cases own

/-- Drawing the transaction id. -/
theorem ensures_newTransactionId {next : String → Attempt β} (clock : d.clock = 0)
    (random : d.random = 0)
    (rest : match c.transactionId with
      | .ok transactionId =>
        (next transactionId).run.Ensures c overdue post { d with clock := 1, random := 1 } m g
      | .error error => ∀ d m, post (.error error) d m g) :
    (newTransactionId >>= next).run.Ensures c overdue post d m g := by
  obtain ⟨clocks, fresh, randoms⟩ := d
  obtain rfl : clocks = 0 := clock
  obtain rfl : randoms = 0 := random
  unfold Call.transactionId at rest
  simp only [newTransactionId, Bind.bind, ExceptT.bind, ExceptT.run, ExceptT.mk, Program.bind,
    Program.Ensures]
  cases bytes : c.source.random 0 with
  | error reason =>
    rw [bytes] at rest
    exact fun m₁ _ => rest _ m₁
  | ok drawn =>
    rw [bytes] at rest
    exact rest

/-- The checks of a call before its transaction. A reference that is taken and randomness that fails
decide the outcome. -/
theorem ensures_checked {organizationId referenceId : String} {next : String → Attempt β}
    (free : g.tx = none) (pending : g.outcome = none) (clock : d.clock = 0) (random : d.random = 0)
    (applied : ∀ m₁, Undisturbed c g.tx m m₁ → ∀ error,
      (do m₁.books.refuseTaken organizationId referenceId; c.transactionId) = .error error →
      m₁.books.apply c = (.error error, m₁.books))
    (decided : ∀ error d m, post (.error error) d m ⟨none, some (.error error)⟩)
    (rest : ∀ m₁ transactionId, Undisturbed c g.tx m m₁ → c.transactionId = .ok transactionId →
      (next transactionId).run.Ensures c overdue post { d with clock := 1, random := 1 } m₁ g) :
    (do
      let found ← ask (.findEntry (.byReference organizationId referenceId))
      Ledger.refuseTaken throw organizationId referenceId found
      let transactionId ← newTransactionId
      next transactionId).run.Ensures c overdue post d m g := by
  refine ensures_findEntry free fun m₁ same => ?_
  cases found : m₁.books.findEntry (.byReference organizationId referenceId) with
  | some taken =>
    refine ⟨⟨none, some (.error (.alreadyExists organizationId referenceId))⟩, rfl,
      .decided _ pending rfl (applied m₁ same _ ?_) (.inl rfl), fun m₂ _ => decided _ d m₂⟩
    simp [Books.refuseTaken, found, Ledger.refuseTaken]
  | none =>
    have unrefused : m₁.books.refuseTaken organizationId referenceId = .ok () := by
      simp [Books.refuseTaken, found, Ledger.refuseTaken]
    cases drawn : c.transactionId with
    | error error =>
      refine ⟨⟨none, some (.error error)⟩, rfl,
        .decided _ pending rfl (applied m₁ same _ ?_) (.inl rfl),
        ensures_newTransactionId clock random ?_⟩
      · simp [unrefused, drawn]
      · simp only [drawn]
        exact decided error
    | ok transactionId =>
      refine ⟨g, free, .silent rfl rfl, ensures_newTransactionId clock random ?_⟩
      simp only [drawn]
      exact rest m₁ transactionId same drawn

/-- Adding an entry, up to the report. -/
theorem ensures_tryAdd {r : EntryRequest} (asked : c.mutation = .add r) :
    (Ledger.tryAdd c.config r).run.Ensures c overdue (fun result _ _ g => c.Tried overdue result g)
      {} m {} := by
  cases valid : validateRequest r with
  | error violation =>
    rw [Ledger.tryAdd, valid]
    refine fun m₁ _ => .inr ⟨rfl, rfl, fun b => ?_⟩
    simp [Books.apply, Books.post, asked, valid]
  | ok _ =>
    rw [Ledger.tryAdd, valid]
    refine ensures_checked rfl rfl rfl rfl (fun m₁ _ error failed => ?_)
      (fun error d m => .inl ⟨rfl, .inl rfl⟩) fun m₁ transactionId _ drawn => ?_
    · cases refused : m₁.books.refuseTaken r.organizationId r.referenceId with
      | error reason | ok _ =>
        simp only [refused, error_bind, ok_bind] at failed
        simp_all [Books.apply, Books.post]
    · have fits := EntryRequest.job_fits asked valid drawn
      refine ensures_bind (ensures_inTransaction (r.job c transactionId)
        (r.job_proper c transactionId) rfl rfl (fun b _ => fits b)
        fun tx m g own held pending fits =>
          Staged.ensures_stageAdd valid own held pending fits rfl rfl) ?_ ?_
      · exact fun error d m g ended m₁ _ => .inl ended.ends
      · intro entry d m g ended
        refine ensures_findEntry ended.1 fun m₁ same => ⟨g, ended.1, .silent rfl rfl, ?_⟩
        have found : m₁.books.findEntry (.byReference r.organizationId r.referenceId) =
          some entry := Books.findEntry_of_prefix same.entries ended.2.2.1
        rw [found]
        exact fun m₂ _ => .inl ⟨ended.1, .inl ended.2.1⟩

/-- Reverting an entry, up to the report. -/
theorem ensures_tryRevert {id : EntryId} (asked : c.mutation = .revert id) :
    (Ledger.tryRevert c.config id).run.Ensures c overdue
      (fun result _ m g => c.TriedRevert overdue result m g) {} m {} := by
  refine ensures_findEntry rfl fun m₁ _ => ?_
  cases present : m₁.books.findEntry (.byId id) with
  | none =>
    refine ⟨⟨none, some (.error (.entryNotFound id))⟩, rfl, .decided _ rfl rfl ?_ (.inl rfl),
      fun m₂ _ => Call.Ends.triedRevert ⟨rfl, .inl rfl⟩⟩
    simp [Books.apply, Books.post, asked, present]
  | some reverted =>
    refine ⟨{}, rfl, .silent rfl rfl, ?_⟩
    have kept : ∀ m₂, Undisturbed c none m₁ m₂ →
        m₂.books.findEntry (.byId id) = some reverted :=
      fun m₂ same => Books.findEntry_of_prefix same.entries present
    refine ensures_checked rfl rfl rfl rfl (fun m₂ same error failed => ?_)
      (fun error d m => Call.Ends.triedRevert ⟨rfl, .inl rfl⟩) fun m₂ transactionId same drawn => ?_
    · have present := kept m₂ same
      cases refused : m₂.books.refuseTaken reverted.organizationId reverted.transactionId with
      | error reason | ok _ =>
        simp only [refused, error_bind, ok_bind] at failed
        simp_all [Books.apply, Books.post]
    · have fits : ∀ b : Books, m₂.books.entries <+: b.entries →
          (reverted.revertJob c transactionId).Fits c b :=
        fun b later => Entry.revertJob_fits asked drawn
          (Books.findEntry_of_prefix later (kept m₂ same))
      refine ensures_bind (ensures_inTransaction (reverted.revertJob c transactionId)
        (reverted.revertJob_proper c transactionId) rfl rfl fits fun tx m g own held pending fits =>
          Staged.ensures_stageRevert own held pending fits rfl rfl) ?_ ?_
      · exact fun error d m g ended m₁ _ => ended.ends.triedRevert
      · intro entry d m g ended
        obtain ⟨free, decided, found, added⟩ := ended
        refine ensures_findEntry free fun m₃ same => ⟨g, free, .silent rfl rfl, ?_⟩
        have found : m₃.books.findEntry (.byId reverted.id) = some reverted :=
          Books.findEntry_of_prefix same.entries found
        rw [(Books.mem_of_findEntry present).2] at found
        rw [found]
        refine fun m₄ later => ⟨.inl ⟨free, .inl decided⟩, ?_⟩
        rintro _ _ ⟨⟩
        exact Books.findEntry_of_prefix (same.entries.trans later.entries) added

end Attempt

/-- The report of a call. A call whose result does not depend on the books is decided here. -/
theorem Call.Tried.ensures_report {c : Call} {overdue : Prop} {result : Except LedgerError Entry}
    {signal : Signal} {d : Draws} {m : Memory} {g : Progress} (tried : c.Tried overdue result g) :
    (Program.report signal (.done result)).Ensures c overdue
      (fun result _ _ g => Call.Ends overdue result g) d m g := by
  intro m₁ wf same
  rcases tried with ended | ⟨free, pending, applied⟩
  · refine ⟨g, .still (fun tx own => ?_) rfl (.silent rfl rfl), fun _ _ => ended⟩
    rw [ended.1] at own
    cases own
  · refine ⟨⟨none, some result⟩, .still (fun tx own => ?_) free.symm
      (.decided _ pending rfl (applied _) (.inl rfl)), fun _ _ => ⟨rfl, .inl rfl⟩⟩
    rw [free] at own
    cases own

/-- Every step of a call is a step of the call, whatever others do in between, and it ends with the
result that was decided for it. -/
theorem Call.ensures_program (c : Call) (overdue : Prop) (m : Memory) :
    c.program.Ensures c overdue (fun result _ _ g => Call.Ends overdue result g) {} m {} := by
  cases asked : c.mutation with
  | add r =>
    rw [Call.program, asked]
    refine Program.Ensures.bind ((Attempt.ensures_tryAdd asked).mono fun result d m g tried => ?_)
    cases result with
    | ok entry => exact tried.ensures_report
    | error error => exact tried.ensures_report
  | revert id =>
    rw [Call.program, asked]
    refine Program.Ensures.bind
      ((Attempt.ensures_tryRevert asked).mono fun result d m g done => ?_)
    cases result with
    | ok pair => exact done.tried.ensures_report
    | error error => exact done.tried.ensures_report

end PointLedger
