import Mathlib.Data.List.Induction
import PointLedger.Proofs.Agreement
import PointLedger.Proofs.Serial

/-!
What a call on trial leaves behind. As long as no commit of it has gone through, the call has
changed nothing in the books, however it ends; and once it is over, none of its transactions is
live, so it holds no lock.
-/

namespace PointLedger

/-! ### What the call is told -/

/-- What the call knows of its commit is true, and it is not misled but by a late fault. -/
structure Told (t : Trial) (s : Course) : Prop where
  asked : t.committed = true → s.asked = true
  committed : s.committed = true → t.committed = true
  unheard : t.committed = true → s.committed = true ∨ t.faultedLate = true
  misled : s.misled = true → t.faultedLate = true

namespace Told

variable {t t' : Trial} {s s' : Course} {request : Request} {conduct : Conduct} {after : Memory}
  {reply : Reply request}

theorem congr (told : Told t s) (committed : t'.committed = t.committed)
    (faultedLate : t'.faultedLate = t.faultedLate) : Told t' s := by
  refine ⟨?_, ?_, ?_, ?_⟩
  · rw [committed]
    exact told.asked
  · rw [committed]
    exact told.committed
  · rw [committed, faultedLate]
    exact told.unheard
  · rw [faultedLate]
    exact told.misled

/-- A request after which the call believes as much of its commit as before. It may be a commit that
goes through unheard. -/
theorem unconfirmed (told : Told t s) (committed : s'.committed = s.committed)
    (asked : (t.request request conduct).committed = true → s'.asked = true)
    (unheard : conduct.reaches = true → t.memory.accepts request = true → conduct ≠ .carriedOut)
    (misled : s'.misled = true → s.misled = true ∨ t.committed = true ∧ conduct ≠ .carriedOut) :
    Told (t.request request conduct) s' := by
  constructor
  · exact asked
  · intro known
    rw [Trial.committed_request, told.committed (committed ▸ known), Bool.true_or]
  · intro done
    rw [Trial.faultedLate_request, committed]
    rw [Trial.committed_request, Bool.or_eq_true, Bool.and_eq_true] at done
    rcases done with before | ⟨reaches, accepted⟩
    · exact (told.unheard before).imp_right fun late => by rw [late, Bool.true_or]
    · right
      simp [Trial.committed_request, reaches, accepted, unheard reaches accepted]
  · intro wrong
    rw [Trial.faultedLate_request, Trial.committed_request]
    rcases misled wrong with before | ⟨done, faulty⟩
    · rw [told.misled before, Bool.true_or]
    · simp [done, faulty]

/-- A request that is no commit. -/
theorem quiet (told : Told t s) (plain : t.memory.accepts request = false)
    (asked : s'.asked = s.asked) (committed : s'.committed = s.committed)
    (misled : s'.misled = true → s.misled = true ∨ t.committed = true ∧ conduct ≠ .carriedOut) :
    Told (t.request request conduct) s' := by
  refine told.unconfirmed committed (fun done => ?_) (fun _ accepted => ?_) misled
  · rw [Trial.committed_request, plain, Bool.and_false, Bool.or_false] at done
    exact asked.trans (told.asked done)
  · rw [plain] at accepted
    cases accepted

theorem findEntry (told : Told t s) (agrees : Agrees t.memory t.own s) {lookup : EntryLookup}
    {reply : Reply (.findEntry lookup)}
    (meets : t.memory.Meets (.findEntry lookup) conduct reply after) :
    Told (t.request (.findEntry lookup) conduct) (s.hear reply) := by
  have flags : (s.hear reply).asked = s.asked ∧ (s.hear reply).committed = s.committed := by
    rcases reply with _ | (error | _ | e) | _ <;> exact ⟨rfl, rfl⟩
  refine told.quiet rfl flags.1 flags.2 fun misled => ?_
  -- A failure misleads the call only after its commit.
  have failed : reply.isFailure = true → conduct ≠ .carriedOut →
      s.misled = true ∨ t.committed = true ∧ conduct ≠ .carriedOut := by
    intro fails faulty
    have same : (s.hear reply).misled = (s.misled || s.committed) := by
      rcases reply with _ | (error | value) | _ <;> first | rfl | cases fails
    rw [same, Bool.or_eq_true] at misled
    exact misled.imp_right fun done => ⟨told.committed done, faulty⟩
  cases meets with
  | heard answer after how ran =>
    cases ran
    cases found : t.memory.books.findEntry lookup with
    | some e =>
      have asked : lookup.isMatch e = true := List.find?_some found
      simp only [Course.hear, Pure.pure, Except.pure, found, Course.after, asked] at misled
      exact .inl (by simpa using misled)
    | none =>
      have unmatched : s.known.any lookup.isMatch = false := by
        refine List.any_eq_false.mpr fun e member matched => ?_
        exact List.find?_eq_none.mp found e (agrees.known e member) matched
      simp only [Course.hear, Pure.pure, Except.pure, found, Course.after, unmatched] at misled
      exact .inl (by simpa using misled)
  | waits after ran => cases ran
  | lost reply answer after how reaches fails ran => exact failed fails how
  | refused error how => exact failed rfl (by simp [how])
  | late how => exact failed rfl (by simp [how])

theorem commit (told : Told t s) {tx : TxId} {reply : Reply (.commit tx)}
    (meets : t.memory.Meets (.commit tx) conduct reply after) :
    Told (t.request (.commit tx) conduct) (s.hear reply) := by
  have failed : reply.isFailure = true →
      (conduct.reaches = true → t.memory.accepts (.commit tx) = true → conduct ≠ .carriedOut) →
      Told (t.request (.commit tx) conduct) (s.hear reply) := by
    intro fails unheard
    rcases reply with _ | (error | done) | _
    · cases fails
    · exact told.unconfirmed rfl (fun _ => rfl) unheard .inl
    · cases fails
    · exact told.unconfirmed rfl (fun _ => rfl) unheard .inl
  cases meets with
  | heard answer after how ran =>
    rcases answer with error | done
    · refine failed rfl fun _ accepted => ?_
      simp [Memory.accepts, ran] at accepted
    · have accepted : t.memory.accepts (.commit tx) = true := by simp [Memory.accepts, ran]
      refine ⟨fun _ => rfl, fun _ => ?_, fun _ => .inl rfl, fun wrong => ?_⟩
      · simp [Trial.committed_request, accepted, how, Conduct.reaches]
      · rw [Trial.faultedLate_request, told.misled wrong, Bool.true_or]
  | waits after ran =>
    simp only [Memory.perform] at ran
    repeat' split at ran
    all_goals cases ran
  | lost reply answer after how reaches fails ran => exact failed fails fun _ _ => how
  | refused error how => exact failed rfl fun _ _ => by simp [how]
  | late how => exact failed rfl fun _ _ => by simp [how]

/-- Whatever becomes of a request, what the call is told of its commit stays true. -/
theorem meets (told : Told t s) (agrees : Agrees t.memory t.own s)
    (meets : t.memory.Meets request conduct reply after) :
    Told (t.request request conduct) (s.hear reply) := by
  cases request with
  | commit tx => exact told.commit meets
  | findEntry lookup => exact told.findEntry agrees meets
  | _ =>
    have flags : (s.hear reply).asked = s.asked ∧ (s.hear reply).committed = s.committed ∧
        (s.hear reply).misled = s.misled := by
      rcases reply with _ | (error | value) | _ <;> exact ⟨rfl, rfl, rfl⟩
    exact told.quiet rfl flags.1 flags.2.1 fun misled => .inl (flags.2.2 ▸ misled)

end Told

/-! ### Runs -/

/-- What the call has been told describes the trial. A call that goes on keeps to its course, and
one that was dropped holds nothing. -/
structure Tracks (t : Trial) (s : Course) : Prop where
  agrees : Agrees t.memory t.own s
  told : Told t s
  running : t.dropped = false → t.program.Follows Course.Finishes s
  quit : t.dropped = true → s.tx = none ∧ t.result? = none

namespace Tracks

variable {c : Call} {t : Trial} {s : Course}

theorem start (c : Call) {m : Memory} (wf : m.WellFormed) :
    Tracks { memory := m, program := c.program } {} where
  agrees := by
    refine ⟨wf, ?_, ?_, ?_, fun _ => rfl, ?_⟩
    · intro tx member
      cases member
    · intro tx member
      cases member
    · intro tx holds
      cases holds
    · intro e member
      cases member
  told := ⟨Bool.noConfusion, Bool.noConfusion, Bool.noConfusion, Bool.noConfusion⟩
  running _ := c.follows_program
  quit := Bool.noConfusion

/-- A request of the call. -/
theorem request (tracks : Tracks t s) (on : t.dropped = false) {request : Request}
    (allowed : s.Allows request) (conduct : Conduct) {reply : Reply request}
    (heard : (t.memory.meet request conduct).1 = reply)
    (timely : reply = .overdue → request.endsTx = false)
    {program : Program (Except LedgerError Entry)}
    (rest : program.Follows Course.Finishes (s.hear reply)) :
    Tracks { t.request request conduct with program := program } (s.hear reply) := by
  have meets := t.memory.meets_meet request conduct
  rw [heard] at meets
  exact {
    agrees := tracks.agrees.meets allowed meets timely
    told := (tracks.told.meets tracks.agrees meets).congr rfl rfl
    running := fun _ => rest
    quit := fun dropped => by cases on.symm.trans dropped }

/-- One step of the call. -/
theorem step (tracks : Tracks t s) (on : t.dropped = false) (c : Call) (conduct : Conduct) :
    ∃ s', Tracks (t.step c conduct) s' := by
  have follows := tracks.running on
  have still : ∀ {program draws}, program.Follows Course.Finishes s →
      Tracks { t with program := program, draws := draws } s :=
    fun rest => ⟨tracks.agrees, tracks.told.congr rfl rfl, fun _ => rest, fun dropped => by
      cases on.symm.trans dropped⟩
  unfold Trial.step
  cases program : t.program with
  | done result => exact ⟨s, tracks⟩
  | startTimer limit next =>
    rw [program] at follows
    exact ⟨s, still follows⟩
  | clock next =>
    rw [program] at follows
    exact ⟨s, still (follows _)⟩
  | fresh next =>
    rw [program] at follows
    exact ⟨s, still (follows _)⟩
  | random next =>
    rw [program] at follows
    exact ⟨s, still (follows _)⟩
  | report signal next =>
    rw [program] at follows
    exact ⟨s, still follows⟩
  | ask asked next =>
    have whole := follows
    rw [program] at follows
    obtain ⟨allowed, rest⟩ := follows
    dsimp only
    cases heard : (t.memory.meet asked conduct).1 with
    | waiting => exact ⟨s, tracks.request on allowed conduct heard nofun whole⟩
    | answered answer =>
      exact ⟨_, tracks.request on allowed conduct heard nofun (rest answer)⟩
    | overdue => exact ⟨s, tracks⟩
  | askInTime asked next =>
    have whole := follows
    rw [program] at follows
    obtain ⟨allowed, inside, rest⟩ := follows
    dsimp only
    cases heard : (t.memory.meet asked conduct).1 with
    | waiting => exact ⟨s, tracks.request on allowed conduct heard nofun whole⟩
    | answered answer =>
      exact ⟨_, tracks.request on allowed conduct heard nofun (rest (some answer))⟩
    | overdue =>
      exact ⟨_, tracks.request on allowed conduct heard (fun _ => inside) (rest none)⟩

/-- Whatever happens. -/
theorem turn (tracks : Tracks t s) (c : Call) (next : Happening) :
    ∃ s', Tracks (t.turn c next) s' := by
  cases next with
  | step conduct =>
    simp only [Trial.turn]
    split
    · exact ⟨s, tracks⟩
    · rename_i on
      exact tracks.step (by simpa using on) c conduct
  | other request =>
    simp only [Trial.turn]
    split
    · exact ⟨s, tracks⟩
    · rename_i unowned
      have foreign : ∀ tx ∈ t.own, request.tx? ≠ some tx := by
        intro tx member named
        simp [named, member] at unowned
      exact ⟨s, tracks.agrees.other (Memory.perform_changes rfl) foreign,
        tracks.told.congr rfl rfl, tracks.running, tracks.quit⟩
  | dropped =>
    simp only [Trial.turn]
    split
    · exact ⟨s, tracks⟩
    · rename_i running
      have unended : t.result? = none := by simpa using running
      refine ⟨_, tracks.agrees.dropped, ?_, Bool.noConfusion, fun _ => ⟨rfl, unended⟩⟩
      exact ⟨tracks.told.asked, tracks.told.committed, tracks.told.unheard, tracks.told.misled⟩

theorem run (c : Call) {m : Memory} (wf : m.WellFormed) (happenings : List Happening) :
    ∃ s, Tracks (Trial.run c m happenings) s := by
  induction happenings using List.reverseRecOn with
  | nil => exact ⟨{}, start c wf⟩
  | append_singleton early next ih =>
    obtain ⟨s, tracks⟩ := ih
    rw [Trial.run_concat]
    exact tracks.turn c next

/-- A call that is over holds no transaction. -/
theorem released (tracks : Tracks t s) (stopped : t.IsOver) : s.tx = none := by
  cases dropped : t.dropped with
  | true => exact (tracks.quit dropped).1
  | false =>
    have follows := tracks.running dropped
    rcases stopped with quit | ended
    · cases dropped.symm.trans quit
    · unfold Trial.result? at ended
      cases program : t.program with
      | done result =>
        rw [program] at follows
        exact follows.released
      | _ => simp [program] at ended

/-- A call that has a result ended in its course. -/
theorem finishes (tracks : Tracks t s) {result : Except LedgerError Entry}
    (ended : t.result? = some result) : Course.Finishes result s := by
  cases dropped : t.dropped with
  | true => cases (tracks.quit dropped).2.symm.trans ended
  | false =>
    have follows := tracks.running dropped
    unfold Trial.result? at ended
    cases program : t.program with
    | done value =>
      rw [program] at follows ended
      cases ended
      exact follows
    | _ => simp [program] at ended

end Tracks

/-! ### Locks and books -/

namespace Memory

variable {m after : Memory} {request : Request}

/-- Whoever waits for a lock waits for a transaction that has taken it. -/
theorem exists_holds_of_waiting {tx : TxId} {account : Account}
    (waits : (m.perform (.lockAccount tx account)).1 = none) :
    ∃ holder, m.Holds holder account.lockKey := by
  simp only [perform, lock] at waits
  split at waits
  · cases waits
  · split at waits
    · cases waits
    · split at waits
      · rename_i held
        rw [isHeldByOther_knowLock] at held
        obtain ⟨row, member, other⟩ := List.any_eq_true.mp held
        rw [Bool.and_eq_true, List.contains_iff_mem] at other
        exact ⟨row.1, row.2, member, other.2⟩
      · cases waits

/-- A request that the store does not accept as a commit leaves the books alone. -/
theorem books_of_not_accepts {answer : Option (Except StoreError request.Answer)}
    (refused : m.accepts request = false) (ran : m.perform request = (answer, after)) :
    after.books = m.books := by
  rcases (perform_changes ran).books with same | ⟨tx, u, rfl, live, committed⟩
  · exact same
  · simp [accepts, perform, live, committed, Pure.pure, Except.pure] at refused

/-- A request of the call changes nothing in the books, unless it is a commit that the store accepts
and carries out. -/
theorem Meets.books {conduct : Conduct} {reply : Reply request}
    (meets : m.Meets request conduct reply after)
    (refused : (conduct.reaches && m.accepts request) = false) : after.books = m.books := by
  cases meets with
  | heard answer after how ran =>
    subst how
    exact books_of_not_accepts refused ran
  | waits after ran => exact (perform_unanswered ran).1
  | lost reply answer after how reaches fails ran =>
    rw [reaches, Bool.true_and] at refused
    have kept := books_of_not_accepts refused ran
    unfold World.dropStarted
    split <;> exact kept
  | refused error how => cases request <;> rfl
  | late how => rfl

end Memory

namespace Trial

variable {c : Call} {t : Trial}

/-- What a step of the call does to the store: nothing, or what a request does. -/
theorem step_cases (c : Call) (t : Trial) (conduct : Conduct) :
    ((t.step c conduct).memory = t.memory ∧ (t.step c conduct).committed = t.committed) ∨
    ∃ request, (t.step c conduct).memory = (t.request request conduct).memory ∧
      (t.step c conduct).committed = (t.request request conduct).committed := by
  unfold step
  cases t.program with
  | ask request next =>
    dsimp only
    cases (t.memory.meet request conduct).1 with
    | waiting => exact .inr ⟨request, rfl, rfl⟩
    | answered answer => exact .inr ⟨request, rfl, rfl⟩
    | overdue => exact .inl ⟨rfl, rfl⟩
  | askInTime request next =>
    dsimp only
    cases (t.memory.meet request conduct).1 with
    | waiting => exact .inr ⟨request, rfl, rfl⟩
    | answered answer => exact .inr ⟨request, rfl, rfl⟩
    | overdue => exact .inr ⟨request, rfl, rfl⟩
  | _ => exact .inl ⟨rfl, rfl⟩

/-- A turn of the call after which no commit has gone through leaves the books alone. -/
theorem turn_uncommitted {next : Happening}
    (uncommitted : (t.turn c next).committed = false) :
    t.committed = false ∧ (next.isOwn = true → (t.turn c next).memory.books = t.memory.books) := by
  cases next with
  | step conduct =>
    simp only [turn] at uncommitted ⊢
    split at uncommitted
    · rename_i dropped
      rw [if_pos dropped]
      exact ⟨uncommitted, fun _ => rfl⟩
    · rename_i on
      rw [if_neg on]
      rcases step_cases c t conduct with ⟨memory, committed⟩ | ⟨request, memory, committed⟩
      · exact ⟨committed.symm.trans uncommitted, fun _ => by rw [memory]⟩
      · rw [committed, committed_request, Bool.or_eq_false_iff] at uncommitted
        refine ⟨uncommitted.1, fun _ => ?_⟩
        rw [memory]
        exact (t.memory.meets_meet request conduct).books uncommitted.2
  | other request =>
    refine ⟨?_, nofun⟩
    simp only [turn] at uncommitted
    split at uncommitted <;> exact uncommitted
  | dropped =>
    simp only [turn] at uncommitted ⊢
    split at uncommitted
    · rename_i ended
      rw [if_pos ended]
      exact ⟨uncommitted, fun _ => rfl⟩
    · rename_i running
      rw [if_neg running]
      exact ⟨uncommitted, fun _ => Memory.books_foldl_endTx t.own t.memory⟩

/-- A call that has not committed had not committed before. -/
theorem uncommitted_of_prefix {m : Memory} {early happenings : List Happening}
    (earlier : early <+: happenings) (uncommitted : (run c m happenings).committed = false) :
    (run c m early).committed = false := by
  obtain ⟨late, rfl⟩ := earlier
  induction late using List.reverseRecOn with
  | nil => simpa using uncommitted
  | append_singleton late next ih =>
    rw [← List.append_assoc, run_concat] at uncommitted
    exact ih (turn_uncommitted uncommitted).1

/-- The call changes nothing in the books while this happens. -/
def Spares (c : Call) (m : Memory) (happenings : List Happening) : Prop :=
  ∀ early next, early ++ [next] <+: happenings → next.isOwn = true →
    (run c m (early ++ [next])).memory.books = (run c m early).memory.books

/-- A call that has not committed has changed nothing in the books. -/
theorem spares_of_uncommitted {m : Memory} {happenings : List Happening}
    (uncommitted : (run c m happenings).committed = false) : Spares c m happenings := by
  intro early next earlier own
  have before := uncommitted_of_prefix earlier uncommitted
  rw [run_concat] at before ⊢
  exact (turn_uncommitted before).2 own

/-- A call that runs alone and changes nothing leaves the books as they were. -/
theorem Spares.alone {m : Memory} {happenings : List Happening} (spares : Spares c m happenings)
    (alone : ∀ next ∈ happenings, next.isOwn = true) :
    (run c m happenings).memory.books = m.books := by
  induction happenings using List.reverseRecOn with
  | nil => rfl
  | append_singleton early next ih =>
    have last := spares early next List.prefix_rfl (alone next (by simp))
    refine last.trans (ih (fun early' next' earlier => ?_) fun next' member => ?_)
    · exact spares early' next' (earlier.trans (List.prefix_append early [next]))
    · exact alone next' (List.mem_append_left [next] member)

/-! ### What a call leaves behind -/

/-- None of the transactions of a call that is over is live. -/
theorem ended_of_isOver {m : Memory} (wf : m.WellFormed) {happenings : List Happening}
    (stopped : (run c m happenings).IsOver) :
    ∀ tx ∈ (run c m happenings).own, (run c m happenings).memory.tx? tx = none := by
  intro tx member
  obtain ⟨s, tracks⟩ := Tracks.run c wf happenings
  have free := tracks.released stopped
  exact tracks.agrees.released tx member (by rw [free]; nofun)

/-- A call that ran out of time has not committed. -/
theorem uncommitted_of_timeout {m : Memory} (wf : m.WellFormed) {happenings : List Happening}
    {limit : Duration} (late : (run c m happenings).result? = some (.error (.timeout limit))) :
    (run c m happenings).committed = false := by
  obtain ⟨s, tracks⟩ := Tracks.run c wf happenings
  have asked := (tracks.finishes late).late limit rfl
  cases committed : (run c m happenings).committed with
  | false => rfl
  | true => cases asked.symm.trans (tracks.told.asked committed)

/-- A call of which no commit has gone through has changed nothing in the books, whatever became of
its requests and wherever it stopped, and neither has one that ran out of time. Once it is over,
none of its transactions is live, and whoever waits for a lock waits for somebody else. -/
theorem leaves_no_trace (c : Call) {m : Memory} (wf : m.WellFormed)
    (happenings : List Happening) :
    let t := run c m happenings
    (t.committed = false → Spares c m happenings) ∧
      (∀ limit, t.result? = some (.error (.timeout limit)) → Spares c m happenings) ∧
      (t.IsOver → (∀ tx ∈ t.own, t.memory.tx? tx = none) ∧
        ∀ tx account, (t.memory.perform (.lockAccount tx account)).1 = none →
          ∃ holder, holder ∉ t.own ∧ t.memory.Holds holder account.lockKey) := by
  intro t
  refine ⟨spares_of_uncommitted, ?_, ?_⟩
  · intro limit late
    exact spares_of_uncommitted (uncommitted_of_timeout wf late)
  · intro stopped
    have gone := ended_of_isOver wf stopped
    refine ⟨gone, fun tx account waits => ?_⟩
    obtain ⟨holder, u, live, taken⟩ := Memory.exists_holds_of_waiting waits
    refine ⟨holder, fun own => ?_, u, live, taken⟩
    obtain ⟨u', found⟩ := Memory.exists_tx?_of_mem_live live
    cases (gone holder own).symm.trans found

/-- The lock is taken, and the call runs out of time and rolls back. -/
theorem leaves_no_trace_lock_taken :
    let c := Call.numbered 0 (.add ⟨"acme", "ann", .credit, ⟨10, by decide⟩, "first", "", []⟩)
    let others : List Happening := [.other .beginTx, .other (.lockAccount ⟨0⟩ ⟨"acme", "ann"⟩)]
    let own := List.replicate 6 (.step .carriedOut) ++
      [.step .overdue, .step .carriedOut, .step .carriedOut]
    let t := run c {} (others ++ own)
    (({} : Memory).WellFormed ∧ t.result? = some (.error (.timeout c.config.operationTimeout)) ∧
      t.own = [⟨1⟩] ∧ t.memory.live.map (·.1) = [⟨0⟩]) ∧
    (t.committed = false → Spares c {} (others ++ own)) ∧
      (∀ limit, t.result? = some (.error (.timeout limit)) → Spares c {} (others ++ own)) ∧
      (t.IsOver → (∀ tx ∈ t.own, t.memory.tx? tx = none) ∧
        ∀ tx account, (t.memory.perform (.lockAccount tx account)).1 = none →
          ∃ holder, holder ∉ t.own ∧ t.memory.Holds holder account.lockKey) := by
  intro c others own t
  have wf := Memory.atRest_empty.wellFormed
  have late : t.result? = some (.error (.timeout c.config.operationTimeout)) := by decide +kernel
  have started : t.own = [⟨1⟩] := by decide +kernel
  have left : t.memory.live.map (·.1) = [⟨0⟩] := by decide +kernel
  exact ⟨⟨wf, late, started, left⟩, leaves_no_trace c wf (others ++ own)⟩

/-- A call that failed, and that met no failure at its commit or later, has changed nothing in the
books. -/
theorem failure_spares (c : Call) {m : Memory} (wf : m.WellFormed) {happenings : List Happening}
    {error : LedgerError} (failed : (run c m happenings).result? = some (.error error))
    (unfaulted : (run c m happenings).faultedLate = false) :
    (run c m happenings).committed = false ∧ Spares c m happenings := by
  obtain ⟨s, tracks⟩ := Tracks.run c wf happenings
  have uncommitted : (run c m happenings).committed = false := by
    cases committed : (run c m happenings).committed with
    | false => rfl
    | true =>
      exfalso
      have late : (run c m happenings).faultedLate = true := by
        rcases tracks.told.unheard committed with told | late
        · exact tracks.told.misled ((tracks.finishes failed).failed error rfl told)
        · exact late
      cases unfaulted.symm.trans late
  exact ⟨uncommitted, spares_of_uncommitted uncommitted⟩

/-- The commit fails and nothing is written. -/
theorem failure_spares_commit_fails :
    let c := Call.numbered 0 (.add ⟨"acme", "ann", .credit, ⟨10, by decide⟩, "first", "", []⟩)
    let own := List.replicate 16 (.step .carriedOut) ++
      [.step (.failed (.backend "down")), .step .carriedOut]
    let t := run c {} own
    let error := LedgerError.store (.backend "down")
    (({} : Memory).WellFormed ∧ t.result? = some (.error error) ∧ error.isRetryable = true ∧
      t.faultedLate = false) ∧ t.committed = false ∧ Spares c {} own := by
  intro c own t error
  have wf := Memory.atRest_empty.wellFormed
  have failed : t.result? = some (.error error) := by decide +kernel
  have unfaulted : t.faultedLate = false := by decide +kernel
  exact ⟨⟨wf, failed, rfl, unfaulted⟩, failure_spares c wf failed unfaulted⟩

/-- Reading the entry back fails after the commit: the failure is one that a caller may retry, and
the entry is in the books. -/
theorem retryable_after_commit :
    let c := Call.numbered 0 (.add ⟨"acme", "ann", .credit, ⟨10, by decide⟩, "first", "", []⟩)
    let own := List.replicate 17 (.step .carriedOut) ++
      [.step (.failed (.backend "down")), .step .carriedOut]
    let t := run c {} own
    let error := LedgerError.store (.backend "down")
    t.result? = some (.error error) ∧ error.isRetryable = true ∧
      t.memory.books.entries.length = 1 := by
  decide +kernel

end Trial
end PointLedger
