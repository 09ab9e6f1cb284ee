import PointLedger.Proofs.Agreement
import PointLedger.Proofs.Discipline
import PointLedger.Proofs.NoTrace
import PointLedger.Proofs.Serial
import PointLedger.Proofs.StoreCalls

/-!
Calls that wait for locks. A call asks for one lock in all, before anything else in its transaction,
and its transaction is over when it ends. So a call that waits holds no lock, and the one that it
waits for is neither over nor waiting: of the calls that have not finished one can always go on,
whatever has failed or run out of time before.
-/

namespace PointLedger

namespace Exchange

/-- The handle that the store gives out. -/
def handle? : Exchange → Option TxId
  | ⟨.beginTx, some (.ok tx)⟩ => some tx
  | _ => none

/-- The handles that the store has given out. -/
def handles (xs : List Exchange) : List TxId := xs.filterMap handle?

/-- The requests for locks, granted or not. -/
def lockRequests (xs : List Exchange) : List Exchange := xs.filter (·.request.isLock)

end Exchange

/-- What a call knows after some exchanges. -/
def Course.of (xs : List Exchange) : Course :=
  xs.foldl (fun s x => s.after x.request x.answer) {}

theorem Course.of_concat (xs : List Exchange) (x : Exchange) :
    of (xs ++ [x]) = (of xs).after x.request x.answer := by
  simp [of]

/-! ### Calls and what they exchange -/

namespace Phase

/-- What the call asks the store. -/
def asks? : Phase → Option Request
  | .running _ (.ask request _) | .running _ (.askInTime request _) => some request
  | _ => none

/-- The call asks for something that the store does not give now. -/
def Waits (m : Memory) (phase : Phase) : Prop :=
  ∃ request, phase.asks? = some request ∧ (m.perform request).1 = none

/-- What the call exchanges with the store in its turn. -/
def exchange? (m : Memory) (phase : Phase) : Option Exchange := do
  let request ← phase.asks?
  let answer ← (m.perform request).1
  return ⟨request, some answer⟩

/-- The timer runs out over what the call asks. -/
def expire : Phase → Phase
  | .running d (.askInTime _ next) => .running d (next none)
  | phase => phase

/-- What the call gives up when the timer runs out. -/
def abandoned? : Phase → Option Exchange
  | .running _ (.askInTime request _) => some ⟨request, none⟩
  | _ => none

end Phase

/-- What happens next among calls that share a store. -/
inductive Occurrence (ι : Type) where
  | turn (i : ι)
  /-- The timer of a call runs out over what it asks. -/
  | timeout (i : ι)

/-- Calls that share a store, and what each has exchanged with it. -/
structure Traffic (ι : Type) extends Concurrent ι where
  exchanges : ι → List Exchange := fun _ => []

namespace Traffic

variable {ι : Type}

/-- The call has not ended. -/
def Unfinished (s : Traffic ι) (i : ι) : Prop := (s.phases i).result? = none

/-- The call waits for something that the store does not give now. -/
def Waits (s : Traffic ι) (i : ι) : Prop := (s.phases i).Waits s.memory

/-- A transaction that the call has started holds the lock with a key. -/
def Holds (s : Traffic ι) (i : ι) (key : String) : Prop :=
  ∃ tx ∈ Exchange.handles (s.exchanges i), s.memory.Holds tx key

variable [DecidableEq ι]

/-- A call exchanges something with the store, or nothing. -/
def note (s : Traffic ι) (i : ι) (x : Option Exchange) : ι → List Exchange :=
  Function.update s.exchanges i (s.exchanges i ++ x.toList)

@[simp] theorem note_self (s : Traffic ι) (i : ι) (x : Option Exchange) :
    s.note i x i = s.exchanges i ++ x.toList := Function.update_self i _ _

@[simp] theorem note_none (s : Traffic ι) (i : ι) : s.note i none = s.exchanges := by
  simp [note]

theorem note_of_ne (s : Traffic ι) {i j : ι} (other : j ≠ i) (x : Option Exchange) :
    s.note i x j = s.exchanges j := Function.update_of_ne other _ _

/-- What an occurrence makes of the calls. -/
def step (calls : ι → Call) (s : Traffic ι) : Occurrence ι → Traffic ι
  | .turn i =>
    { s.toConcurrent.turn calls i with
      exchanges := s.note i ((s.phases i).exchange? s.memory) }
  | .timeout i =>
    { memory := s.memory
      phases := Function.update s.phases i (s.phases i).expire
      exchanges := s.note i (s.phases i).abandoned? }

/-- What occurrences one after the other make of calls on a store. -/
def run (calls : ι → Call) (m : Memory) (occurrences : List (Occurrence ι)) : Traffic ι :=
  occurrences.foldl (step calls) { memory := m }

end Traffic

/-! ### One lock for each call -/

namespace Exchange

variable {xs : List Exchange}

theorem lockRequests_of_plain (plain : ∀ x ∈ xs, x.Plain) : lockRequests xs = [] := by
  refine List.filter_eq_nil_iff.mpr fun x member => ?_
  have unnamed := (plain x member).1
  cases request : x.request <;> simp_all [Request.isLock, Request.tx?]

theorem lockRequests_append (xs ys : List Exchange) :
    lockRequests (xs ++ ys) = lockRequests xs ++ lockRequests ys := List.filter_append xs ys

end Exchange

namespace Errand

variable {errand : Errand} {tx : TxId} {xs reads writes closing : List Exchange} {ended : Prop}

/-- The lock is the first thing that is read, and nothing else asks for one. -/
theorem Obeyed.lockRequests_le (obeyed : errand.Obeyed tx reads writes closing) :
    (Exchange.lockRequests (reads ++ writes ++ closing)).length ≤ 1 := by
  have read : (Exchange.lockRequests reads).length ≤ 1 := by
    have asked := (obeyed.inOrder.filter Request.isLock).length_le
    rw [List.filter_map, List.length_map] at asked
    refine Nat.le_trans asked ?_
    unfold Errand.reads
    split <;> exact Nat.le_refl 1
  have written : Exchange.lockRequests writes = [] := by
    refine List.filter_eq_nil_iff.mpr fun x member => ?_
    cases writes with
    | nil => cases member
    | cons first rest =>
      rcases List.mem_cons.mp member with rfl | later
      · obtain ⟨e, same, -⟩ := obeyed.entryFirst x rfl
        rw [same]
        nofun
      · obtain ⟨-, a, changes, -⟩ := obeyed.ownRows x later
        cases request : x.request <;> simp_all [Request.isLock, Request.changes?]
  have closed : Exchange.lockRequests closing = [] := by
    rcases obeyed.closes with rfl | ⟨answer, rfl⟩ | ⟨⟨answer, rfl⟩, -⟩ <;> rfl
  rw [Exchange.lockRequests_append, Exchange.lockRequests_append, written, closed,
    List.append_nil, List.append_nil]
  exact read

theorem Kept.lockRequests_le (kept : errand.Kept xs ended) :
    (Exchange.lockRequests xs).length ≤ 1 := by
  rcases kept with plain | ⟨tx, before, session, after, rfl, earlier, later, held⟩
  · rw [Exchange.lockRequests_of_plain plain]
    exact Nat.zero_le 1
  · obtain ⟨reads, writes, closing, rfl, obeyed, -⟩ := held
    rw [Exchange.lockRequests_append, Exchange.lockRequests_of_plain earlier, List.nil_append,
      ← List.singleton_append, Exchange.lockRequests_append, Exchange.lockRequests_append,
      Exchange.lockRequests_of_plain later, List.append_nil]
    exact obeyed.lockRequests_le

end Errand

namespace Call

variable {c : Call} {xs : List Exchange} {outcome : Option (Except LedgerError Entry)}

/-- Whatever the store answers, a call asks for one lock at most. -/
theorem lockRequests_le (exhibits : c.program.Exhibits xs outcome) :
    (Exchange.lockRequests xs).length ≤ 1 := by
  unfold Call.program at exhibits
  cases mutation : c.mutation with
  | add request =>
    rw [mutation] at exhibits
    obtain ⟨result, exhibits, -⟩ := exhibits_observed
      (fun value => by cases value <;> exact ⟨_, _, rfl⟩) exhibits
    exact (Attempt.runs_tryAdd c.config request xs result exhibits).lockRequests_le
  | revert id =>
    rw [mutation] at exhibits
    obtain ⟨result, exhibits, -⟩ := exhibits_observed
      (fun value => by cases value <;> exact ⟨_, _, rfl⟩) exhibits
    rcases Attempt.exhibits_tryRevert exhibits with plain | ⟨reverted, rest, rfl, kept⟩
    · rw [Exchange.lockRequests_of_plain plain]
      exact Nat.zero_le 1
    · exact kept.lockRequests_le

end Call

/-! ### Where the exchanges bring a call -/

/-- The exchanges have brought the call there. -/
def Phase.Fits (c : Call) (xs : List Exchange) : Phase → Prop
  | .pending => xs = []
  | .running _ program =>
    program.Follows Course.Finishes (Course.of xs) ∧
      ∀ ys outcome, program.Exhibits ys outcome → c.program.Exhibits (xs ++ ys) outcome
  | .finished result => Course.Finishes result (Course.of xs) ∧ c.program.Exhibits xs (some result)

namespace Phase.Fits

variable {c : Call} {xs : List Exchange} {d d' : Draws} {m : Memory}
  {program : Program (Except LedgerError Entry)}

theorem exhibits {phase : Phase} (fits : phase.Fits c xs) :
    ∃ outcome, c.program.Exhibits xs outcome := by
  cases phase with
  | pending =>
    rw [show xs = [] from fits]
    exact ⟨none, .dropped _⟩
  | running d program =>
    have exhibits := fits.2 [] none (.dropped _)
    rw [List.append_nil] at exhibits
    exact ⟨none, exhibits⟩
  | finished result => exact ⟨some result, fits.2⟩

/-- What a call asks for is the next thing that it exhibits. -/
theorem exhibits_asked {phase : Phase} (fits : phase.Fits c xs) {request : Request}
    (asks : phase.asks? = some request) :
    c.program.Exhibits (xs ++ [⟨request, none⟩]) none := by
  cases phase with
  | pending => cases asks
  | finished result => cases asks
  | running d program =>
    cases program with
    | ask asked next => cases asks; exact fits.2 _ none .waiting
    | askInTime asked next => cases asks; exact fits.2 _ none (.askInTime none (.dropped _))
    | _ => cases asks

theorem lockRequests_le {phase : Phase} (fits : phase.Fits c xs) :
    (Exchange.lockRequests xs).length ≤ 1 := by
  obtain ⟨outcome, exhibits⟩ := fits.exhibits
  exact c.lockRequests_le exhibits

/-- A call that is over holds no transaction, and neither does one that has not begun. -/
theorem running {phase : Phase} (fits : phase.Fits c xs) {tx : TxId}
    (holds : (Course.of xs).tx = some tx) : phase.result? = none := by
  cases phase with
  | pending => rfl
  | running d program => rfl
  | finished result => exact absurd (fits.1.released.symm.trans holds) nofun

/-- What a call asks fits what it knows. -/
theorem allows {phase : Phase} (fits : phase.Fits c xs) {request : Request}
    (asks : phase.asks? = some request) : (Course.of xs).Allows request := by
  cases phase with
  | pending => cases asks
  | finished result => cases asks
  | running d program =>
    cases program with
    | ask asked next => cases asks; exact fits.1.1
    | askInTime asked next => cases asks; exact fits.1.1
    | _ => cases asks

end Phase.Fits

/-! ### Locks and requests that are not for locks -/

namespace Memory

variable {m after : Memory} {request : Request}

/-- After a request a live transaction holds what it held, nothing yet, or what the request has
made of it. -/
theorem tx?_perform (wf : m.WellFormed) {tx : TxId} {t' : Transaction}
    (held : (m.perform request).2.tx? tx = some t') :
    m.tx? tx = some t' ∨ t' = {} ∨
      ∃ t, m.tx? tx = some t ∧ request.tx? = some tx ∧ t.Becomes m.books request t' := by
  rcases ((m.perform_changes rfl).tx? wf).2 tx t' held with named | former | ⟨begins, rfl⟩
  · change (m.step (.request request)).tx? tx = some t' at held
    cases m.evolves_step (.request request) with
    | nothing _ live => exact .inl ((tx?_eq_of_live_eq live tx).symm.trans held)
    | begun same =>
      rw [same, tx?_perform_beginTx wf] at held
      split at held
      · cases held
        exact .inr (.inl rfl)
      · exact .inl held
    | changed asked same own t u live becomes _ now =>
      cases same
      rw [tx?_eq_of_live_eq now, tx?_setTx, live] at held
      split at held
      · rename_i equal
        subst equal
        cases held
        exact .inr (.inr ⟨t, live, named, becomes⟩)
      · exact .inl held
    | ended own _ now | committed own _ _ _ now =>
      rw [tx?_eq_of_live_eq now, tx?_endTx] at held
      split at held
      · cases held
      · exact .inl held
  · exact .inl former
  · subst begins
    rw [tx?_perform_beginTx wf, if_pos rfl] at held
    exact .inr (.inl (Option.some.inj held).symm)

/-- A transaction gets a lock only by asking for it. -/
theorem mem_locks_perform (wf : m.WellFormed) {tx : TxId} {t' : Transaction} {key : String}
    (held : (m.perform request).2.tx? tx = some t') (taken : key ∈ t'.locks) :
    (∃ t, m.tx? tx = some t ∧ key ∈ t.locks) ∨
      ∃ a, request = .lockAccount tx a ∧ a.lockKey = key := by
  rcases tx?_perform wf held with former | rfl | ⟨t, live, named, becomes⟩
  · exact .inl ⟨t', former, taken⟩
  · cases taken
  · cases becomes with
    | locked own a =>
      rcases List.mem_append.mp taken with old | new
      · exact .inl ⟨t, live, old⟩
      · cases named
        exact .inr ⟨a, rfl, (List.mem_singleton.mp new).symm⟩
    | _ => exact .inl ⟨t, live, taken⟩

/-- Only a lock is waited for. -/
theorem isLock_of_waiting (waits : (m.perform request).1 = none) : request.isLock = true := by
  by_contra other
  obtain ⟨answer, after, ran⟩ := m.perform_answers_of_not_isLock (eq_false_of_ne_true other)
  rw [ran] at waits
  cases waits

end Memory

/-! ### Who holds what -/

section

variable {ι : Type} {calls : ι → Call} {s : Traffic ι} {i : ι} {m after : Memory}
  {request : Request} {phase : Phase}

theorem Exchange.handles_concat (xs : List Exchange) (x : Exchange) :
    handles (xs ++ [x]) = handles xs ++ x.handle?.toList := by
  cases given : x.handle? <;> simp [handles, given]

/-- The handles of a call after an answer of the store. -/
theorem Exchange.handles_answered {answer : Except StoreError request.Answer}
    (ran : m.perform request = (some answer, after)) (xs : List Exchange) :
    handles (xs ++ [⟨request, some answer⟩]) =
      Agrees.owned (handles xs) m request .carriedOut := by
  rw [handles_concat]
  cases request with
  | beginTx =>
    cases ran
    rfl
  | _ =>
    rw [Agrees.owned_of_ne (by nofun)]
    exact List.append_nil _

/-- A handle that an answer brings is that of the transaction that the store starts next. -/
theorem Exchange.mem_handles_answered {answer : Except StoreError request.Answer}
    (ran : m.perform request = (some answer, after)) {xs : List Exchange} {tx : TxId}
    (given : tx ∈ handles (xs ++ [⟨request, some answer⟩])) :
    tx ∈ handles xs ∨ tx = ⟨m.started⟩ := by
  rw [handles_answered ran, Agrees.owned] at given
  split at given
  · exact (List.mem_append.mp given).imp_right List.mem_singleton.mp
  · exact .inl given

/-- The transactions of a call have locks only if the call asked for one. -/
def Exchange.Accounts (m : Memory) (xs : List Exchange) : Prop :=
  ∀ tx t, tx ∈ handles xs → m.tx? tx = some t → t.locks ≠ [] → lockRequests xs ≠ []

theorem Exchange.Accounts.answered {xs : List Exchange} (accounts : Accounts m xs)
    (wf : m.WellFormed) {answer : Except StoreError request.Answer}
    (ran : m.perform request = (some answer, after)) :
    Accounts after (xs ++ [⟨request, some answer⟩]) := by
  intro tx t own held taken
  rw [lockRequests_append]
  obtain ⟨key, member⟩ := List.exists_mem_of_ne_nil _ taken
  rw [← show (m.perform request).2 = after from congrArg Prod.snd ran] at held
  rcases Memory.mem_locks_perform wf held member with ⟨t', old, there⟩ | ⟨a, rfl, -⟩
  · have former : tx ∈ handles xs := by
      rcases mem_handles_answered ran own with former | rfl
      · exact former
      · rw [wf.tx?_next] at old
        cases old
    have asked := accounts tx t' former old (List.ne_nil_of_mem there)
    exact fun empty => asked (List.append_eq_nil_iff.mp empty).1
  · simp [lockRequests, Request.isLock]

/-- Each call is where its exchanges have brought it, and the store agrees with all of them: every
live transaction was started for one of the calls, and has locks only if that call asked for one. -/
structure Tracked (calls : ι → Call) (s : Traffic ι) : Prop where
  wellFormed : s.memory.WellFormed
  distinct : s.memory.Handles
  fits : ∀ i, (s.phases i).Fits (calls i) (s.exchanges i)
  agrees : ∀ i, Agrees s.memory (Exchange.handles (s.exchanges i)) (Course.of (s.exchanges i))
  owned : ∀ tx t, s.memory.tx? tx = some t → ∃ i, tx ∈ Exchange.handles (s.exchanges i)
  unshared : ∀ i j tx, tx ∈ Exchange.handles (s.exchanges i) →
    tx ∈ Exchange.handles (s.exchanges j) → i = j
  asked : ∀ i, Exchange.Accounts s.memory (s.exchanges i)

namespace Tracked

theorem start (rest : m.AtRest) : Tracked calls { memory := m } where
  wellFormed := rest.wellFormed
  distinct := by
    rw [Memory.Handles, rest.idle]
    exact List.nodup_nil
  fits _ := rfl
  agrees _ := {
    wellFormed := rest.wellFormed
    numbered := fun _ own => absurd own List.not_mem_nil
    released := fun _ own => absurd own List.not_mem_nil
    held := fun _ own => by cases own
    unstaged := fun _ => rfl
    known := fun _ listed => absurd listed List.not_mem_nil }
  owned tx t held := by
    rw [Memory.tx?, rest.idle] at held
    cases held
  unshared _ _ _ own := absurd own List.not_mem_nil
  asked _ _ _ own := absurd own List.not_mem_nil

/-- A call goes on without asking the store. -/
theorem still [DecidableEq ι] (tracked : Tracked calls s)
    (fits : phase.Fits (calls i) (s.exchanges i)) :
    Tracked calls { s with phases := Function.update s.phases i phase } where
  wellFormed := tracked.wellFormed
  distinct := tracked.distinct
  fits j := by
    by_cases own : j = i
    · subst own
      simpa only [Function.update_self] using fits
    · simpa only [Function.update_of_ne own] using tracked.fits j
  agrees := tracked.agrees
  owned := tracked.owned
  unshared := tracked.unshared
  asked := tracked.asked

/-- A request stays without an answer. -/
theorem waiting (tracked : Tracked calls s) (ran : s.memory.perform request = (none, after)) :
    Tracked calls { s with memory := after } := by
  obtain ⟨-, live⟩ := Memory.perform_unanswered ran
  have found := Memory.tx?_eq_of_live_eq live
  refine ⟨(Memory.perform_changes ran).wellFormed tracked.wellFormed, ?_, tracked.fits,
    fun i => (tracked.agrees i).waiting ran, ?_, tracked.unshared, ?_⟩
  · rw [Memory.Handles, live]
    exact tracked.distinct
  · exact fun tx t held => tracked.owned tx t (found tx ▸ held)
  · exact fun i tx t own held => tracked.asked i tx t own (found tx ▸ held)

/-- A call is given an answer. -/
theorem answered [DecidableEq ι] (tracked : Tracked calls s)
    {answer : Except StoreError request.Answer} (asks : (s.phases i).asks? = some request)
    (ran : s.memory.perform request = (some answer, after))
    (fits : phase.Fits (calls i) (s.exchanges i ++ [⟨request, some answer⟩])) :
    Tracked calls {
      memory := after
      phases := Function.update s.phases i phase
      exchanges := s.note i (some ⟨request, some answer⟩) } := by
  have changes := Memory.perform_changes ran
  have allowed := (tracked.fits i).allows asks
  have wf := tracked.wellFormed
  -- The request names no transaction of another call, and a new transaction is nobody's.
  have foreign : ∀ j, j ≠ i → ∀ tx ∈ Exchange.handles (s.exchanges j), request.tx? ≠ some tx := by
    intro j other tx own named
    have mine := ((tracked.agrees i).held tx (allowed.names tx named)).1
    exact other (tracked.unshared j i tx own mine)
  have old : ∀ j tx, tx ∈ Exchange.handles (s.exchanges j) → tx ≠ ⟨s.memory.started⟩ := by
    rintro j _ own rfl
    exact Nat.lt_irrefl _ ((tracked.agrees j).numbered _ own)
  have mine : s.note i (some ⟨request, some answer⟩) i =
      s.exchanges i ++ [⟨request, some answer⟩] := s.note_self i _
  have theirs : ∀ j, j ≠ i → s.note i (some ⟨request, some answer⟩) j = s.exchanges j :=
    fun j other => s.note_of_ne other _
  constructor
  case wellFormed => exact changes.wellFormed wf
  case distinct =>
    have kept := tracked.distinct.step wf (.request request)
    rw [Memory.step, ran] at kept
    exact kept
  case fits =>
    intro j
    by_cases same : j = i
    · subst same
      simpa only [mine, Function.update_self] using fits
    · simpa only [theirs j same, Function.update_of_ne same] using tracked.fits j
  case agrees =>
    intro j
    by_cases same : j = i
    · subst same
      have agrees := (tracked.agrees j).heard allowed ran
      rw [← Exchange.handles_answered ran] at agrees
      simpa only [mine, Course.of_concat] using agrees
    · simpa only [theirs j same] using (tracked.agrees j).other changes (foreign j same)
  case owned =>
    have grown : ∀ j, Exchange.handles (s.exchanges j) ⊆
        Exchange.handles (s.note i (some ⟨request, some answer⟩) j) := by
      intro j
      by_cases same : j = i
      · subst same
        rw [mine, Exchange.handles_concat]
        exact List.subset_append_left _ _
      · rw [theirs j same]
        exact List.Subset.refl _
    intro tx t held
    rcases (changes.tx? wf).2 tx t held with named | former | ⟨begins, rfl⟩
    · exact ⟨i, grown i ((tracked.agrees i).held tx (allowed.names tx named)).1⟩
    · obtain ⟨j, own⟩ := tracked.owned tx t former
      exact ⟨j, grown j own⟩
    · refine ⟨i, ?_⟩
      simp only [mine, Exchange.handles_answered ran, Agrees.owned]
      rw [if_pos ⟨begins, rfl⟩]
      exact List.mem_append_right _ (List.mem_singleton_self _)
  case unshared =>
    intro j k tx own own'
    by_cases first : j = i <;> by_cases second : k = i
    · exact first.trans second.symm
    · subst first
      simp only [mine] at own
      simp only [theirs k second] at own'
      rcases Exchange.mem_handles_answered ran own with former | begun
      · exact tracked.unshared j k tx former own'
      · exact absurd begun (old k tx own')
    · subst second
      simp only [mine] at own'
      simp only [theirs j first] at own
      rcases Exchange.mem_handles_answered ran own' with former | begun
      · exact tracked.unshared j k tx own former
      · exact absurd begun (old j tx own)
    · simp only [theirs j first] at own
      simp only [theirs k second] at own'
      exact tracked.unshared j k tx own own'
  case asked =>
    intro j
    by_cases same : j = i
    · subst same
      simpa only [mine] using (tracked.asked j).answered wf ran
    · intro tx t own held taken
      simp only [theirs j same] at own ⊢
      rcases (changes.tx? wf).2 tx t held with named | former | ⟨-, begun⟩
      · exact absurd named (foreign j same tx own)
      · exact tracked.asked j tx t own former taken
      · exact absurd begun (old j tx own)

/-- The timer runs out over what a call asks. -/
theorem timedOut [DecidableEq ι] (tracked : Tracked calls s) {d : Draws}
    {next : Option (Except StoreError request.Answer) → Program (Except LedgerError Entry)}
    (running : s.phases i = .running d (.askInTime request next)) :
    Tracked calls {
      memory := s.memory
      phases := Function.update s.phases i (.running d (next none))
      exchanges := s.note i (some ⟨request, none⟩) } := by
  have fits := tracked.fits i
  rw [running] at fits
  obtain ⟨⟨-, inside, follows⟩, exhibits⟩ := fits
  have silent : Exchange.handle? ⟨request, none⟩ = none := by cases request <;> rfl
  have handles : ∀ j, Exchange.handles (s.note i (some ⟨request, none⟩) j) =
      Exchange.handles (s.exchanges j) := by
    intro j
    by_cases same : j = i
    · subst same
      rw [s.note_self, Option.toList_some, Exchange.handles_concat, silent, Option.toList_none,
        List.append_nil]
    · rw [s.note_of_ne same]
  constructor
  case wellFormed => exact tracked.wellFormed
  case distinct => exact tracked.distinct
  case fits =>
    intro j
    by_cases same : j = i
    · subst same
      simp only [Function.update_self, s.note_self, Option.toList_some]
      refine ⟨?_, fun ys outcome rest => ?_⟩
      · rw [Course.of_concat]
        exact follows none
      · rw [List.append_assoc]
        exact exhibits _ outcome (.askInTime none rest)
    · simpa only [s.note_of_ne same, Function.update_of_ne same] using tracked.fits j
  case agrees =>
    intro j
    simp only [handles]
    by_cases same : j = i
    · subst same
      rw [s.note_self, Option.toList_some, Course.of_concat]
      exact (tracked.agrees j).unheard (show Reply.isFailure .overdue = true from rfl) inside
    · rw [s.note_of_ne same]
      exact tracked.agrees j
  case owned => simpa only [handles] using tracked.owned
  case unshared => simpa only [handles] using tracked.unshared
  case asked =>
    intro j tx t own held taken
    have asked := tracked.asked j tx t (handles j ▸ own) held taken
    by_cases same : j = i
    · subst same
      simp only [s.note_self]
      rw [Exchange.lockRequests_append]
      exact fun empty => asked (List.append_eq_nil_iff.mp empty).1
    · simpa only [s.note_of_ne same] using asked

/-- The turn of a call. -/
theorem turn [DecidableEq ι] (tracked : Tracked calls s) (i : ι) :
    Tracked calls (s.step calls (.turn i)) := by
  have fits := tracked.fits i
  unfold Traffic.step Concurrent.turn Phase.exchange?
  cases phase : s.phases i with
  | pending =>
    rw [phase] at fits
    have unbegun : s.exchanges i = [] := fits
    have begun : (Phase.running {} (calls i).program).Fits (calls i) (s.exchanges i) := by
      rw [unbegun]
      exact ⟨(calls i).follows_program, fun _ _ => id⟩
    simpa [phase, Phase.turn, Phase.asks?] using tracked.still begun
  | finished result =>
    rw [phase] at fits
    simpa [phase, Phase.turn, Phase.asks?] using tracked.still fits
  | running d program =>
    rw [phase] at fits
    obtain ⟨follows, exhibits⟩ := fits
    cases program with
    | done result =>
      have ended : (Phase.finished result).Fits (calls i) (s.exchanges i) := by
        have whole := exhibits [] (some result) (.done result)
        rw [List.append_nil] at whole
        exact ⟨follows, whole⟩
      simpa [phase, Phase.turn, Phase.asks?] using tracked.still ended
    | ask request next =>
      rcases ran : s.memory.perform request with ⟨_ | answer, after⟩
      · have same : Function.update s.phases i (.running d (.ask request next)) = s.phases := by
          rw [← phase, Function.update_eq_self]
        simpa [phase, Phase.turn, Phase.asks?, ran, same] using tracked.waiting ran
      · have goesOn : (Phase.running d (next answer)).Fits (calls i)
            (s.exchanges i ++ [⟨request, some answer⟩]) := by
          refine ⟨by rw [Course.of_concat]; exact follows.2 answer, fun ys outcome rest => ?_⟩
          rw [List.append_assoc]
          exact exhibits _ outcome (.ask answer rest)
        simpa [phase, Phase.turn, Phase.asks?, ran] using
          tracked.answered (by rw [phase]; rfl) ran goesOn
    | askInTime request next =>
      rcases ran : s.memory.perform request with ⟨_ | answer, after⟩
      · have same : Function.update s.phases i (.running d (.askInTime request next)) =
            s.phases := by
          rw [← phase, Function.update_eq_self]
        simpa [phase, Phase.turn, Phase.asks?, ran, same] using tracked.waiting ran
      · have goesOn : (Phase.running d (next (some answer))).Fits (calls i)
            (s.exchanges i ++ [⟨request, some answer⟩]) := by
          refine ⟨by rw [Course.of_concat]; exact follows.2.2 (some answer),
            fun ys outcome rest => ?_⟩
          rw [List.append_assoc]
          exact exhibits _ outcome (.askInTime (some answer) rest)
        simpa [phase, Phase.turn, Phase.asks?, ran] using
          tracked.answered (by rw [phase]; rfl) ran goesOn
    | startTimer limit next =>
      have goesOn : (Phase.running d next).Fits (calls i) (s.exchanges i) :=
        ⟨follows, fun ys outcome rest => exhibits ys outcome (.startTimer rest)⟩
      simpa [phase, Phase.turn, Phase.asks?] using tracked.still goesOn
    | clock next =>
      have goesOn : (Phase.running { d with clock := d.clock + 1 }
          (next ((calls i).source.clock d.clock))).Fits (calls i) (s.exchanges i) :=
        ⟨follows _, fun ys outcome rest => exhibits ys outcome (.clock _ rest)⟩
      simpa [phase, Phase.turn, Phase.asks?] using tracked.still goesOn
    | fresh next =>
      have goesOn : (Phase.running { d with fresh := d.fresh + 1 }
          (next ((calls i).source.fresh d.fresh))).Fits (calls i) (s.exchanges i) :=
        ⟨follows _, fun ys outcome rest => exhibits ys outcome (.fresh _ rest)⟩
      simpa [phase, Phase.turn, Phase.asks?] using tracked.still goesOn
    | random next =>
      have goesOn : (Phase.running { d with random := d.random + 1 }
          (next ((calls i).source.random d.random))).Fits (calls i) (s.exchanges i) :=
        ⟨follows _, fun ys outcome rest => exhibits ys outcome (.random _ rest)⟩
      simpa [phase, Phase.turn, Phase.asks?] using tracked.still goesOn
    | report signal next =>
      have goesOn : (Phase.running d next).Fits (calls i) (s.exchanges i) :=
        ⟨follows, fun ys outcome rest => exhibits ys outcome (.report rest)⟩
      simpa [phase, Phase.turn, Phase.asks?] using tracked.still goesOn

theorem step [DecidableEq ι] (tracked : Tracked calls s) (occurrence : Occurrence ι) :
    Tracked calls (s.step calls occurrence) := by
  cases occurrence with
  | turn i => exact tracked.turn i
  | timeout i =>
    simp only [Traffic.step]
    cases phase : s.phases i with
    | running d program =>
      cases program with
      | askInTime request next => exact tracked.timedOut phase
      | _ =>
        simp only [Phase.expire, Phase.abandoned?, s.note_none, ← phase, Function.update_eq_self]
        exact tracked
    | _ =>
      simp only [Phase.expire, Phase.abandoned?, s.note_none, ← phase, Function.update_eq_self]
      exact tracked

/-- However calls take turns on a store at rest, and whatever runs out of time. -/
theorem run [DecidableEq ι] (rest : m.AtRest) (occurrences : List (Occurrence ι)) :
    Tracked calls (Traffic.run calls m occurrences) :=
  List.foldlRecOn occurrences _ (start rest) fun _ tracked occurrence _ => tracked.step occurrence

/-! ### Waiting -/

/-- A call that waits has asked for no lock before. -/
theorem lockRequests_of_waits (tracked : Tracked calls s) (waits : s.Waits i) :
    Exchange.lockRequests (s.exchanges i) = [] := by
  obtain ⟨request, asks, unanswered⟩ := waits
  have lock := Memory.isLock_of_waiting unanswered
  have exhibits := (tracked.fits i).exhibits_asked asks
  have once := (calls i).lockRequests_le exhibits
  rw [Exchange.lockRequests_append, List.length_append] at once
  have this : (Exchange.lockRequests [⟨request, none⟩]).length = 1 := by
    simp [Exchange.lockRequests, lock]
  exact List.length_eq_zero_iff.mp (by omega)

/-- A call that has taken a lock does not wait, and it has not ended. -/
theorem holder_goesOn (tracked : Tracked calls s) {key : String} (holds : s.Holds i key) :
    s.Unfinished i ∧ ¬ s.Waits i := by
  obtain ⟨tx, own, taken⟩ := holds
  obtain ⟨t, held, member⟩ := tracked.distinct.holds_iff.mp taken
  have locked : t.locks ≠ [] := List.ne_nil_of_mem member
  constructor
  · have course : (Course.of (s.exchanges i)).tx = some tx := by
      by_contra other
      rw [(tracked.agrees i).released tx own other] at held
      cases held
    exact (tracked.fits i).running course
  · exact fun waits => tracked.asked i tx t own held locked (tracked.lockRequests_of_waits waits)

/-- Whoever waits, waits for a call that has taken the lock. -/
theorem exists_holder (tracked : Tracked calls s) (waits : s.Waits i) :
    ∃ j key, s.Holds j key := by
  obtain ⟨request, -, unanswered⟩ := waits
  cases request with
  | lockAccount tx a =>
    obtain ⟨holder, taken⟩ := Memory.exists_holds_of_waiting unanswered
    obtain ⟨t, held, -⟩ := tracked.distinct.holds_iff.mp taken
    obtain ⟨j, own⟩ := tracked.owned holder t held
    exact ⟨j, a.lockKey, holder, own, taken⟩
  | _ => cases Memory.isLock_of_waiting unanswered

end Tracked

end

/-! ### Going on -/

namespace Program

variable {α : Type}

/-- What may be left of a program after its first step. -/
inductive Continues : Program α → Program α → Prop where
  | ask {request : Request} {next : Except StoreError request.Answer → Program α}
    (answer : Except StoreError request.Answer) : Continues (next answer) (.ask request next)
  | askInTime {request : Request} {next : Option (Except StoreError request.Answer) → Program α}
    (answer : Option (Except StoreError request.Answer)) :
    Continues (next answer) (.askInTime request next)
  | startTimer {limit : Duration} {next : Program α} : Continues next (.startTimer limit next)
  | clock {next : Timestamp → Program α} (time : Timestamp) : Continues (next time) (.clock next)
  | fresh {next : Uuid → Program α} (id : Uuid) : Continues (next id) (.fresh next)
  | random {next : Except String RandomBytes → Program α} (bytes : Except String RandomBytes) :
    Continues (next bytes) (.random next)
  | report {signal : Signal} {next : Program α} : Continues next (.report signal next)

theorem wellFounded_continues : WellFounded (Continues (α := α)) := by
  refine ⟨fun program => ?_⟩
  induction program with
  | done value => exact ⟨_, nofun⟩
  | ask request next ih => exact ⟨_, fun _ left => by cases left; exact ih _⟩
  | askInTime request next ih => exact ⟨_, fun _ left => by cases left; exact ih _⟩
  | startTimer limit next ih => exact ⟨_, fun _ left => by cases left; exact ih⟩
  | clock next ih => exact ⟨_, fun _ left => by cases left; exact ih _⟩
  | fresh next ih => exact ⟨_, fun _ left => by cases left; exact ih _⟩
  | random next ih => exact ⟨_, fun _ left => by cases left; exact ih _⟩
  | report signal next ih => exact ⟨_, fun _ left => by cases left; exact ih⟩

/-- A program is never what is left of it. -/
theorem Continues.ne {rest program : Program α} (left : Continues rest program) :
    rest ≠ program := by
  rintro rfl
  exact wellFounded_continues.irrefl.irrefl _ left

end Program

/-- The turn of a call that has not ended and does not wait brings it on. -/
theorem Phase.turn_ne (c : Call) {m : Memory} {phase : Phase} (unfinished : phase.result? = none)
    (free : ¬ phase.Waits m) : (phase.turn c m).1 ≠ phase := by
  cases phase with
  | pending => nofun
  | finished result => cases unfinished
  | running d program =>
    cases program with
    | done result => nofun
    | ask request next =>
      rcases ran : m.perform request with ⟨_ | answer, after⟩
      · exact absurd ⟨request, rfl, congrArg Prod.fst ran⟩ free
      · simp only [turn, ran]
        exact fun same => (Program.Continues.ask answer).ne (running.inj same).2
    | askInTime request next =>
      rcases ran : m.perform request with ⟨_ | answer, after⟩
      · exact absurd ⟨request, rfl, congrArg Prod.fst ran⟩ free
      · simp only [turn, ran]
        exact fun same => (Program.Continues.askInTime _).ne (running.inj same).2
    | startTimer limit next =>
      exact fun same => Program.Continues.startTimer.ne (running.inj same).2
    | clock next => exact fun same => (Program.Continues.clock _).ne (running.inj same).2
    | fresh next => exact fun same => (Program.Continues.fresh _).ne (running.inj same).2
    | random next => exact fun same => (Program.Continues.random _).ne (running.inj same).2
    | report signal next => exact fun same => Program.Continues.report.ne (running.inj same).2

namespace Traffic

variable {ι : Type} [DecidableEq ι] {calls : ι → Call} {s : Traffic ι}

/-- The calls do not hold each other up. -/
structure Flows (calls : ι → Call) (s : Traffic ι) : Prop where
  /-- While a call has not ended, one of those that have not goes on at its turn. -/
  goesOn : (∃ i, s.Unfinished i) →
    ∃ i, s.Unfinished i ∧ (s.step calls (.turn i)).phases i ≠ s.phases i
  /-- A call that waits holds no lock. -/
  emptyHanded : ∀ i, s.Waits i → ∀ key, ¬ s.Holds i key
  /-- A call that has ended holds no lock. -/
  released : ∀ i key, s.Holds i key → s.Unfinished i
  /-- No call asks for a second lock. -/
  once : ∀ i, (Exchange.lockRequests (s.exchanges i)).length ≤ 1

theorem step_turn_ne {i : ι} (unfinished : s.Unfinished i) (free : ¬ s.Waits i) :
    (s.step calls (.turn i)).phases i ≠ s.phases i := by
  simp only [step, Concurrent.turn, Function.update_self]
  exact Phase.turn_ne (calls i) unfinished free

/-- Calls never come to a standstill: however they take turns on one store and whichever of their
timers run out, each asks for one lock in all, and waits for it with empty hands. -/
theorem never_stuck (calls : ι → Call) {m : Memory} (rest : m.AtRest)
    (occurrences : List (Occurrence ι)) : (run calls m occurrences).Flows calls := by
  have tracked : Tracked calls (run calls m occurrences) := .run rest occurrences
  refine ⟨?_, ?_, ?_, fun i => (tracked.fits i).lockRequests_le⟩
  · rintro ⟨i, unfinished⟩
    by_cases waits : (run calls m occurrences).Waits i
    · obtain ⟨j, key, holds⟩ := tracked.exists_holder waits
      obtain ⟨unfinished, free⟩ := tracked.holder_goesOn holds
      exact ⟨j, unfinished, step_turn_ne unfinished free⟩
    · exact ⟨i, unfinished, step_turn_ne unfinished waits⟩
  · exact fun i waits key holds => (tracked.holder_goesOn holds).2 waits
  · exact fun i key holds => (tracked.holder_goesOn holds).1

/-- The second call waits for the lock that the first has taken. -/
theorem never_stuck_second_waits :
    let calls (i : Fin 2) := Call.numbered i (.add
      ⟨"acme", "ann", .credit, ⟨10, by decide⟩, if i = 0 then "first" else "second", "", []⟩)
    let occurrences := List.replicate 7 (.turn 0) ++ List.replicate 9 (.turn 1)
    let s := run calls {} occurrences
    Memory.AtRest {} ∧ (s.phases 1).asks?.isSome = true ∧
      (s.phases 1).exchange? s.memory = none ∧ s.Flows calls := by
  intro calls occurrences s
  exact ⟨Memory.atRest_empty, by decide +kernel, Option.isNone_iff_eq_none.mp (by decide +kernel),
    never_stuck calls Memory.atRest_empty occurrences⟩

end Traffic

end PointLedger
