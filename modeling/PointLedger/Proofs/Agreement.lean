import PointLedger.Proofs.Course
import PointLedger.Proofs.Interleaving
import PointLedger.Proofs.Trial

/-!
A store and the course of a call agree when, of the transactions of the call, just the one that the
call holds is live, with all that the call has staged there, and when what the call knows to be
committed is. They go on agreeing whatever becomes of a request of the call, whatever others ask,
and when the call is dropped.
-/

namespace PointLedger

namespace Memory

/-! ### Requests in a live transaction -/

/-- A transaction that creates an entry has it staged. -/
theorem createEntry_eq_ok {t t' : Transaction} {b : Books} {e : Entry}
    (created : t.createEntry b e = .ok t') : t' = { t with entries := t.entries ++ [e] } := by
  simp only [Transaction.createEntry, Transaction.ensureLocked, pure_eq_ok, throw_eq_error]
    at created
  repeat' split at created
  all_goals cases created
  rfl

private theorem stage_inside {m after : Memory} {tx : TxId} {u : Transaction}
    {write : Transaction → Except StoreError Transaction} {answer : Option (Except StoreError Unit)}
    (held : m.tx? tx = some u) (keeps : ∀ u', write u = .ok u' → u.entries <+: u'.entries)
    (ran : m.stage tx write = (answer, after)) :
    after.books = m.books ∧ ∃ u', after.tx? tx = some u' ∧ u.entries <+: u'.entries := by
  simp only [stage, held] at ran
  split at ran
  · cases ran
    exact ⟨rfl, u, held, List.prefix_rfl⟩
  · rename_i u' written
    cases ran
    exact ⟨rfl, u', by rw [tx?_setTx, if_pos rfl, held]; rfl, keeps u' written⟩

/-- A request in a live transaction that does not end it leaves the books alone and keeps what the
transaction has staged. -/
theorem perform_inside {m after : Memory} {tx : TxId} {u : Transaction} {request : Request}
    {answer : Option (Except StoreError request.Answer)} (held : m.tx? tx = some u)
    (named : request.tx? = some tx) (inside : request.endsTx = false)
    (ran : m.perform request = (answer, after)) :
    after.books = m.books ∧ ∃ u', after.tx? tx = some u' ∧ u.entries <+: u'.entries := by
  cases request with
  | beginTx | findEntries _ | countEntries _ | findEntry _ | findPools _ | findBalance _ =>
    cases named
  | commit _ | rollback _ => cases inside
  | findEntryIn _ _ | lastEntry _ _ | openPools _ _ | balanceForUpdate _ _ =>
    cases named
    simp only [perform, readIn, held] at ran
    cases ran
    exact ⟨rfl, u, held, List.prefix_rfl⟩
  | lockAccount _ account =>
    cases named
    simp only [perform, lock, held] at ran
    repeat' split at ran
    all_goals cases ran
    · exact ⟨rfl, u, held, List.prefix_rfl⟩
    · exact ⟨by simp, u, (tx?_eq_of_live_eq (by simp) tx).trans held, List.prefix_rfl⟩
    · exact ⟨by simp [setTx], { u with locks := u.locks ++ [account.lockKey] }, by
        rw [tx?_setTx, if_pos rfl, tx?_eq_of_live_eq (live_knowLock m _), held]; rfl,
        List.prefix_rfl⟩
  | createEntry _ e =>
    cases named
    refine stage_inside held (fun u' created => ?_) ran
    rw [createEntry_eq_ok created]
    exact List.prefix_append _ _
  | createPool _ p | updatePool _ p | createBalance _ p | updateBalance _ p =>
    cases named
    refine stage_inside held (fun u' written => ?_) ran
    simp only [Transaction.createPool, Transaction.updatePool, Transaction.createBalance,
      Transaction.updateBalance, Transaction.ensureLocked, pure_eq_ok, throw_eq_error] at written
    repeat' split at written
    all_goals cases written
    all_goals exact List.prefix_rfl

/-- After it has been created in a transaction, an entry is staged there. -/
theorem perform_createEntry_ok {m after : Memory} {tx : TxId} {e : Entry} {u : Transaction}
    {done : Unit} (ran : m.perform (.createEntry tx e) = (some (.ok done), after))
    (live : after.tx? tx = some u) : e ∈ u.entries := by
  simp only [perform, stage] at ran
  split at ran
  · cases ran
  · rename_i u₀ held
    split at ran
    · cases ran
    · rename_i u' created
      cases ran
      rw [tx?_setTx, if_pos rfl, held, createEntry_eq_ok created] at live
      cases live
      exact List.mem_append_right _ (List.mem_singleton_self e)

/-- After a commit that went through, what was staged is committed. -/
theorem perform_commit_ok {m after : Memory} {tx : TxId} {u : Transaction} {done : Unit}
    (live : m.tx? tx = some u) (ran : m.perform (.commit tx) = (some (.ok done), after)) :
    ∀ e ∈ u.entries, e ∈ after.books.entries := by
  intro e member
  simp only [perform, live] at ran
  split at ran
  · cases ran
  · rename_i books committed
    cases ran
    obtain ⟨-, -, -, grown⟩ := Books.commit_eq_ok committed
    rw [grown]
    exact List.mem_append_right _ member

/-! ### Requests of all kinds -/

/-- Committed entries stay. -/
theorem Changes.entries {m after : Memory} {request : Request} (changes : m.Changes request after) :
    m.books.entries <+: after.books.entries := by
  rcases changes.books with same | ⟨tx, t, -, -, committed⟩
  · exact same ▸ List.prefix_rfl
  · obtain ⟨-, -, -, grown⟩ := Books.commit_eq_ok committed
    rw [grown]
    exact List.prefix_append _ _

theorem Changes.started_le {m after : Memory} {request : Request}
    (changes : m.Changes request after) : m.started ≤ after.started := by
  cases changes with
  | nothing _ _ started => omega
  | begun _ _ _ started => omega
  | rewritten _ _ _ _ _ _ _ _ started => omega
  | ended _ _ _ started => omega

/-! ### Ending several transactions -/

theorem tx?_foldl_endTx (own : List TxId) (m : Memory) (tx : TxId) :
    (own.foldl endTx m).tx? tx = if tx ∈ own then none else m.tx? tx := by
  induction own generalizing m with
  | nil => simp
  | cons first rest ih =>
    rw [List.foldl_cons, ih, tx?_endTx]
    by_cases later : tx ∈ rest <;> by_cases now : tx = first <;> simp [later, now]

theorem books_foldl_endTx (own : List TxId) (m : Memory) :
    (own.foldl endTx m).books = m.books := by
  induction own generalizing m with
  | nil => rfl
  | cons first rest ih => exact ih (m.endTx first)

theorem started_foldl_endTx (own : List TxId) (m : Memory) :
    (own.foldl endTx m).started = m.started := by
  induction own generalizing m with
  | nil => rfl
  | cons first rest ih => exact ih (m.endTx first)

theorem WellFormed.foldl_endTx {m : Memory} (wf : m.WellFormed) (own : List TxId) :
    (own.foldl endTx m).WellFormed := by
  induction own generalizing m with
  | nil => exact wf
  | cons first rest ih => exact ih ((m.changes_endTx first).wellFormed wf)

end Memory

/-! ### The store and the course -/

/-- The store agrees with what the call knows: of the transactions of the call only the one that it
holds is live, with all that the call has staged there, and what it knows to be committed is. -/
structure Agrees (m : Memory) (own : List TxId) (s : Course) : Prop where
  wellFormed : m.WellFormed
  numbered : ∀ tx ∈ own, tx.number < m.started
  released : ∀ tx ∈ own, s.tx ≠ some tx → m.tx? tx = none
  held : ∀ tx, s.tx = some tx →
    tx ∈ own ∧ ∃ u, m.tx? tx = some u ∧ ∀ e ∈ s.staged, e ∈ u.entries
  unstaged : s.tx = none → s.staged = []
  known : ∀ e ∈ s.known, e ∈ m.books.entries

namespace Agrees

variable {m after : Memory} {own : List TxId} {s s' : Course} {request : Request}

theorem numbered_after (agrees : Agrees m own s) (changes : m.Changes request after) :
    ∀ tx ∈ own, tx.number < after.started := fun tx member =>
  Nat.lt_of_lt_of_le (agrees.numbered tx member) changes.started_le

/-- A request that names no transaction of the call but the one that it holds revives none. -/
theorem released_after (agrees : Agrees m own s) (changes : m.Changes request after)
    (allowed : ∀ tx ∈ own, request.tx? = some tx → s.tx = some tx) :
    ∀ tx ∈ own, s.tx ≠ some tx → after.tx? tx = none := by
  intro tx member other
  cases found : after.tx? tx with
  | none => rfl
  | some t =>
    rcases (changes.tx? agrees.wellFormed).2 tx t found with named | old | ⟨-, new⟩
    · exact absurd (allowed tx member named) other
    · rw [agrees.released tx member other] at old
      cases old
    · have numbered := agrees.numbered tx member
      rw [new] at numbered
      exact absurd numbered (Nat.lt_irrefl _)

theorem known_after (agrees : Agrees m own s) (changes : m.Changes request after) :
    ∀ e ∈ s.known, e ∈ after.books.entries := fun e member =>
  changes.entries.subset (agrees.known e member)

/-- A request of others, who name no transaction of the call. -/
theorem other (agrees : Agrees m own s) (changes : m.Changes request after)
    (foreign : ∀ tx ∈ own, request.tx? ≠ some tx) : Agrees after own s where
  wellFormed := changes.wellFormed agrees.wellFormed
  numbered := agrees.numbered_after changes
  released := agrees.released_after changes fun tx member named =>
    absurd named (foreign tx member)
  held tx holds := by
    obtain ⟨member, u, live, staged⟩ := agrees.held tx holds
    exact ⟨member, u, (changes.tx? agrees.wellFormed).1 tx u live (foreign tx member), staged⟩
  unstaged := agrees.unstaged
  known := agrees.known_after changes

/-- A request in the call's transaction that does not end it. -/
theorem inside (agrees : Agrees m own s) (allowed : s.Allows request) {tx : TxId}
    (named : request.tx? = some tx) (inside : request.endsTx = false)
    {answer : Option (Except StoreError request.Answer)}
    (ran : m.perform request = (answer, after)) : Agrees after own s := by
  have changes := Memory.perform_changes ran
  have own := allowed.names tx named
  obtain ⟨member, u, live, staged⟩ := agrees.held tx own
  obtain ⟨-, u', live', grown⟩ := Memory.perform_inside live named inside ran
  refine ⟨changes.wellFormed agrees.wellFormed, agrees.numbered_after changes,
    agrees.released_after changes fun tx _ named => allowed.names tx named, ?_,
    agrees.unstaged, agrees.known_after changes⟩
  intro tx' own'
  obtain rfl : tx = tx' := Option.some.inj (own.symm.trans own')
  exact ⟨member, u', live', fun e listed => grown.subset (staged e listed)⟩

/-- The transaction of the call ends. -/
theorem ended (agrees : Agrees m own s) (changes : m.Changes request after) {tx : TxId}
    (holds : s.tx = some tx) (named : request.tx? = some tx) (gone : after.tx? tx = none) :
    Agrees after own { s with tx := none, staged := [] } where
  wellFormed := changes.wellFormed agrees.wellFormed
  numbered := agrees.numbered_after changes
  released tx' member _ := by
    by_cases same : tx' = tx
    · exact same ▸ gone
    · refine agrees.released_after changes (fun other _ mine => ?_) tx' member ?_
      · exact holds.trans (named.symm.trans mine)
      · rw [holds]
        exact fun equal => same (Option.some.inj equal).symm
  held _ none := by cases none
  unstaged _ := rfl
  known := agrees.known_after changes

/-- A request that waits. -/
theorem waiting (agrees : Agrees m own s) (ran : m.perform request = (none, after)) :
    Agrees after own s := by
  have changes := Memory.perform_changes ran
  obtain ⟨books, live⟩ := Memory.perform_unanswered ran
  have same := Memory.tx?_eq_of_live_eq live
  exact {
    wellFormed := changes.wellFormed agrees.wellFormed
    numbered := agrees.numbered_after changes
    released := fun tx member other => (same tx).trans (agrees.released tx member other)
    held := fun tx holds => by rw [same]; exact agrees.held tx holds
    unstaged := agrees.unstaged
    known := agrees.known_after changes }

/-- The call starts a transaction. -/
theorem begun (agrees : Agrees m own s) (free : s.tx = none) :
    Agrees (m.perform .beginTx).2 (own ++ [⟨m.started⟩]) { s with tx := some ⟨m.started⟩ } := by
  have changes : m.Changes .beginTx (m.perform .beginTx).2 := Memory.perform_changes rfl
  have found := Memory.tx?_perform_beginTx agrees.wellFormed
  refine ⟨changes.wellFormed agrees.wellFormed, ?_, ?_, ?_, nofun, agrees.known_after changes⟩
  · intro tx member
    rcases List.mem_append.mp member with old | new
    · exact agrees.numbered_after changes tx old
    · rw [List.mem_singleton.mp new]
      exact Nat.lt_succ_self _
  · intro tx member other
    rcases List.mem_append.mp member with old | new
    · exact agrees.released_after changes (fun _ _ named => by cases named) tx old
        (by rw [free]; nofun)
    · exact absurd (congrArg some (List.mem_singleton.mp new).symm) other
  · intro tx holds
    obtain rfl := Option.some.inj holds
    refine ⟨by simp, {}, by rw [found, if_pos rfl], fun e member => ?_⟩
    have empty : s.staged = [] := agrees.unstaged free
    rw [show s.staged = [] from empty] at member
    cases member

/-- A transaction is started for the call, which never hears of it. -/
theorem begunInVain (agrees : Agrees m own s) (free : s.tx = none) :
    Agrees ((m.perform .beginTx).2.endTx ⟨m.started⟩) (own ++ [⟨m.started⟩]) s := by
  have ended := (agrees.begun free).ended (Memory.changes_endTx _ ⟨m.started⟩) rfl rfl
    (by rw [Memory.tx?_endTx, if_pos rfl])
  exact {
    wellFormed := ended.wellFormed
    numbered := ended.numbered
    released := fun tx member _ => ended.released tx member nofun
    held := fun tx holds => by rw [free] at holds; cases holds
    unstaged := agrees.unstaged
    known := ended.known }

/-- A request that ends no transaction. -/
theorem carried (agrees : Agrees m own s) (allowed : s.Allows request)
    (inside : request.endsTx = false)
    {answer : Option (Except StoreError request.Answer)}
    (ran : m.perform request = (answer, after)) : Agrees after own s := by
  cases named : request.tx? with
  | some tx => exact agrees.inside allowed named inside ran
  | none =>
    exact agrees.other (Memory.perform_changes ran) fun tx _ => by rw [named]; nofun

/-- A request that ends the transaction of the call, whether it is carried out or not. -/
theorem closing (agrees : Agrees m own s) (allowed : s.Allows request)
    (ends : request.endsTx = true) :
    Agrees (m.perform request).2 own { s with tx := none, staged := [] } ∧
      Agrees (m.dropNamed request) own { s with tx := none, staged := [] } := by
  obtain ⟨tx, asked⟩ : ∃ tx, request = .commit tx ∨ request = .rollback tx := by
    cases request with
    | commit tx => exact ⟨tx, .inl rfl⟩
    | rollback tx => exact ⟨tx, .inr rfl⟩
    | _ => cases ends
  have holds : s.tx = some tx := by rcases asked with rfl | rfl <;> exact allowed.names tx rfl
  obtain ⟨-, u, live, -⟩ := agrees.held tx holds
  have gone : (m.endTx tx).tx? tx = none := by rw [Memory.tx?_endTx, if_pos rfl]
  have dropped := agrees.ended (Memory.changes_endTx m tx) holds rfl gone
  rcases asked with rfl | rfl
  · have changes : m.Changes (.commit tx) (m.perform (.commit tx)).2 := Memory.perform_changes rfl
    refine ⟨agrees.ended changes holds rfl ?_, dropped⟩
    simp only [Memory.perform, live]
    split <;> exact gone
  · have changes : m.Changes (.rollback tx) (m.perform (.rollback tx)).2 :=
      Memory.perform_changes rfl
    refine ⟨agrees.ended changes holds rfl ?_, dropped⟩
    simp only [Memory.perform, live]
    exact gone

/-- The call is dropped. -/
theorem dropped (agrees : Agrees m own s) :
    Agrees (own.foldl Memory.endTx m) own { s with tx := none, staged := [] } where
  wellFormed := agrees.wellFormed.foldl_endTx own
  numbered := by
    rw [Memory.started_foldl_endTx]
    exact agrees.numbered
  released tx member _ := by rw [Memory.tx?_foldl_endTx, if_pos member]
  held _ none := by cases none
  unstaged _ := rfl
  known := by
    rw [Memory.books_foldl_endTx]
    exact agrees.known

theorem congr (agrees : Agrees m own s) (tx : s'.tx = s.tx) (staged : s'.staged = s.staged)
    (known : s'.known = s.known) : Agrees m own s' where
  wellFormed := agrees.wellFormed
  numbered := agrees.numbered
  released := tx ▸ agrees.released
  held := by
    rw [tx, staged]
    exact agrees.held
  unstaged := by
    rw [tx, staged]
    exact agrees.unstaged
  known := known ▸ agrees.known

end Agrees

namespace Course

/-- What the call knows after a reply. -/
def hear (s : Course) {request : Request} : Reply request → Course
  | .waiting => s
  | .answered answer => s.after request (some answer)
  | .overdue => s.after request none

/-- Without success the call learns nothing of its transaction and of the books. -/
theorem hear_failure (s : Course) {request : Request} {reply : Reply request}
    (failed : reply.isFailure = true) (inside : request.endsTx = false) :
    (s.hear reply).tx = s.tx ∧ (s.hear reply).staged = s.staged ∧
      (s.hear reply).known = s.known := by
  rcases reply with _ | (error | value) | _
  · cases failed
  · cases request <;> first | exact ⟨rfl, rfl, rfl⟩ | cases inside
  · cases failed
  · cases request <;> first | exact ⟨rfl, rfl, rfl⟩ | cases inside

/-- A request that ends the transaction ends it even if it fails. -/
theorem hear_failure_of_endsTx (s : Course) {request : Request} {reply : Reply request}
    (failed : reply.isFailure = true) (ends : request.endsTx = true) :
    (s.hear reply).tx = none ∧ (s.hear reply).staged = [] ∧ (s.hear reply).known = s.known := by
  rcases reply with _ | (error | value) | _
  · cases failed
  · cases request <;> first | exact ⟨rfl, rfl, rfl⟩ | cases ends
  · cases failed
  · cases request <;> first | exact ⟨rfl, rfl, rfl⟩ | cases ends

end Course

namespace Agrees

variable {m after : Memory} {own : List TxId} {s : Course} {request : Request} {conduct : Conduct}
  {reply : Reply request}

/-- The transactions of the call after a request. -/
def owned (own : List TxId) (m : Memory) (request : Request) (conduct : Conduct) : List TxId :=
  if request = .beginTx ∧ conduct.reaches then own ++ [⟨m.started⟩] else own

/-- An answer that is the store's own. -/
theorem heard (agrees : Agrees m own s) (allowed : s.Allows request)
    {answer : Except StoreError request.Answer} (ran : m.perform request = (some answer, after)) :
    Agrees after (owned own m request .carriedOut) (s.after request (some answer)) := by
  cases request with
  | beginTx =>
    cases ran
    exact agrees.begun (allowed.starts rfl)
  | commit tx =>
    obtain ⟨closed, -⟩ := agrees.closing allowed rfl
    rw [ran] at closed
    rcases answer with error | done
    · exact closed.congr rfl rfl rfl
    · refine ⟨closed.wellFormed, closed.numbered, closed.released, closed.held, closed.unstaged, ?_⟩
      intro e member
      rcases List.mem_append.mp member with old | new
      · exact closed.known e old
      · obtain ⟨-, u, live, staged⟩ := agrees.held tx (allowed.names tx rfl)
        exact Memory.perform_commit_ok live ran e (staged e new)
  | rollback tx =>
    obtain ⟨closed, -⟩ := agrees.closing allowed rfl
    rw [ran] at closed
    exact closed.congr rfl rfl rfl
  | createEntry tx e =>
    have carried := agrees.carried allowed rfl ran
    rcases answer with error | done
    · exact carried
    · refine ⟨carried.wellFormed, carried.numbered, carried.released, fun tx' holds => ?_,
        fun none => ?_, carried.known⟩
      · obtain rfl : tx = tx' := Option.some.inj ((allowed.names tx rfl).symm.trans holds)
        obtain ⟨member, u', live', staged⟩ := carried.held tx holds
        refine ⟨member, u', live', fun e' listed => ?_⟩
        rcases List.mem_append.mp listed with old | new
        · exact staged e' old
        · rw [List.mem_singleton.mp new]
          exact Memory.perform_createEntry_ok ran live'
      · have holds : s.tx = some tx := allowed.names tx rfl
        rw [show s.tx = _ from none] at holds
        cases holds
  | findEntry lookup =>
    cases ran
    cases found : m.books.findEntry lookup with
    | none =>
      simp only [Pure.pure, Except.pure]
      exact agrees.congr rfl rfl rfl
    | some e =>
      simp only [Pure.pure, Except.pure]
      refine ⟨agrees.wellFormed, agrees.numbered, agrees.released, agrees.held, agrees.unstaged, ?_⟩
      intro e' member
      rcases List.mem_append.mp member with old | new
      · exact agrees.known e' old
      · rw [List.mem_singleton.mp new]
        exact List.mem_of_find?_eq_some found
  | _ => exact agrees.carried allowed rfl ran

/-- An answer that is no success leaves the call with what it knew. -/
theorem unheard (agrees : Agrees m own s) (fails : reply.isFailure = true)
    (inside : request.endsTx = false) : Agrees m own (s.hear reply) := by
  obtain ⟨tx, staged, known⟩ := s.hear_failure fails inside
  exact agrees.congr tx staged known

theorem unheard_of_endsTx (agrees : Agrees m own { s with tx := none, staged := [] })
    (fails : reply.isFailure = true) (ends : request.endsTx = true) :
    Agrees m own (s.hear reply) := by
  obtain ⟨tx, staged, known⟩ := s.hear_failure_of_endsTx fails ends
  exact agrees.congr tx staged known

theorem owned_of_ne {request : Request} (other : request ≠ .beginTx) (own : List TxId) (m : Memory)
    (conduct : Conduct) : owned own m request conduct = own :=
  if_neg fun both => other both.1

theorem owned_of_unreached (unreached : conduct.reaches = false) (own : List TxId) (m : Memory)
    (request : Request) : owned own m request conduct = own :=
  if_neg fun both => by simp [unreached] at both

/-- Whatever becomes of a request, the store and the call agree afterwards. -/
theorem meets (agrees : Agrees m own s) (allowed : s.Allows request)
    (meets : m.Meets request conduct reply after)
    (timely : reply = .overdue → request.endsTx = false) :
    Agrees after (owned own m request conduct) (s.hear reply) := by
  cases meets with
  | heard answer after how ran =>
    subst how
    exact agrees.heard allowed ran
  | waits after ran =>
    have other : request ≠ .beginTx := by
      rintro rfl
      cases ran
    rw [owned_of_ne other]
    exact agrees.waiting ran
  | lost reply answer after how reaches fails ran =>
    by_cases begins : request = .beginTx
    · subst begins
      cases ran
      rw [owned, if_pos ⟨rfl, reaches⟩]
      exact (agrees.begunInVain (allowed.starts rfl)).unheard fails rfl
    · rw [owned_of_ne begins, World.dropStarted_of_ne begins]
      cases ends : request.endsTx with
      | false => exact (agrees.carried allowed ends ran).unheard fails ends
      | true =>
        obtain ⟨closed, -⟩ := agrees.closing allowed ends
        rw [ran] at closed
        exact closed.unheard_of_endsTx fails ends
  | refused error how =>
    rw [owned_of_unreached (by rw [how]; rfl)]
    cases ends : request.endsTx with
    | false =>
      rw [Memory.dropNamed_of_inside ends]
      exact agrees.unheard rfl ends
    | true =>
      obtain ⟨-, closed⟩ := agrees.closing allowed ends
      exact closed.unheard_of_endsTx rfl ends
  | late how =>
    rw [owned_of_unreached (by rw [how]; rfl)]
    exact agrees.unheard rfl (timely rfl)

end Agrees

end PointLedger
