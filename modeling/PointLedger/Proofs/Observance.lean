import PointLedger.Proofs.Isolation
import PointLedger.Proofs.RowUpdates

/-!
What a call observes in every request that it makes, whatever other calls do in between. Others
leave its transaction alone and the rows of the accounts that it has locked, and put no row into the
books that has an identifier of its own. `Program.Observes` states the condition for the rest of a
program from any point on; in calls that take turns it holds at every turn.
-/

namespace PointLedger

/-- No committed row has an identifier that the call draws. -/
structure Books.Unused (b : Books) (c : Call) : Prop where
  entries : ∀ e ∈ b.entries, e.id ≠ c.entryId
  pools : ∀ p ∈ b.pools, p.id ≠ c.poolId
  balances : ∀ row ∈ b.balances, row.id ≠ c.balanceId

theorem Books.unused_empty (c : Call) : Books.Unused {} c where
  entries _ member := (List.not_mem_nil member).elim
  pools _ member := (List.not_mem_nil member).elim
  balances _ member := (List.not_mem_nil member).elim

/-- What the writes of a call for a new entry are told apart by. -/
structure Stamped (c : Call) (v : AccountRows) (e : Entry) (t : Transaction) : Prop where
  entries : t.entries = [e]
  entryId : e.id = c.entryId
  poolId : ∀ p ∈ t.newPools, p.id = c.poolId
  /-- The balance row is the one that was there, or it is new. -/
  balance : ∃ row, t.newBalances ++ t.balanceUpdates = [row] ∧
    ((∃ old, v.balance = some old ∧ old.OnlyMoved row) ∨
      v.balance = none ∧ row.id = c.balanceId ∧ row.account = e.account)

theorem Balance.onlyMoved_of_apply {row row' : Balance} {delta : Amount} {time : Timestamp}
    (applied : row.apply delta time = .ok row') : row.OnlyMoved row' := by
  obtain ⟨-, changed⟩ := Balance.apply_eq_ok applied
  rw [changed]
  rfl

namespace AccountRows

variable {v : AccountRows} {c : Call} {transactionId : String} {e : Entry} {t : Transaction}

theorem stamped_of_addPlan {hasPool : Bool} {r : EntryRequest}
    (plan : v.addPlan hasPool r c transactionId = .ok (e, t)) : Stamped c v e t := by
  unfold addPlan at plan
  cases kind : r.kind with
  | credit =>
    simp only [kind] at plan
    obtain ⟨-, rfl, ⟨row, row', present, applied, rfl⟩ | ⟨absent, rfl⟩⟩ := creditPlan_eq_ok plan
    · exact ⟨rfl, rfl, by simp [CreditPool.opened], row', rfl,
        .inl ⟨row, present, Balance.onlyMoved_of_apply applied⟩⟩
    · exact ⟨rfl, rfl, by simp [CreditPool.opened], _, rfl, .inr ⟨absent, rfl, rfl⟩⟩
  | debit =>
    simp only [kind] at plan
    obtain ⟨allocations, row, row', present, -, rfl, applied, rfl⟩ := debitPlan_eq_ok plan
    exact ⟨rfl, rfl, by simp, row', rfl, .inl ⟨row, present, Balance.onlyMoved_of_apply applied⟩⟩

theorem stamped_of_revertPlan {reverted : Entry}
    (plan : v.revertPlan reverted c transactionId = .ok (e, t)) : Stamped c v e t := by
  obtain ⟨row, row', present, rfl, applied, rfl⟩ := revertPlan_eq_ok plan
  exact ⟨rfl, rfl, by simp, row', rfl, .inl ⟨row, present, Balance.onlyMoved_of_apply applied⟩⟩

end AccountRows

namespace Books

variable {b after : Books} {c c' : Call} {result : Entry}

/-- A call that succeeds commits writes that bear its own identifiers. -/
theorem stamped_of_post (posted : b.post c = .ok (result, after)) :
    ∃ e t, Stamped c (b.rows e.account) e t ∧ b.commit t = .ok after := by
  obtain ⟨transactionId, -, ⟨r, t, -, -, plan, committed⟩ | ⟨id, e, t, -, -, plan, committed⟩⟩ :=
    post_eq_ok posted
  · have account : result.account = r.account :=
      (r.job_proper c transactionId _ _ result t plan).2.1
    exact ⟨result, t, account ▸ AccountRows.stamped_of_addPlan plan, committed⟩
  · have account : e.account = result.account :=
      (result.revertJob_proper c transactionId _ false e t plan).2.1
    exact ⟨e, t, account ▸ AccountRows.stamped_of_revertPlan plan, committed⟩

theorem Unused.apply (unused : b.Unused c) (apart : c.Apart c') : (b.apply c').2.Unused c := by
  cases posted : b.post c' with
  | error error => simpa [Books.apply, posted] using unused
  | ok added =>
    obtain ⟨result, after⟩ := added
    obtain ⟨e, t, stamped, committed⟩ := stamped_of_post posted
    obtain ⟨-, -, -, rfl⟩ := commit_eq_ok committed
    obtain ⟨row, puts, known⟩ := stamped.balance
    simp only [Books.apply, posted]
    refine ⟨fun e' member => ?_, fun p member => ?_, fun r member => ?_⟩
    · rcases List.mem_append.mp member with old | new
      · exact unused.entries e' old
      · rw [stamped.entries] at new
        rw [List.mem_singleton.mp new, stamped.entryId]
        exact fun same => apart 0 0 (congrArg EntryId.uuid same).symm
    · rcases List.mem_append.mp member with old | new
      · obtain ⟨q, there, rfl⟩ := List.mem_map.mp old
        rw [Transaction.overlay_id]
        exact unused.pools q there
      · rw [stamped.poolId p new]
        exact fun same => apart 1 1 (congrArg PoolId.uuid same).symm
    · rw [puts] at member
      rcases mem_foldl_putBalance member with old | new
      · exact unused.balances r old
      · rw [List.mem_singleton.mp new]
        rcases known with ⟨old, present, moved⟩ | ⟨-, own, -⟩
        · rw [moved.id_eq]
          exact unused.balances old (mem_of_findBalance present).1
        · rw [own]
          exact fun same => apart 2 2 (congrArg BalanceId.uuid same).symm

end Books

/-- What happens to the store between two steps of a call that holds the transaction `held`. -/
structure Meanwhile (c : Call) (held : Option TxId) (before after : Memory) : Prop extends
    Undisturbed c held before after where
  unused : before.books.Unused c → after.books.Unused c

theorem Meanwhile.refl (c : Call) (held : Option TxId) (m : Memory) : Meanwhile c held m m :=
  ⟨.refl c held m, id⟩

theorem Meanwhile.trans {c : Call} {held : Option TxId} {m m₁ m₂ : Memory}
    (first : Meanwhile c held m m₁) (second : Meanwhile c held m₁ m₂) : Meanwhile c held m m₂ :=
  ⟨first.toUndisturbed.trans second.toUndisturbed,
    fun unused => second.unused (first.unused unused)⟩

/-- After a step a call holds `held'` when it held `held` before: what it held and what is new, as
far as it is live. -/
def Hands (before after : Memory) (held held' : Option TxId) : Prop :=
  ∀ tx, held' = some tx ↔
    (∃ t, after.tx? tx = some t) ∧ (held = some tx ∨ before.tx? tx = none)

namespace Program

/-- From here on the program makes each request where `P` holds, and it ends in `post`. The books
meet `I` whenever it makes one. -/
def Observes {α : Type} (c : Call) (I : Books → Prop) (P : Memory → Request → Prop)
    (post : α → Draws → Memory → Option TxId → Prop) :
    Program α → Draws → Memory → Option TxId → Prop
  | .done value, d, m, held => ∀ m₁, Meanwhile c held m m₁ → post value d m₁ held
  | .ask request next, d, m, held =>
    ∀ m₁, m₁.WellFormed → I m₁.books → Meanwhile c held m m₁ → P m₁ request ∧
      ∀ answer m₂ held', m₁.perform request = (some answer, m₂) → Hands m₁ m₂ held held' →
        (next answer).Observes c I P post d m₂ held'
  | .askInTime request next, d, m, held =>
    ∀ m₁, m₁.WellFormed → I m₁.books → Meanwhile c held m m₁ → P m₁ request ∧
      ∀ answer m₂ held', m₁.perform request = (some answer, m₂) → Hands m₁ m₂ held held' →
        (next (some answer)).Observes c I P post d m₂ held'
  | .startTimer _ next, d, m, held => next.Observes c I P post d m held
  | .clock next, d, m, held =>
    (next (c.source.clock d.clock)).Observes c I P post { d with clock := d.clock + 1 } m held
  | .fresh next, d, m, held =>
    (next (c.source.fresh d.fresh)).Observes c I P post { d with fresh := d.fresh + 1 } m held
  | .random next, d, m, held =>
    (next (c.source.random d.random)).Observes c I P post { d with random := d.random + 1 } m held
  | .report _ next, d, m, held => next.Observes c I P post d m held

namespace Observes

variable {α β : Type} {c : Call} {I : Books → Prop} {P : Memory → Request → Prop} {d : Draws}
  {m m₁ : Memory} {held : Option TxId} {post post' : α → Draws → Memory → Option TxId → Prop}

/-- What others do in between breaks no promise. -/
theorem meanwhile {program : Program α} (observes : program.Observes c I P post d m held)
    (same : Meanwhile c held m m₁) : program.Observes c I P post d m₁ held := by
  induction program generalizing d with
  | done value => exact fun m₂ later => observes m₂ (same.trans later)
  | ask request next ih => exact fun m₂ wf holds later => observes m₂ wf holds (same.trans later)
  | askInTime request next ih =>
    exact fun m₂ wf holds later => observes m₂ wf holds (same.trans later)
  | startTimer limit next ih => exact ih observes
  | clock next ih => exact ih _ observes
  | fresh next ih => exact ih _ observes
  | random next ih => exact ih _ observes
  | report signal next ih => exact ih observes

theorem mono {program : Program α} (observes : program.Observes c I P post d m held)
    (weaker : ∀ value d m held, post value d m held → post' value d m held) :
    program.Observes c I P post' d m held := by
  induction program generalizing d m held with
  | done value => exact fun m₁ same => weaker value d m₁ held (observes m₁ same)
  | ask request next ih =>
    intro m₁ wf holds same
    obtain ⟨here, later⟩ := observes m₁ wf holds same
    exact ⟨here, fun answer m₂ held' ran hands => ih answer (later answer m₂ held' ran hands)⟩
  | askInTime request next ih =>
    intro m₁ wf holds same
    obtain ⟨here, later⟩ := observes m₁ wf holds same
    exact ⟨here, fun answer m₂ held' ran hands =>
      ih (some answer) (later answer m₂ held' ran hands)⟩
  | startTimer limit next ih => exact ih observes
  | clock next ih => exact ih _ observes
  | fresh next ih => exact ih _ observes
  | random next ih => exact ih _ observes
  | report signal next ih => exact ih observes

/-- One program after the other. -/
theorem bind {program : Program α} {next : α → Program β}
    {post : β → Draws → Memory → Option TxId → Prop}
    (observes : program.Observes c I P
      (fun value d m held => (next value).Observes c I P post d m held) d m held) :
    (program.bind next).Observes c I P post d m held := by
  induction program generalizing d m held with
  | done value => exact observes m (.refl c held m)
  | ask request rest ih =>
    intro m₁ wf holds same
    obtain ⟨here, later⟩ := observes m₁ wf holds same
    exact ⟨here, fun answer m₂ held' ran hands => ih answer (later answer m₂ held' ran hands)⟩
  | askInTime request rest ih =>
    intro m₁ wf holds same
    obtain ⟨here, later⟩ := observes m₁ wf holds same
    exact ⟨here, fun answer m₂ held' ran hands =>
      ih (some answer) (later answer m₂ held' ran hands)⟩
  | startTimer limit rest ih => exact ih observes
  | clock rest ih => exact ih _ observes
  | fresh rest ih => exact ih _ observes
  | random rest ih => exact ih _ observes
  | report signal rest ih => exact ih observes

/-- A program that only reads observes what is always observed in reading. -/
theorem of_onlyReads {program : Program α} (reads : program.OnlyReads)
    (free : ∀ m request, request.readsCommitted = true → P m request)
    (ends : ∀ value d m held, post value d m held) :
    program.Observes c I P post d m held := by
  induction program generalizing d m held with
  | done value => exact fun m₁ _ => ends value d m₁ held
  | ask request next ih =>
    exact fun m₁ _ _ _ =>
      ⟨free m₁ request reads.1, fun answer _ _ _ _ => ih answer (reads.2 answer)⟩
  | askInTime request next ih =>
    exact fun m₁ _ _ _ =>
      ⟨free m₁ request reads.1, fun answer _ _ _ _ => ih (some answer) (reads.2 (some answer))⟩
  | startTimer limit next ih => exact ih reads
  | clock next ih => exact ih _ (reads _)
  | fresh next ih => exact ih _ (reads _)
  | random next ih => exact ih _ (reads _)
  | report signal next ih => exact ih reads

end Observes
end Program

/-! ### At every turn -/

theorem Moves.hands {c : Call} {m after : Memory} {g g' : Progress} (moves : Moves c m after g g') :
    Hands m after g.tx g'.tx := by
  refine fun tx => ⟨moves.own tx, ?_⟩
  rintro ⟨⟨t, live⟩, old | new⟩
  · exact (moves.live tx t live).resolve_right fun foreign => foreign.1 old
  · refine (moves.live tx t live).resolve_right fun foreign => ?_
    rw [new] at foreign
    cases foreign.2

/-- A step that leaves the transactions as they are leaves a call with what it holds. -/
theorem Hands.eq_of_still {m after : Memory} {held held' : Option TxId}
    (hands : Hands m after held held') (still : ∀ tx, after.tx? tx = m.tx? tx)
    (live : ∀ tx, held = some tx → ∃ t, m.tx? tx = some t) : held' = held := by
  have same (tx : TxId) : held' = some tx ↔ held = some tx := by
    rw [hands tx, still]
    refine ⟨?_, fun own => ⟨live tx own, .inl own⟩⟩
    rintro ⟨⟨t, there⟩, own | none⟩
    · exact own
    · rw [none] at there
      cases there
  exact Option.ext same

theorem Effect.unused {c c' : Call} {m after : Memory} {g g' : Progress}
    (effect : Effect c' m after g g') (apart : c.Apart c') (unused : m.books.Unused c) :
    after.books.Unused c := by
  cases effect with
  | silent books => rwa [books]
  | decided result pending outcome applied =>
    have kept := unused.apply apart
    rwa [applied] at kept

/-- What a call observes from where it stands. -/
def Phase.Observes (c : Call) (I : Books → Prop) (P : Memory → Request → Prop) (m : Memory)
    (held : Option TxId) : Phase → Prop
  | .pending => m.books.Unused c
  | .running d program => program.Observes c I P (fun _ _ _ _ => True) d m held
  | .finished _ => True

/-- The request that a call makes at its next turn. -/
def Phase.request? : Phase → Option Request
  | .running _ (.ask request _) | .running _ (.askInTime request _) => some request
  | _ => none

namespace Phase.Observes

variable {c : Call} {I : Books → Prop} {P : Memory → Request → Prop} {m m₁ : Memory}
  {held held' : Option TxId} {phase : Phase}

theorem meanwhile (observes : phase.Observes c I P m held) (same : Meanwhile c held m m₁) :
    phase.Observes c I P m₁ held := by
  cases phase with
  | pending => exact same.unused observes
  | running d program => exact Program.Observes.meanwhile observes same
  | finished result => trivial

theorem request (observes : phase.Observes c I P m held) (wf : m.WellFormed) (holds : I m.books)
    {request : Request} (next : phase.request? = some request) : P m request := by
  have same := Meanwhile.refl c held m
  unfold request? at next
  split at next
  · cases next
    exact (observes m wf holds same).1
  · cases next
    exact (observes m wf holds same).1
  · cases next

/-- At its turn a call goes on as it promised. -/
theorem turn (observes : phase.Observes c I P m held) (wf : m.WellFormed) (holds : I m.books)
    (live : ∀ tx, held = some tx → ∃ t, m.tx? tx = some t)
    (begins : phase = .pending → m.books.Unused c →
      c.program.Observes c I P (fun _ _ _ _ => True) {} m held)
    (hands : Hands m (phase.turn c m).2 held held') :
    (phase.turn c m).1.Observes c I P (phase.turn c m).2 held' := by
  have still (same : (phase.turn c m).2 = m) : held' = held :=
    hands.eq_of_still (fun tx => by rw [same]) live
  have waits {request : Request} {after : Memory} (ran : m.perform request = (none, after))
      (handed : Hands m after held held') : phase.Observes c I P after held' := by
    obtain ⟨books, kept⟩ := Memory.perform_unanswered ran
    have found := Memory.tx?_eq_of_live_eq kept
    rw [handed.eq_of_still found live]
    exact observes.meanwhile ⟨⟨books ▸ List.prefix_rfl, by rw [books],
      fun tx t _ there => (found tx).trans there, fun _ _ _ _ _ _ => by rw [books]⟩,
      fun unused => books ▸ unused⟩
  cases phase with
  | pending =>
    rw [still rfl]
    exact begins rfl observes
  | finished result => trivial
  | running d program =>
    have same := Meanwhile.refl c held m
    cases program with
    | done result => trivial
    | ask request next =>
      rcases ran : m.perform request with ⟨_ | answer, after⟩
      · simp only [Phase.turn, ran] at hands ⊢
        exact waits ran hands
      · simp only [Phase.turn, ran] at hands ⊢
        exact (observes m wf holds same).2 answer after held' ran hands
    | askInTime request next =>
      rcases ran : m.perform request with ⟨_ | answer, after⟩
      · simp only [Phase.turn, ran] at hands ⊢
        exact waits ran hands
      · simp only [Phase.turn, ran] at hands ⊢
        exact (observes m wf holds same).2 answer after held' ran hands
    | startTimer limit next => exact still rfl ▸ observes
    | clock next => exact still rfl ▸ observes
    | fresh next => exact still rfl ▸ observes
    | random next => exact still rfl ▸ observes
    | report signal next => exact still rfl ▸ observes

end Phase.Observes

section

variable {ι : Type} [DecidableEq ι] {calls : ι → Call} {I : Books → Prop}
  {P : Memory → Request → Prop}

/-- Calls that share a store make every request where `P` holds, if each of them does whatever the
others do, and if the books meet `I` all the time. -/
theorem Concurrent.observes (apart : ∀ i j, i ≠ j → (calls i).Apart (calls j))
    (invariant : ∀ schedule, I (run calls schedule).memory.books)
    (observe : ∀ i m, m.books.Unused (calls i) →
      (calls i).program.Observes (calls i) I P (fun _ _ _ _ => True) {} m none)
    (schedule : List ι) (i : ι) {request : Request}
    (next : ((run calls schedule).phases i).request? = some request) :
    P (run calls schedule).memory request := by
  have kept : ∃ order g, Explains calls (run calls schedule) order g ∧ ∀ i,
      ((run calls schedule).phases i).Observes (calls i) I P (run calls schedule).memory
        (g i).tx := by
    clear next
    induction schedule using List.reverseRecOn with
    | nil =>
      exact ⟨[], fun _ => {}, ⟨coherent_empty, ordered_empty⟩,
        fun i => Books.unused_empty (calls i)⟩
    | append_singleton schedule i ih =>
      obtain ⟨order, g, explains, observes⟩ := ih
      have coherent := explains.coherent
      obtain ⟨g', wf, moves, sound⟩ :=
        (coherent.sound i).turn coherent.wellFormed (coherent.held i)
      obtain ⟨order', -, explains'⟩ := explains.moved apart wf moves sound
      rw [run_concat]
      refine ⟨order', Function.update g i g', explains', fun j => ?_⟩
      by_cases own : j = i
      · subst own
        simp only [turn, Function.update_self]
        refine (observes j).turn coherent.wellFormed (invariant schedule) (coherent.held j)
          (fun pending unused => ?_) moves.hands
        have start := coherent.sound j
        rw [pending] at start
        rw [show g j = {} from start]
        exact observe j _ unused
      · simp only [turn, Function.update_of_ne own]
        have foreign : ∀ tx, (g j).tx = some tx → (g i).tx ≠ some tx :=
          fun tx mine his => own (coherent.unshared j i tx mine his)
        exact (observes j).meanwhile ⟨moves.undisturbed coherent.wellFormed
          (explains.ordered.distinct apart) (apart j i own) foreign,
          moves.effect.unused (apart j i own)⟩
  obtain ⟨order, g, explains, observes⟩ := kept
  exact (observes i).request explains.coherent.wellFormed (invariant schedule) next

end
end PointLedger
