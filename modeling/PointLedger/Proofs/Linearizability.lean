import Mathlib.Data.List.Nodup
import PointLedger.Proofs.History
import PointLedger.Proofs.Interleaving

/-!
Every interleaving of calls is explained by an order of them. The order lists the calls as they
were decided. A turn of one call never breaks what another one relies on: it changes rows only
under the lock of their account, and the identifiers that it puts into the books are its own. So
each call ends with the result that was decided for it, and posting the calls in the order gives
the results and the books.
-/

namespace PointLedger

/-! ### One call disturbs no other -/

/-- A step that changes the books adds an entry to an account that the call has locked. -/
theorem Effect.posted {c : Call} {m after : Memory} {g g' : Progress}
    (effect : Effect c m after g g') (distinct : (m.books.pools.map (·.id)).Nodup) :
    after.books = m.books ∨ ∃ e tx t, Posted c m.books e after.books ∧ g.tx = some tx ∧
      m.tx? tx = some t ∧ e.account.lockKey ∈ t.locks := by
  cases effect with
  | silent books => exact .inl books
  | decided result pending outcome applied locked =>
    have books : (m.books.apply c).2 = after.books := congrArg Prod.snd applied
    rcases Books.apply_cases distinct c with same | ⟨e, posted⟩
    · exact .inl (books.symm.trans same)
    · rw [books] at posted
      rcases locked with same | ⟨tx, t, a, own, held, target, locked⟩
      · exact .inl same
      · obtain rfl : e.account = a := Option.some.inj (posted.target.symm.trans target)
        exact .inr ⟨e, tx, t, posted, own, held, locked⟩

theorem Books.hasPoolOf_eq (b : Books) (id : EntryId) :
    b.hasPoolOf id = (b.pools.map CreditPool.key).any (·.2 == id) := by
  rw [hasPoolOf, List.any_map]
  rfl

/-- An entry of another call has no bearing on whether a pool stands for the entry of this one. -/
theorem Posted.hasPoolOf {c c' : Call} {b after : Books} {e : Entry} (posted : Posted c' b e after)
    (apart : c.Apart c') : after.hasPoolOf c.entryId = b.hasPoolOf c.entryId := by
  have foreign : (c'.entryId == c.entryId) = false := by
    rw [beq_eq_false_iff_ne]
    intro same
    exact apart 0 0 (congrArg EntryId.uuid same.symm)
  rw [Books.hasPoolOf_eq, Books.hasPoolOf_eq]
  rcases posted.keys with same | opened
  · rw [same]
  · simp [opened, foreign]

/-- The step of a call leaves alone what another call holds. -/
theorem Moves.undisturbed {c c' : Call} {m after : Memory} {g g' : Progress} {held : Option TxId}
    (moves : Moves c' m after g g') (wf : m.WellFormed)
    (distinct : (m.books.pools.map (·.id)).Nodup) (apart : c.Apart c')
    (foreign : ∀ tx, held = some tx → g.tx ≠ some tx) : Undisturbed c held m after := by
  have staged : ∀ tx t, held = some tx → m.tx? tx = some t → after.tx? tx = some t :=
    fun tx t own live => moves.others tx t live (foreign tx own)
  rcases moves.effect.posted distinct with same | ⟨e, tx', t', posted, own', live', locked'⟩
  · refine ⟨same ▸ List.prefix_rfl, by rw [same], staged, fun tx t a _ _ _ => by rw [same]⟩
  · refine ⟨⟨[e], posted.entries.symm⟩, posted.hasPoolOf apart, staged, ?_⟩
    intro tx t a own live locked
    refine posted.others a ?_
    rintro rfl
    -- Both calls would hold the lock of the account.
    have different : tx ≠ tx' := by
      rintro rfl
      exact foreign tx own own'
    exact wf.exclusive tx t tx' t' live live' different _ locked locked'

/-! ### Calls that share a store -/

/-- What is known of a call that stands there. -/
def Phase.Sound (c : Call) (m : Memory) (g : Progress) : Phase → Prop
  | .pending => g = {}
  | .running d program =>
    program.Ensures c False (fun result _ _ g => Call.Ends False result g) d m g
  | .finished result => g.tx = none ∧ g.outcome = some result

theorem Phase.Sound.undisturbed {c : Call} {m m₁ : Memory} {g : Progress} {phase : Phase}
    (sound : phase.Sound c m g) (same : Undisturbed c g.tx m m₁) : phase.Sound c m₁ g := by
  cases phase with
  | pending => exact sound
  | running d program => exact Program.Ensures.undisturbed sound same
  | finished result => exact sound

/-- At its turn a call makes one step, after which it stands where it promised to. -/
theorem Phase.Sound.turn {c : Call} {m : Memory} {g : Progress} {phase : Phase}
    (sound : phase.Sound c m g) (wf : m.WellFormed)
    (held : ∀ tx, g.tx = some tx → ∃ t, m.tx? tx = some t) :
    ∃ g', (phase.turn c m).2.WellFormed ∧ Moves c m (phase.turn c m).2 g g' ∧
      (phase.turn c m).1.Sound c (phase.turn c m).2 g' := by
  have same := Undisturbed.refl c g.tx m
  have idle : Moves c m m g g := .still held rfl (.silent rfl rfl)
  -- A request that stays without an answer is asked again.
  have waits {request : Request} {after : Memory} (ran : m.perform request = (none, after)) :
      ∃ g', after.WellFormed ∧ Moves c m after g g' ∧ phase.Sound c after g' := by
    obtain ⟨books, live⟩ := Memory.perform_unanswered ran
    have found := Memory.tx?_eq_of_live_eq live
    refine ⟨g, (Memory.perform_changes ran).wellFormed wf, ⟨?_, ?_, ?_, .silent books rfl⟩,
      sound.undisturbed (.of_same books live)⟩
    · exact fun tx t live _ => (found tx).trans live
    · intro tx t live
      by_cases own : g.tx = some tx
      · exact .inl own
      · exact .inr ⟨own, (found tx).symm.trans live⟩
    · intro tx own
      obtain ⟨t, live⟩ := held tx own
      exact ⟨⟨t, (found tx).trans live⟩, .inl own⟩
  cases phase with
  | pending =>
    obtain rfl : g = {} := sound
    exact ⟨_, wf, idle, c.ensures_program False m⟩
  | finished result => exact ⟨g, wf, idle, sound⟩
  | running d program =>
    cases program with
    | done result =>
      obtain ⟨released, decided | ⟨late, -⟩⟩ := sound m same
      · exact ⟨g, wf, idle, released, decided⟩
      · exact late.elim
    | ask request next =>
      rcases ran : m.perform request with ⟨_ | answer, after⟩
      · simpa only [Phase.turn, ran] using waits ran
      · obtain ⟨g', moves, rest⟩ := sound m wf same answer after ran
        simp only [Phase.turn, ran]
        exact ⟨g', (Memory.perform_changes ran).wellFormed wf, moves, rest⟩
    | askInTime request next =>
      rcases ran : m.perform request with ⟨_ | answer, after⟩
      · simpa only [Phase.turn, ran] using waits ran
      · obtain ⟨g', moves, rest⟩ := (sound m wf same).1 answer after ran
        simp only [Phase.turn, ran]
        exact ⟨g', (Memory.perform_changes ran).wellFormed wf, moves, rest⟩
    | startTimer limit next => exact ⟨g, wf, idle, sound⟩
    | clock next => exact ⟨g, wf, idle, sound⟩
    | fresh next => exact ⟨g, wf, idle, sound⟩
    | random next => exact ⟨g, wf, idle, sound⟩
    | report signal next =>
      obtain ⟨g', moves, rest⟩ := sound m wf same
      exact ⟨g', wf, moves, rest⟩

section

variable {ι : Type} {calls : ι → Call} {s : Concurrent ι} {g : ι → Progress} {order : List ι}

/-- Every call is where its own steps have brought it, and no two hold the same transaction. -/
structure Coherent (calls : ι → Call) (s : Concurrent ι) (g : ι → Progress) : Prop where
  wellFormed : s.memory.WellFormed
  sound : ∀ i, (s.phases i).Sound (calls i) s.memory (g i)
  held : ∀ i tx, (g i).tx = some tx → ∃ t, s.memory.tx? tx = some t
  unshared : ∀ i j tx, (g i).tx = some tx → (g j).tx = some tx → i = j

/-- The order lists the calls that are decided; posted in this order they have these outcomes and
make these books. -/
structure Ordered (calls : ι → Call) (b : Books) (order : List ι) (g : ι → Progress) : Prop where
  nodup : order.Nodup
  decided : ∀ i, i ∈ order ↔ (g i).outcome ≠ none
  results : (Books.applyAll {} (order.map calls)).1.map some = order.map fun i => (g i).outcome
  books : (Books.applyAll {} (order.map calls)).2 = b

theorem coherent_empty : Coherent calls {} fun _ => {} where
  wellFormed := Memory.atRest_empty.wellFormed
  sound _ := rfl
  held _ _ own := by cases own
  unshared _ _ _ own := by cases own

theorem ordered_empty : Ordered calls {} [] fun _ => {} where
  nodup := .nil
  decided _ := by simp
  results := rfl
  books := rfl

namespace Ordered

variable {b : Books} (ordered : Ordered calls b order g)
include ordered

theorem apart (apart : ∀ i j, i ≠ j → (calls i).Apart (calls j)) :
    (order.map calls).Pairwise Call.Apart :=
  List.pairwise_map.mpr (ordered.nodup.imp fun different => apart _ _ different)

/-- The pools that the calls have opened have distinct ids. -/
theorem distinct (apart : ∀ i j, i ≠ j → (calls i).Apart (calls j)) :
    (b.pools.map (·.id)).Nodup := by
  have apart := ordered.apart apart
  rw [← ordered.books]
  exact (Books.sourced_applyAll apart).distinct apart

variable [DecidableEq ι]

/-- A step that decides nothing. -/
theorem silent {i : ι} {g' : Progress} (outcome : g'.outcome = (g i).outcome) :
    Ordered calls b order (Function.update g i g') := by
  have same : ∀ j, (Function.update g i g' j).outcome = (g j).outcome := by
    intro j
    by_cases own : j = i
    · subst own
      rw [Function.update_self, outcome]
    · rw [Function.update_of_ne own]
  constructor
  · exact ordered.nodup
  · intro j
    rw [same]
    exact ordered.decided j
  · simp only [same]
    exact ordered.results
  · exact ordered.books

/-- A step that decides its call, which comes last in the order. -/
theorem concat {i : ι} {g' : Progress} {result : Except LedgerError Entry} {after : Books}
    (pending : (g i).outcome = none) (outcome : g'.outcome = some result)
    (applied : b.apply (calls i) = (result, after)) :
    Ordered calls after (order ++ [i]) (Function.update g i g') := by
  have new : i ∉ order := fun member => (ordered.decided i).mp member pending
  have others : ∀ j, j ≠ i → (Function.update g i g' j).outcome = (g j).outcome := by
    intro j other
    rw [Function.update_of_ne other]
  have kept : order.map (fun j => (Function.update g i g' j).outcome) =
      order.map fun j => (g j).outcome :=
    List.map_congr_left fun j member => others j fun same => new (same ▸ member)
  have all := Books.applyAll_concat {} (order.map calls) (calls i)
  rw [ordered.books, applied] at all
  constructor
  · exact List.nodup_append.mpr ⟨ordered.nodup, List.nodup_singleton i, by
      intro j member j' last
      rw [List.mem_singleton.mp last]
      exact fun same => new (same ▸ member)⟩
  · intro j
    rw [List.mem_append, List.mem_singleton]
    by_cases own : j = i
    · subst own
      simp [outcome]
    · rw [others j own, ordered.decided j]
      simp [own]
  · rw [List.map_append, List.map_append, kept, ← ordered.results]
    simp [all, outcome]
  · rw [List.map_append]
    exact congrArg Prod.snd all

end Ordered

variable {i : ι} {m' : Memory} {g' : Progress} {phase : Phase}

/-- A turn of the call `i` leaves the order as it is, or puts the call at its end. -/
def Grows (i : ι) (order order' : List ι) : Prop := order' = order ∨ order' = order ++ [i]

theorem Grows.begun {order' : List ι} (grows : Grows i order order') : order <+: order' := by
  rcases grows with rfl | rfl
  · exact List.prefix_rfl
  · exact List.prefix_append order [i]

/-- The order of the calls and how far each has come explain where all stand. -/
structure Explains (calls : ι → Call) (s : Concurrent ι) (order : List ι) (g : ι → Progress) :
    Prop where
  coherent : Coherent calls s g
  ordered : Ordered calls s.memory.books order g

/-- A call that has finished is in the order, and one that has not begun is not. -/
theorem Explains.mem_of_finished (explains : Explains calls s order g)
    {result : Except LedgerError Entry} (finished : s.phases i = .finished result) :
    i ∈ order ∧ (g i).outcome = some result := by
  have sound := explains.coherent.sound i
  rw [finished] at sound
  refine ⟨(explains.ordered.decided i).mpr ?_, sound.2⟩
  rw [sound.2]
  exact Option.some_ne_none result

theorem Explains.not_mem_of_pending (explains : Explains calls s order g)
    (pending : s.phases i = .pending) : i ∉ order := by
  have sound := explains.coherent.sound i
  rw [pending] at sound
  intro member
  refine (explains.ordered.decided i).mp member ?_
  rw [show g i = {} from sound]

/-- A call that has finished finds its result at its place in the order. -/
theorem Explains.result_at (explains : Explains calls s order g)
    {result : Except LedgerError Entry} (finished : s.phases i = .finished result) :
    ∃ k : Nat, order[k]? = some i ∧
      (Books.applyAll {} (order.map calls)).1[k]? = some result := by
  obtain ⟨member, outcome⟩ := explains.mem_of_finished finished
  obtain ⟨k, place⟩ := List.getElem?_of_mem member
  refine ⟨k, place, ?_⟩
  have results := congrArg (·[k]?) explains.ordered.results
  simp only [List.getElem?_map, place, Option.map_some, outcome] at results
  simpa using results

/-! ### Turns -/

section

variable [DecidableEq ι] (apart : ∀ i j, i ≠ j → (calls i).Apart (calls j))
include apart

/-- A step of one call leaves all calls coherent. -/
theorem Coherent.moved (coherent : Coherent calls s g)
    (distinct : (s.memory.books.pools.map (·.id)).Nodup) (wf : m'.WellFormed)
    (moves : Moves (calls i) s.memory m' (g i) g') (sound : phase.Sound (calls i) m' g') :
    Coherent calls ⟨m', Function.update s.phases i phase⟩ (Function.update g i g') := by
  have foreign : ∀ j, j ≠ i → ∀ tx, (g j).tx = some tx → (g i).tx ≠ some tx :=
    fun j other tx own own' => other (coherent.unshared j i tx own own')
  -- A transaction that the call holds now is its own from before, or new.
  have unshared : ∀ j, j ≠ i → ∀ tx, (g j).tx = some tx → g'.tx ≠ some tx := by
    intro j other tx own own'
    obtain ⟨t, live⟩ := coherent.held j tx own
    obtain ⟨-, old | new⟩ := moves.own tx own'
    · exact foreign j other tx own old
    · rw [live] at new
      cases new
  constructor
  · exact wf
  · intro j
    by_cases own : j = i
    · subst own
      simpa only [Function.update_self] using sound
    · simp only [Function.update_of_ne own]
      exact (coherent.sound j).undisturbed
        (moves.undisturbed coherent.wellFormed distinct (apart j i own) (foreign j own))
  · intro j tx own
    by_cases same : j = i
    · subst same
      rw [Function.update_self] at own
      exact (moves.own tx own).1
    · rw [Function.update_of_ne same] at own
      obtain ⟨t, live⟩ := coherent.held j tx own
      exact ⟨t, moves.others tx t live (foreign j same tx own)⟩
  · intro j k tx own own'
    by_cases first : j = i <;> by_cases second : k = i
    · exact first.trans second.symm
    · subst first
      rw [Function.update_self] at own
      rw [Function.update_of_ne second] at own'
      exact absurd own (unshared k second tx own')
    · subst second
      rw [Function.update_of_ne first] at own
      rw [Function.update_self] at own'
      exact absurd own' (unshared j first tx own)
    · rw [Function.update_of_ne first] at own
      rw [Function.update_of_ne second] at own'
      exact coherent.unshared j k tx own own'

/-- A step of one call is explained by the same order, or by one with the call at the end. -/
theorem Explains.moved (explains : Explains calls s order g) (wf : m'.WellFormed)
    (moves : Moves (calls i) s.memory m' (g i) g') (sound : phase.Sound (calls i) m' g') :
    ∃ order', Grows i order order' ∧
      Explains calls ⟨m', Function.update s.phases i phase⟩ order' (Function.update g i g') := by
  obtain ⟨coherent, ordered⟩ := explains
  have coherent' := coherent.moved apart (ordered.distinct apart) wf moves sound
  cases moves.effect with
  | silent books outcome =>
    refine ⟨order, .inl rfl, coherent', ?_⟩
    rw [books]
    exact ordered.silent outcome
  | decided result pending outcome applied =>
    exact ⟨order ++ [i], .inr rfl, coherent', ordered.concat pending outcome applied⟩

/-- Every turn is explained by the order so far or by a longer one. -/
theorem Explains.turn (explains : Explains calls s order g) (i : ι) :
    ∃ order' g', Grows i order order' ∧ Explains calls (s.turn calls i) order' g' := by
  obtain ⟨g', wf, moves, sound⟩ := (explains.coherent.sound i).turn explains.coherent.wellFormed
    (explains.coherent.held i)
  obtain ⟨order', grows, explained⟩ := explains.moved apart wf moves sound
  exact ⟨order', _, grows, explained⟩

/-- Every schedule is explained by an order, which begins with orders that explain how far the
schedule had come before. -/
theorem Concurrent.exists_explains (schedule : List ι) :
    ∃ order g, Explains calls (run calls schedule) order g ∧
      ∀ early, early <+: schedule → ∃ order₀ g₀,
        Explains calls (run calls early) order₀ g₀ ∧ order₀ <+: order := by
  induction schedule using List.reverseRecOn with
  | nil =>
    refine ⟨[], fun _ => {}, ⟨coherent_empty, ordered_empty⟩, fun early before => ?_⟩
    obtain rfl := List.prefix_nil.mp before
    exact ⟨[], fun _ => {}, ⟨coherent_empty, ordered_empty⟩, List.prefix_rfl⟩
  | append_singleton schedule i ih =>
    obtain ⟨order, g, explains, earlier⟩ := ih
    obtain ⟨order', g', grows, explains'⟩ := explains.turn apart i
    rw [← run_concat] at explains'
    refine ⟨order', g', explains', fun early before => ?_⟩
    rcases List.prefix_concat_iff.mp before with rfl | before
    · exact ⟨order', g', explains', List.prefix_rfl⟩
    · obtain ⟨order₀, g₀, explains₀, begun⟩ := earlier early before
      exact ⟨order₀, g₀, explains₀, begun.trans grows.begun⟩

end

/-- Calls that share a store and draw identifiers of their own can be put in an order, whatever
the schedule: the order lists each call once that has finished, and only calls that have begun; a
call that has finished before another one began comes before it; and serving the calls one after
the other in this order gives each call that has finished the result that it had, and leaves the
same books. -/
theorem Concurrent.linearizable [DecidableEq ι] (calls : ι → Call)
    (apart : ∀ i j, i ≠ j → (calls i).Apart (calls j)) (schedule : List ι) :
    let s := run calls schedule
    ∃ order : List ι, order.Nodup ∧ (∀ i ∈ order, s.phases i ≠ .pending) ∧
      (∀ i j, Precedes calls schedule i j → order.idxOf i < order.idxOf j) ∧
      (({} : Memory).serve (order.map calls)).2.books = s.memory.books ∧
      ∀ i result, s.phases i = .finished result →
        ∃ k : Nat, order[k]? = some i ∧
          (({} : Memory).serve (order.map calls)).1[k]? = some result := by
  intro s
  obtain ⟨order, g, explains, earlier⟩ := exists_explains apart schedule
  obtain ⟨results, books, -⟩ := Memory.serve_eq_applyAll Memory.atRest_empty (order.map calls)
  refine ⟨order, explains.ordered.nodup, ?_, ?_, ?_, ?_⟩
  · exact fun i member pending => explains.not_mem_of_pending pending member
  · rintro i j ⟨early, before, pending, result, finished⟩
    obtain ⟨order₀, g₀, explains₀, later, rfl⟩ := earlier early before
    obtain ⟨member, -⟩ := explains₀.mem_of_finished finished
    have absent := explains₀.not_mem_of_pending pending
    rw [List.idxOf_append_of_mem member, List.idxOf_append_of_notMem absent]
    have := List.idxOf_lt_length_of_mem member
    omega
  · exact books.trans explains.ordered.books
  · intro i result finished
    rw [results]
    exact explains.result_at finished

theorem Concurrent.linearizable_shared_reference :
    let calls (i : Fin 2) := Call.numbered i (.add
      ⟨"acme", if i = 0 then "ann" else "bob", .credit, ⟨10, by decide⟩, "first", "", []⟩)
    let schedule := (List.replicate 30 [0, 1]).flatten
    let s := run calls schedule
    (s.phases 0).result?.map Except.isOk = some true ∧
    (s.phases 1).result? = some (.error (.alreadyExists "acme" "first")) ∧
    ∃ order : List (Fin 2), order.Nodup ∧ (∀ i ∈ order, s.phases i ≠ .pending) ∧
      (∀ i j, Precedes calls schedule i j → order.idxOf i < order.idxOf j) ∧
      (({} : Memory).serve (order.map calls)).2.books = s.memory.books ∧
      ∀ i result, s.phases i = .finished result → ∃ k : Nat, order[k]? = some i ∧
        (({} : Memory).serve (order.map calls)).1[k]? = some result := by
  intro calls schedule
  have apart : ∀ i j, i ≠ j → (calls i).Apart (calls j) := fun i j different =>
    Call.numbered_apart (Fin.val_ne_of_ne different) (by omega) (by omega)
  exact ⟨by decide +kernel, by decide +kernel, linearizable calls apart schedule⟩

end

end PointLedger
