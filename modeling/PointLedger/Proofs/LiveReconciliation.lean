import PointLedger.Engine.Inquiry
import PointLedger.Proofs.InterleavedChains
import PointLedger.Proofs.Reconciliation

/-!
Reconciling an account while calls change it. The entries, the pools and the balance are read one
after the other and nothing is locked, so what is committed in between makes the stored rows look as
if they had drifted from the entries. A credit or a debit between the reads of the entries and of
the pools always shows, and a reversal there never does; the balance shows the sum of all that was
committed before it was read.
-/

namespace PointLedger

/-! ### Rows that calls have gone on to change -/

/-- What an entry adds to the balance of its account. -/
def Entry.worth (e : Entry) : Int :=
  if !e.isReversal && e.kind == .credit then e.amount.val else -e.amount.val

/-- Some pool has less left than it had, or was not there. -/
def AccountRows.Drawn (v v' : AccountRows) : Prop :=
  ∃ p ∈ v'.pools, ∀ q ∈ v.pools, q.entryId = p.entryId → p.remaining.val < q.remaining.val

/-- What has become of the rows of an account with some new entries. -/
structure AccountRows.Since (v v' : AccountRows) (new : List Entry) : Prop where
  entries : v'.entries = v.entries ++ new
  points : v'.points = v.points + (new.map Entry.worth).sum
  kept : ∀ p ∈ v.pools, ∃ p' ∈ v'.pools, p'.entryId = p.entryId
  still : (∀ e ∈ new, e.isReversal = true) → v'.pools = v.pools
  drawn : ∀ e ∈ new, e.isReversal = false → v.Drawn v'

namespace AccountRows

theorem since_refl (v : AccountRows) : v.Since v [] where
  entries := (List.append_nil _).symm
  points := (Int.add_zero _).symm
  kept p held := ⟨p, held, rfl⟩
  still _ := rfl
  drawn _ member := by cases member

variable {c : Call} {v v' v'' : AccountRows} {new : List Entry} {e : Entry} {amount : Amount}
  {allocations : List Allocation} {time : Timestamp} {p : CreditPool}

/-- A debit leaves a pool as it is or takes a part of it. -/
theorem drawnBy_cases (covered : allocate v.openPools amount = .ok allocations)
    (ids : (v.pools.map (·.id)).Nodup) (member : p ∈ v.pools) :
    (p.drawnBy time allocations = p ∧ ∀ a ∈ allocations, a.poolId ≠ p.id) ∨
      (p.drawnBy time allocations).remaining.val < p.remaining.val := by
  obtain ⟨drained, rest, split, takes⟩ := v.takes_of_allocate covered
  cases found : allocations.find? (·.poolId == p.id) with
  | none =>
    have unnamed : ∀ a ∈ allocations, a.poolId ≠ p.id := by
      simpa using List.find?_eq_none.mp found
    exact .inl ⟨CreditPool.drawnBy_of_unnamed unnamed, unnamed⟩
  | some a =>
    obtain ⟨q, held, takes⟩ := exists_takes_of_mem takes (List.mem_of_find?_eq_some found)
    have named : a.poolId = p.id := by simpa using List.find?_some found
    obtain rfl : q = p := List.inj_on_of_nodup_map ids
      (split.mem_iff.mpr (List.mem_append_left rest held)) member (takes.pool.symm.trans named)
    have left := takes.left
    have positive := takes.positive
    refine .inr ?_
    simp only [CreditPool.drawnBy, found, CreditPool.drawn]
    omega

theorem remaining_drawnBy_le (covered : allocate v.openPools amount = .ok allocations)
    (ids : (v.pools.map (·.id)).Nodup) (member : p ∈ v.pools) :
    (p.drawnBy time allocations).remaining.val ≤ p.remaining.val := by
  rcases drawnBy_cases covered ids member with ⟨same, -⟩ | less
  · rw [same]
  · exact Int.le_of_lt less

/-- A debit takes from some pool. -/
theorem exists_drawn (time : Timestamp)
    (covered : allocate v.openPools amount = .ok allocations)
    (ids : (v.pools.map (·.id)).Nodup) :
    ∃ p ∈ v.pools, (p.drawnBy time allocations).remaining.val < p.remaining.val := by
  obtain ⟨positive, total, -⟩ := allocate_eq_ok covered
  obtain ⟨drained, rest, split, takes⟩ := v.takes_of_allocate covered
  cases takes with
  | nil =>
    rw [List.map_nil, List.sum_nil] at total
    omega
  | @cons a p as ps first later =>
    have member : p ∈ v.pools := split.mem_iff.mpr (by simp)
    refine ⟨p, member, ?_⟩
    rcases drawnBy_cases covered ids member with ⟨-, unnamed⟩ | less
    · exact absurd first.pool (unnamed a List.mem_cons_self)
    · exact less

namespace Since

/-- A new entry goes to the end of the chain and moves the balance by its worth; a reversal leaves
the pools as they are, and any other entry draws on them or adds to them. -/
theorem concat (since : v.Since v' new) (entries : v''.entries = v'.entries ++ [e])
    (points : v''.points = v'.points + e.worth)
    (kept : ∀ p ∈ v'.pools, ∃ p' ∈ v''.pools, p'.entryId = p.entryId)
    (moves : (e.isReversal = true ∧ v''.pools = v'.pools) ∨
      (e.isReversal = false ∧ v.Drawn v'')) : v.Since v'' (new ++ [e]) := by
  constructor
  · rw [entries, since.entries, List.append_assoc]
  · rw [points, since.points, List.map_append, List.sum_append, List.map_singleton,
      List.sum_singleton, Int.add_assoc]
  · intro p held
    obtain ⟨p', held', same⟩ := since.kept p held
    obtain ⟨p'', held'', same'⟩ := kept p' held'
    exact ⟨p'', held'', same'.trans same⟩
  · intro reversals
    rcases moves with ⟨-, pools⟩ | ⟨plain, -⟩
    · exact pools.trans (since.still fun e' member => reversals e' (List.mem_append_left _ member))
    · rw [reversals e (List.mem_append_right _ (List.mem_singleton_self e))] at plain
      cases plain
  · intro e' member plain
    rcases moves with ⟨reverting, pools⟩ | ⟨-, drawn⟩
    · rw [Drawn, pools]
      rcases List.mem_append.mp member with old | last
      · exact since.drawn e' old plain
      · rw [List.mem_singleton.mp last, reverting] at plain
        cases plain
    · exact drawn

/-- The pool of a new credit was not there before. -/
theorem drawn_of_credit (since : v.Since v' new) {id : PoolId} {a : Account}
    (pools : v''.pools = v'.pools ++ [CreditPool.opened id a e.id amount time])
    (fresh : ∀ p ∈ v'.pools, p.entryId ≠ e.id) : v.Drawn v'' := by
  refine ⟨_, by rw [pools]; exact List.mem_append_right _ (List.mem_singleton_self _), ?_⟩
  intro q held same
  obtain ⟨q', held', credit⟩ := since.kept q held
  exact absurd (credit.trans same) (fresh q' held')

/-- A pool that has less left than it had has no more after a debit; and where all pools stand as
they stood, the debit takes from one of them. -/
theorem drawn_of_debit (since : v.Since v' new) (ids : (v'.pools.map (·.id)).Nodup)
    (credits : (v'.pools.map (·.entryId)).Nodup)
    (covered : allocate v'.openPools amount = .ok allocations)
    (pools : v''.pools = v'.pools.map (·.drawnBy time allocations)) : v.Drawn v'' := by
  have listed {p : CreditPool} (held : p ∈ v'.pools) : p.drawnBy time allocations ∈ v''.pools := by
    rw [pools]
    exact List.mem_map_of_mem held
  by_cases reversals : ∀ e ∈ new, e.isReversal = true
  · obtain ⟨p, held, less⟩ := exists_drawn time covered ids
    refine ⟨_, listed held, fun q held' same => ?_⟩
    rw [← since.still reversals] at held'
    rw [CreditPool.entryId_drawnBy] at same
    rwa [List.inj_on_of_nodup_map credits held' held same]
  · push Not at reversals
    obtain ⟨earlier, member, other⟩ := reversals
    obtain ⟨p, held, less⟩ := since.drawn earlier member (Bool.eq_false_iff.mpr other)
    refine ⟨_, listed held, fun q held' same => ?_⟩
    rw [CreditPool.entryId_drawnBy] at same
    exact Int.lt_of_le_of_lt (remaining_drawnBy_le covered ids held) (less q held' same)

/-- One more entry. -/
theorem step (since : v.Since v' new) (conserved : v'.Conserved)
    (ids : (v'.pools.map (·.id)).Nodup) (credits : (v'.pools.map (·.entryId)).Nodup)
    (entries : v''.entries = v'.entries ++ [e]) (booked : Booked c v' e v'') :
    v.Since v'' (new ++ [e]) := by
  cases booked with
  | credit plain kind sources positive pools fresh row' balance' changed =>
    have unreverting : e.isReversal = false := by simp [Entry.isReversal, plain]
    have worth : e.worth = e.amount.val := by simp [Entry.worth, unreverting, kind]
    refine since.concat entries (worth ▸ points_of_credit balance' changed) ?_
      (.inr ⟨unreverting, since.drawn_of_credit pools fresh⟩)
    exact fun p held => ⟨p, by rw [pools]; exact List.mem_append_left _ held, rfl⟩
  | debit plain kind allocations covered sources pools row row' balance balance' changed =>
    have unreverting : e.isReversal = false := by simp [Entry.isReversal, plain]
    have worth : e.worth = -e.amount.val := by simp [Entry.worth, kind]
    have points := points_of_taken (allocate_eq_ok covered).1 balance balance' changed
    refine since.concat entries (worth ▸ points) ?_
      (.inr ⟨unreverting, since.drawn_of_debit ids credits covered pools⟩)
    exact fun p held => ⟨p.drawnBy e.createdAt allocations,
      by rw [pools]; exact List.mem_map_of_mem held, CreditPool.entryId_drawnBy p⟩
  | reversal original member reverts sources kind amount reference pools row row' balance balance'
      changed =>
    have reverting : e.isReversal = true := by simp [Entry.isReversal, reverts]
    have worth : e.worth = -e.amount.val := by simp [Entry.worth, reverting]
    have positive : 0 < e.amount.val := amount ▸ conserved.positive original member
    have points := points_of_taken positive balance balance' changed
    exact since.concat entries (worth ▸ points) (fun p held => ⟨p, pools ▸ held, rfl⟩)
      (.inl ⟨reverting, pools⟩)

end Since
end AccountRows

/-- After more calls the rows of an account have come on by new entries. -/
theorem Books.since_of_applyAll {first later : List Call}
    (apart : (first ++ later).Pairwise Call.Apart) (a : Account) :
    ∃ new, ((applyAll {} first).2.rows a).Since ((applyAll {} (first ++ later)).2.rows a) new := by
  induction later using List.reverseRecOn with
  | nil =>
    rw [List.append_nil]
    exact ⟨[], AccountRows.since_refl _⟩
  | append_singleton later c ih =>
    rw [← List.append_assoc] at apart ⊢
    obtain ⟨apart, -, -⟩ := List.pairwise_append.mp apart
    obtain ⟨new, since⟩ := ih apart
    have distinct := (sourced_applyAll apart).distinct apart
    have served : (({} : Memory).serve (first ++ later)).2.books =
        (applyAll {} (first ++ later)).2 :=
      (Memory.serve_eq_applyAll Memory.atRest_empty _).2.1
    rw [applyAll_concat]
    rcases apply_cases distinct c with same | ⟨e, posted⟩
    · exact ⟨new, same.symm ▸ since⟩
    · by_cases own : a = e.account
      · subst own
        have conserved := Memory.conserved_of_serve apart e.account
        have rebuilt := Memory.rebuilt_of_serve apart e.account
        rw [served] at conserved rebuilt
        refine ⟨new ++ [e], since.step conserved (distinct.sublist (List.filter_sublist.map _))
          rebuilt.distinct ?_ posted.booked⟩
        simp [rows, posted.entries]
      · exact ⟨new, (posted.others a own).symm ▸ since⟩

/-! ### The report -/

namespace Rebuilt

variable {v middle late : AccountRows} {new : List Entry} {pools : List CreditPool}

/-- A pool that has less left than the replay says is listed. -/
theorem storedDrift_ne_nil (rebuilt : Rebuilt v (replay v.entries)) (drawn : v.Drawn middle)
    (listed : ∀ p, p ∈ pools ↔ p ∈ middle.pools) :
    storedDrift pools (replay v.entries).pools ≠ [] := by
  obtain ⟨p, held, less⟩ := drawn
  intro none
  have confirmed := List.filterMap_eq_nil_iff.mp none p ((listed p).mpr held)
  have same : (replay v.entries).pools.get? p.entryId = some p.remaining := by
    by_contra other
    simp [other] at confirmed
  have found := same
  rw [Remainders.get?_eq_find?, Option.map_eq_some_iff] at found
  obtain ⟨row, here, -⟩ := found
  obtain ⟨q, held', credit⟩ := rebuilt.known row (List.mem_of_find?_eq_some here)
  have credit : q.entryId = p.entryId := credit.trans (by simpa using List.find?_some here)
  have before := rebuilt.pools q held'
  rw [credit, same] at before
  have less := less q held' credit
  rw [Option.some.inj before] at less
  exact Int.lt_irrefl _ less

/-- The pools show no drift where only reversals were committed before they were read. -/
theorem poolDrift_eq_nil_iff (rebuilt : Rebuilt v (replay v.entries))
    (since : v.Since middle new) (listed : ∀ p, p ∈ pools ↔ p ∈ middle.pools) (a : Account)
    (balance : Option Balance) :
    (reconcile a v.entries pools balance).poolDrift = [] ↔ ∀ e ∈ new, e.isReversal = true := by
  constructor
  · intro none e member
    by_contra plain
    have drawn := since.drawn e member (Bool.eq_false_iff.mpr plain)
    exact rebuilt.storedDrift_ne_nil drawn listed (List.append_eq_nil_iff.mp none).1
  · intro reversals
    rw [since.still reversals] at listed
    exact (rebuilt.reconcile_eq a listed).2.1

/-- The balances agree where what was committed in between adds up to nothing. -/
theorem storedBalance_eq_iff (rebuilt : Rebuilt v (replay v.entries)) (since : v.Since late new) :
    (late.balance.map (·.balance)).getD Amount.zero = (replay v.entries).balance ↔
      (new.map Entry.worth).sum = 0 := by
  have stored : ((late.balance.map (·.balance)).getD Amount.zero).val = late.points := rfl
  have replayed := rebuilt.balance
  have points := since.points
  constructor
  · intro same
    rw [same] at stored
    omega
  · exact fun zero => Amount.ext (by omega)

theorem consistent_iff (rebuilt : Rebuilt v (replay v.entries)) {new' : List Entry}
    (since : v.Since middle new) (since' : v.Since late new')
    (listed : ∀ p, p ∈ pools ↔ p ∈ middle.pools) (a : Account) :
    (reconcile a v.entries pools late.balance).consistent = true ↔
      (∀ e ∈ new, e.isReversal = true) ∧ (new'.map Entry.worth).sum = 0 := by
  rw [← rebuilt.poolDrift_eq_nil_iff since listed a late.balance,
    ← rebuilt.storedBalance_eq_iff since', and_comm]
  simp [reconcile]

end Rebuilt

/-! ### Reads that meet a store at different times -/

/-- What a program that only asks comes to when each request meets the store at a time of its
own. -/
def Program.across {α : Type} : Program α → List Memory → Option α
  | .done value, [] => some value
  | .ask request next, m :: later => do (next (← (m.perform request).1)).across later
  | .report _ next, times => next.across times
  | _, _ => none

theorem Ledger.across_reconcile (a : Account) (first second third : Memory) :
    (Ledger.reconcile a).across [first, second, third] =
      some (.ok (PointLedger.reconcile a (first.books.findEntries (.chain a))
        (second.books.findPools (.all a)) (third.books.findBalance a))) := rfl

/-- The entries of an account that were committed since. -/
def Books.newEntries (earlier later : Books) (a : Account) : List Entry :=
  (later.rows a).entries.drop (earlier.rows a).entries.length

theorem AccountRows.Since.new_eq {v v' : AccountRows} {new : List Entry} (since : v.Since v' new) :
    v'.entries.drop v.entries.length = new := by
  rw [since.entries, List.drop_left]

namespace Concurrent

variable {ι : Type} [DecidableEq ι] {calls : ι → Call} {early late : List ι}

/-- The rows of an account at two times of a schedule. -/
theorem exists_since (apart : ∀ i j, i ≠ j → (calls i).Apart (calls j)) (before : early <+: late)
    (a : Account) :
    ∃ new, ((run calls early).memory.books.rows a).Since ((run calls late).memory.books.rows a)
      new := by
  obtain ⟨order, g, explains, earlier⟩ := exists_explains apart late
  obtain ⟨order₀, g₀, explains₀, rest, rfl⟩ := earlier early before
  have all := explains.ordered.apart apart
  rw [List.map_append] at all
  rw [← explains.ordered.books, ← explains₀.ordered.books, List.map_append]
  exact Books.since_of_applyAll all a

/-- At any time of a schedule the replay of an account keeps up with its rows. -/
theorem rebuilt (apart : ∀ i j, i ≠ j → (calls i).Apart (calls j)) (schedule : List ι)
    (a : Account) :
    let v := (run calls schedule).memory.books.rows a
    Rebuilt v (replay v.entries) := by
  obtain ⟨order, g, explains, -⟩ := exists_explains apart schedule
  have kept := Memory.rebuilt_of_serve (explains.ordered.apart apart) a
  rwa [(Memory.serve_eq_applyAll Memory.atRest_empty _).2.1, explains.ordered.books] at kept

/-- The report on an account that calls go on to change is consistent exactly when only reversals
were committed between the reads of its entries and of its pools, and what was committed between
the reads of its entries and of its balance adds up to nothing. So it is when nothing of the account
is committed in between, and otherwise it shows what was, although every row agrees with the
entries. -/
theorem reconcile_consistent_iff (calls : ι → Call)
    (apart : ∀ i j, i ≠ j → (calls i).Apart (calls j)) {early middle late : List ι}
    (first : early <+: middle) (second : middle <+: late)
    (fits : ({} : Concurrent ι).ClockInRange calls early) (a : Account) :
    let store (schedule : List ι) := (run calls schedule).memory
    ∃ report,
      (Ledger.reconcile a).across [store early, store middle, store late] = some (.ok report) ∧
      (report.consistent = true ↔
        (∀ e ∈ (store early).books.newEntries (store middle).books a, e.isReversal = true) ∧
        (((store early).books.newEntries (store late).books a).map Entry.worth).sum = 0) := by
  intro store
  refine ⟨_, Ledger.across_reconcile a _ _ _, ?_⟩
  obtain ⟨new, since⟩ := exists_since apart first a
  obtain ⟨new', since'⟩ := exists_since apart (first.trans second) a
  rw [Books.findEntries_chain (Concurrent.chained apart early fits a), Books.newEntries,
    Books.newEntries, since.new_eq, since'.new_eq]
  exact (Concurrent.rebuilt apart early a).consistent_iff since since'
    (fun p => Books.mem_findPools_all) a

/-- The debit shows that is committed after the entries are read. -/
theorem reconcile_consistent_iff_debit_in_between :
    let calls (i : Fin 2) := Call.numbered i (.add
      ⟨"acme", "ann", if i = 0 then .credit else .debit, ⟨10, by decide⟩,
        if i = 0 then "first" else "second", "", []⟩)
    let ann : Account := ⟨"acme", "ann"⟩
    let early : List (Fin 2) := List.replicate 30 0
    let late := early ++ List.replicate 30 1
    let store (schedule : List (Fin 2)) := (run calls schedule).memory
    ((store early).books.newEntries (store late).books ann).map Entry.worth = [-10] ∧
    ∃ report,
      (Ledger.reconcile ann).across [store early, store late, store late] = some (.ok report) ∧
      (report.consistent = true ↔
        (∀ e ∈ (store early).books.newEntries (store late).books ann, e.isReversal = true) ∧
        (((store early).books.newEntries (store late).books ann).map Entry.worth).sum = 0) := by
  intro calls ann early late store
  have apart : ∀ i j, i ≠ j → (calls i).Apart (calls j) := fun i j different =>
    Call.numbered_apart (Fin.val_ne_of_ne different) (by omega) (by omega)
  have fits : ({} : Concurrent (Fin 2)).ClockInRange calls early := by
    decide +kernel
  exact ⟨by decide +kernel, @reconcile_consistent_iff (Fin 2) _ calls apart early late late
    (List.prefix_append early _) List.prefix_rfl fits ann⟩

/-- A credit is committed between the reads of the entries and of the pools: the report shows drift
where every row agrees with the entries. -/
theorem reconcile_alarm_without_drift :
    let calls (i : Fin 1) := Call.numbered i (.add
      ⟨"acme", "ann", .credit, ⟨10, by decide⟩, "first", "", []⟩)
    let ann : Account := ⟨"acme", "ann"⟩
    let late : List (Fin 1) := List.replicate 30 0
    let store (schedule : List (Fin 1)) := (run calls schedule).memory
    let reported (times : List Memory) :=
      ((Ledger.reconcile ann).across times).map (·.map (·.consistent))
    ¬ (reported [store [], store late, store late] = some (.ok true)) ∧
      reported [store [], store late, store late] = some (.ok false) ∧
      reported [store late, store late, store late] = some (.ok true) := by
  decide +kernel

end Concurrent
end PointLedger
