import PointLedger.Proofs.Reconciliation

/-!
What a reconciliation reports. The replay keeps its remainders sorted by the ids of the credits, so
no credit stands in it twice. Of every credit the report has one record when the stored and the
replayed remainder differ, on whichever side it is missing, and no record when they agree.
-/

namespace PointLedger

/-! ### The replayed remainders -/

namespace Remainders

/-- The remainders are sorted by the ids of the credits. -/
def Ascending (r : Remainders) : Prop :=
  r.Pairwise fun row row' => row.1.uuid.value < row'.1.uuid.value

theorem Ascending.set {r : Remainders} (ascending : r.Ascending) (id : EntryId) (amount : Amount) :
    (r.set id amount).Ascending := by
  refine pairwise_upsert (fun row : EntryId × Amount => row.1.uuid.value) ?_ ?_ ascending
  · intro row
    rw [beq_iff_eq]
    refine ⟨fun same => same ▸ rfl, fun same => ?_⟩
    obtain ⟨⟨⟨value, _⟩⟩, _⟩ := row
    obtain ⟨⟨value', _⟩⟩ := id
    obtain rfl : value = value' := same
    rfl
  · intro row
    exact decide_eq_true_iff

theorem Ascending.nodup {r : Remainders} (ascending : r.Ascending) : (r.map (·.1)).Nodup := by
  refine List.pairwise_map.mpr (ascending.imp fun {row row'} before same => ?_)
  rw [same] at before
  exact Nat.lt_irrefl _ before

end Remainders

namespace ReplayedState

theorem ascending_draws {r : Remainders} (ascending : r.Ascending)
    (sources : List AllocationSource) : Remainders.Ascending (sources.foldl draw r) := by
  induction sources generalizing r with
  | nil => exact ascending
  | cons source rest ih => exact ih (ascending.set _ _)

theorem ascending_apply {s : ReplayedState} (ascending : s.pools.Ascending) (e : Entry) :
    (s.apply e).pools.Ascending := by
  unfold apply
  split
  · exact ascending
  · split
    · exact ascending.set e.id e.amount
    · exact ascending_draws ascending _

end ReplayedState

theorem ascending_replay (entries : List Entry) : (replay entries).pools.Ascending := by
  induction entries using List.reverseRecOn with
  | nil => exact List.Pairwise.nil
  | append_singleton entries e ih =>
    rw [replay_concat]
    exact ReplayedState.ascending_apply ih e

/-! ### One credit through a replay -/

/-- What is left of a credit after a debit has drawn a slice. -/
def AllocationSource.remainderAfter (id : EntryId) (left : Option Amount)
    (source : AllocationSource) : Option Amount :=
  if source.entryId = id then some ((left.getD Amount.zero).subClamped source.amount) else left

/-- What is left of a credit after an entry: the credit itself sets it, a debit takes off each slice
that it drew on the credit, even one that is not known, and a reversal leaves it alone. -/
def Entry.remainderAfter (id : EntryId) (left : Option Amount) (e : Entry) : Option Amount :=
  if e.isReversal then left
  else match e.kind with
    | .credit => if e.id = id then some e.amount else left
    | .debit => e.metadata.sources.foldl (AllocationSource.remainderAfter id) left

namespace ReplayedState

theorem get?_foldl_draw (sources : List AllocationSource) (r : Remainders) (id : EntryId) :
    (sources.foldl draw r).get? id =
      sources.foldl (AllocationSource.remainderAfter id) (r.get? id) := by
  induction sources generalizing r with
  | nil => rfl
  | cons source rest ih =>
    have drawn : (draw r source).get? id =
        AllocationSource.remainderAfter id (r.get? id) source := by
      rw [draw, Remainders.get?_set, AllocationSource.remainderAfter]
      by_cases own : source.entryId = id <;> simp [own]
    rw [List.foldl_cons, ih, drawn, List.foldl_cons]

theorem get?_apply (s : ReplayedState) (e : Entry) (id : EntryId) :
    (s.apply e).pools.get? id = e.remainderAfter id (s.pools.get? id) := by
  unfold apply Entry.remainderAfter
  cases e.isReversal with
  | true => rfl
  | false =>
    cases e.kind with
    | credit =>
      refine (Remainders.get?_set _ _ _ _).trans ?_
      by_cases own : e.id = id <;> simp [own]
    | debit => exact get?_foldl_draw _ _ id

end ReplayedState

/-- The replay leaves of a credit what its history leaves of it. -/
theorem get?_replay (entries : List Entry) (id : EntryId) :
    (replay entries).pools.get? id = entries.foldl (Entry.remainderAfter id) none := by
  induction entries using List.reverseRecOn with
  | nil => rfl
  | append_singleton entries e ih =>
    rw [replay_concat, ReplayedState.get?_apply, ih, List.foldl_append]
    rfl

/-! ### The report -/

section Report

variable {pools : List CreditPool} {replayed : Remainders}

/-- The record of a credit with a stored pool. -/
theorem storedDrift_filter (distinct : (pools.map (·.entryId)).Nodup) (id : EntryId) :
    (storedDrift pools replayed).filter (·.entryId == id) =
      match pools.find? (·.entryId == id) with
      | none => []
      | some p =>
        if replayed.get? id = some p.remaining then []
        else [⟨id, some p.id, some p.remaining, replayed.get? id⟩] := by
  have kept : ∀ (p : CreditPool) (d : PoolDrift),
      (if replayed.get? p.entryId = some p.remaining then none
        else some (⟨p.entryId, some p.id, some p.remaining, replayed.get? p.entryId⟩ : PoolDrift)) =
        some d → d.entryId = p.entryId := by
    intro p d made
    split at made <;> cases made
    rfl
  refine (filter_key_filterMap distinct kept id).trans ?_
  cases found : pools.find? (·.entryId == id) with
  | none => rfl
  | some p =>
    have own : p.entryId = id := by simpa using List.find?_some found
    simp only [Option.bind_some, own]
    split <;> rfl

/-- The record of a credit that is replayed and has no stored pool. -/
theorem missingDrift_filter (ascending : replayed.Ascending) (id : EntryId) :
    (missingDrift pools replayed).filter (·.entryId == id) =
      match pools.find? (·.entryId == id), replayed.get? id with
      | none, some left => [⟨id, none, none, some left⟩]
      | _, _ => [] := by
  have kept : ∀ (row : EntryId × Amount) (d : PoolDrift),
      (if pools.any (·.entryId == row.1) then none
        else some (⟨row.1, none, none, some row.2⟩ : PoolDrift)) = some d →
        d.entryId = row.1 := by
    intro row d made
    split at made <;> cases made
    rfl
  refine (filter_key_filterMap ascending.nodup kept id).trans ?_
  have present : pools.any (·.entryId == id) = (pools.find? (·.entryId == id)).isSome :=
    (List.isSome_find? ..).symm
  rw [Remainders.get?_eq_find?]
  cases found : replayed.find? (·.1 == id) with
  | none => cases pools.find? (·.entryId == id) <;> rfl
  | some row =>
    have own : row.1 = id := by simpa using List.find?_some found
    rw [Option.bind_some, own, present]
    cases pools.find? (·.entryId == id) <;> rfl

/-- What there is to report of a credit: nothing when its stored pool holds what the replay says,
otherwise one record with both. -/
def driftOf (id : EntryId) (stored : Option CreditPool) (replayed : Option Amount) :
    List PoolDrift :=
  if stored.map (·.remaining) = replayed then []
  else [⟨id, stored.map (·.id), stored.map (·.remaining), replayed⟩]

theorem driftOf_eq_nil_iff {id : EntryId} {stored : Option CreditPool} {replayed : Option Amount} :
    driftOf id stored replayed = [] ↔ stored.map (·.remaining) = replayed := by
  simp [driftOf]

theorem drift_filter (distinct : (pools.map (·.entryId)).Nodup) (ascending : replayed.Ascending)
    (id : EntryId) :
    (storedDrift pools replayed ++ missingDrift pools replayed).filter (·.entryId == id) =
      driftOf id (pools.find? (·.entryId == id)) (replayed.get? id) := by
  rw [List.filter_append, storedDrift_filter distinct, missingDrift_filter ascending, driftOf]
  cases pools.find? (·.entryId == id) with
  | none => cases replayed.get? id <;> rfl
  | some p => simp [eq_comm]

end Report

/-- No record stands for no credit. -/
theorem drift_eq_nil_iff {drift : List PoolDrift} :
    drift = [] ↔ ∀ id, drift.filter (·.entryId == id) = [] := by
  constructor
  · rintro rfl id
    rfl
  · intro none
    refine List.eq_nil_iff_forall_not_mem.mpr fun d member => ?_
    exact List.filter_eq_nil_iff.mp (none d.entryId) d member (beq_self_eq_true _)

/-- The report of a reconciliation has of every credit exactly one record when the stored and the
replayed remainder differ, with what there is on both sides, and none when they agree. It calls the
account consistent exactly when the balances agree and all remainders do. -/
theorem reconcile_reports_drift (a : Account) (entries : List Entry) {pools : List CreditPool}
    (distinct : (pools.map (·.entryId)).Nodup) (balance : Option Balance) :
    let report := reconcile a entries pools balance
    let stored (id : EntryId) := pools.find? (·.entryId == id)
    let replayed (id : EntryId) := (replay entries).pools.get? id
    (∀ id, replayed id = entries.foldl (Entry.remainderAfter id) none) ∧
      (∀ id, report.poolDrift.filter (·.entryId == id) = driftOf id (stored id) (replayed id)) ∧
      (report.consistent = true ↔
        (balance.map (·.balance)).getD Amount.zero = (replay entries).balance ∧
          ∀ id, (stored id).map (·.remaining) = replayed id) := by
  intro report stored replayed
  have records : ∀ id, report.poolDrift.filter (·.entryId == id) =
      driftOf id (stored id) (replayed id) :=
    drift_filter distinct (ascending_replay entries)
  refine ⟨get?_replay entries, records, ?_⟩
  have consistent : report.consistent = true ↔
      (balance.map (·.balance)).getD Amount.zero = (replay entries).balance ∧
        report.poolDrift = [] := by
    simp [report, reconcile]
  rw [consistent, drift_eq_nil_iff]
  simp only [records, driftOf_eq_nil_iff]

/-- A debit on a credit that no entry made, a pool that no entry accounts for, and a pool that
agrees. -/
theorem reconcile_reports_drift_unknown_source :
    let id (n : Nat) : EntryId := ⟨Uuid.ofNat n⟩
    let a : Account := ⟨"acme", "ann"⟩
    let credit : Entry := { (default : Entry) with
      id := id 1, kind := .credit, amount := ⟨10, by decide⟩ }
    let debit : Entry := { (default : Entry) with
      id := id 2, kind := .debit, amount := ⟨5, by decide⟩
      metadata := { sources := [⟨id 1, ⟨3, by decide⟩⟩, ⟨id 7, ⟨2, by decide⟩⟩] } }
    let pools := [
      CreditPool.opened ⟨Uuid.ofNat 3⟩ a (id 1) ⟨7, by decide⟩ Timestamp.epoch,
      CreditPool.opened ⟨Uuid.ofNat 4⟩ a (id 8) ⟨4, by decide⟩ Timestamp.epoch]
    let report := reconcile a [credit, debit] pools none
    (pools.map (·.entryId)).Nodup ∧
      report.poolDrift = [
        ⟨id 8, some ⟨Uuid.ofNat 4⟩, some ⟨4, by decide⟩, none⟩,
        ⟨id 7, none, none, some ⟨-2, by decide⟩⟩] ∧
      (∀ n, report.poolDrift.filter (·.entryId == id n) =
        driftOf (id n) (pools.find? (·.entryId == id n))
          ((replay [credit, debit]).pools.get? (id n))) ∧
      report.consistent = false := by
  intro id a credit debit pools report
  have distinct : (pools.map (·.entryId)).Nodup := by decide
  refine ⟨distinct, by decide, fun n => ?_, by decide⟩
  exact (reconcile_reports_drift a [credit, debit] distinct none).2.1 (id n)

end PointLedger
