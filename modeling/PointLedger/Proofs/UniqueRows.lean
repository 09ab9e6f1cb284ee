import PointLedger.Proofs.Catalogue
import PointLedger.Proofs.StoreUse

/-!
What a store keeps unique, whoever uses it and however transactions interleave. References and
balance rows are checked once more when a transaction commits, so no two committed rows ever share
a key. Pools are checked only when they are staged: no account ever has two pools of one credit, but
transactions of two accounts can each commit a pool of the same credit.
-/

namespace PointLedger

/-! ### References and balance rows -/

namespace Books

/-- No two entries share a reference in an organization, and no two balance rows an account. -/
structure Distinct (b : Books) : Prop where
  entries : (b.entries.map Entry.key).Nodup
  balances : (b.balances.map Balance.account).Nodup

theorem nodup_foldl_putBalance {rows : List Balance} (puts : List Balance)
    (distinct : (rows.map Balance.account).Nodup) :
    ((puts.foldl Transaction.putBalance rows).map Balance.account).Nodup := by
  induction puts generalizing rows with
  | nil => exact distinct
  | cons row rest ih => exact ih (nodup_map_upsert distinct)

theorem nodup_append_entries {old new : List Entry} (distinctOld : (old.map Entry.key).Nodup)
    (distinctNew : (new.map Entry.key).Nodup)
    (free : ∀ e ∈ new, old.any (·.hasReference e.organizationId e.referenceId) = false) :
    ((old ++ new).map Entry.key).Nodup := by
  rw [List.map_append]
  refine List.nodup_append.mpr ⟨distinctOld, distinctNew, ?_⟩
  intro key taken key' asked same
  obtain ⟨e', member', rfl⟩ := List.mem_map.mp taken
  obtain ⟨e, member, rfl⟩ := List.mem_map.mp asked
  exact List.any_eq_false.mp (free e member) e' member' (Entry.hasReference_iff.mpr same)

/-- A commit refuses every reference that was taken since the transaction staged it. -/
theorem Distinct.commit {b b' : Books} {t : Transaction} (distinct : b.Distinct)
    (staged : (t.entries.map Entry.key).Nodup) (committed : b.commit t = .ok b') :
    b'.Distinct := by
  obtain ⟨free, -, -, rfl⟩ := commit_eq_ok committed
  refine ⟨nodup_append_entries distinct.entries staged ?_,
    nodup_foldl_putBalance _ distinct.balances⟩
  intro e member
  simpa [hasReferenceOf] using List.any_eq_false.mp free e member

/-- The row found for an account is the one committed row of that account. -/
theorem Distinct.findBalance_eq_some_iff {b : Books} (distinct : b.Distinct) {a : Account}
    {row : Balance} : b.findBalance a = some row ↔ row ∈ b.balances ∧ row.account = a := by
  refine ⟨mem_of_findBalance, ?_⟩
  rintro ⟨member, rfl⟩
  exact find?_of_mem_of_nodup Balance.account distinct.balances member

end Books

/-- Staging an entry keeps the references of a transaction distinct. -/
theorem Transaction.Becomes.nodup_entries {b : Books} {t t' : Transaction} {request : Request}
    (becomes : t.Becomes b request t') (distinct : (t.entries.map Entry.key).Nodup) :
    (t'.entries.map Entry.key).Nodup := by
  cases becomes with
  | entry tx e _ unstaged _ =>
    refine Books.nodup_append_entries distinct (List.nodup_singleton _) ?_
    intro e' member
    rw [List.mem_singleton.mp member]
    exact unstaged
  | _ => exact distinct

namespace Memory

theorem upheld_distinct :
    Upheld (fun _ => True) Books.Distinct fun _ t => (t.entries.map Entry.key).Nodup where
  empty := ⟨List.nodup_nil, List.nodup_nil⟩
  begun _ _ := List.nodup_nil
  staged _ _ _ _ _ _ distinct becomes := becomes.nodup_entries distinct
  committed _ _ _ distinct staged committed := distinct.commit staged committed
  others _ _ _ _ _ _ distinct _ _ := distinct

/-- No step changes or removes a committed entry. -/
theorem entries_prefix_step (m : Memory) (s : StoreStep) :
    m.books.entries <+: (m.step s).books.entries := by
  cases m.evolves_step s with
  | nothing books _ | ended _ books _ | changed _ _ _ _ _ _ _ books _ => rw [books]
  | begun same => rw [same, perform]
  | committed _ t _ accepted _ =>
    obtain ⟨-, -, -, books⟩ := Books.commit_eq_ok accepted
    rw [books]
    exact List.prefix_append _ _

theorem entries_prefix_steps (m : Memory) (more : List StoreStep) :
    m.books.entries <+: (m.steps more).books.entries := by
  induction more generalizing m with
  | nil => exact List.prefix_rfl
  | cons first rest ih => exact (m.entries_prefix_step first).trans (ih (m.step first))

/-- After any use of an empty store no two committed entries share a reference in an organization,
every account has at most one balance row and is found under its own name, and every entry that
was committed at an earlier moment is there unchanged, in its place. -/
theorem rows_unique (steps : List StoreStep) :
    let b := (({} : Memory).steps steps).books
    (b.entries.map Entry.key).Nodup ∧ (b.balances.map Balance.account).Nodup ∧
      (∀ a row, b.findBalance a = some row ↔ row ∈ b.balances ∧ row.account = a) ∧
      ∀ earlier, earlier <+: steps → (({} : Memory).steps earlier).books.entries <+: b.entries := by
  have distinct := (upheld_distinct.steps steps fun _ _ => trivial).books
  refine ⟨distinct.entries, distinct.balances, fun a row => distinct.findBalance_eq_some_iff, ?_⟩
  rintro earlier ⟨later, rfl⟩
  rw [steps_append]
  exact entries_prefix_steps _ later

end Memory

/-! ### Pools -/

/-- What a pool stands for: a credit of an account. -/
def CreditPool.credit (p : CreditPool) : Account × EntryId := (p.account, p.entryId)

/-- The row of a pool that a step asks to write. -/
def StoreStep.poolRow? : StoreStep → Option CreditPool
  | .request (.createPool _ p) | .request (.updatePool _ p) => some p
  | _ => none

/-- A pool that is written is one of the rows, and a change of a pool leaves the credit that it
stands for as it is. -/
def Request.KeepsCredit (rows : List CreditPool) : Request → Prop
  | .createPool _ p => p ∈ rows
  | .updatePool _ p => p ∈ rows ∧ ∀ q ∈ rows, q.id = p.id → q.credit = p.credit
  | _ => True

section Pools

variable {rows : List CreditPool} {b b' : Books} {t t' : Transaction}

/-- No two committed pools stand for one credit of one account. -/
structure Books.PoolsDistinct (rows : List CreditPool) (b : Books) : Prop where
  credits : (b.pools.map CreditPool.credit).Nodup
  written : ∀ p ∈ b.pools, p ∈ rows

/-- No pool that the transaction creates stands for the credit of another that it creates or that
is committed, and no change of a pool gives it another credit. -/
structure Transaction.PoolsDistinct (rows : List CreditPool) (b : Books) (t : Transaction) :
    Prop where
  credits : (t.newPools.map CreditPool.credit).Nodup
  written : ∀ p ∈ t.newPools, p ∈ rows
  own : ∀ p ∈ t.newPools, p.account.lockKey ∈ t.locks
  free : ∀ p ∈ t.newPools, ∀ q ∈ b.pools, q.credit ≠ p.credit
  updates : ∀ p ∈ t.poolUpdates, p ∈ rows ∧ ∀ q ∈ rows, q.id = p.id → q.credit = p.credit

namespace Transaction

theorem PoolsDistinct.createPool {p : CreditPool} (held : t.PoolsDistinct rows b)
    (written : p ∈ rows) (own : p.account.lockKey ∈ t.locks)
    (unstaged : ∀ q ∈ t.newPools, q.entryId ≠ p.entryId)
    (uncommitted : ∀ q ∈ b.pools, q.entryId ≠ p.entryId) :
    PoolsDistinct rows b { t with newPools := t.newPools ++ [p] } := by
  have or_new {q : CreditPool} (member : q ∈ t.newPools ++ [p]) : q ∈ t.newPools ∨ q = p :=
    (List.mem_append.mp member).imp_right List.mem_singleton.mp
  refine ⟨?_, ?_, ?_, ?_, held.updates⟩
  · rw [List.map_append]
    refine List.nodup_append.mpr ⟨held.credits, List.nodup_singleton _, ?_⟩
    intro old taken new asked same
    obtain ⟨q, member, rfl⟩ := List.mem_map.mp taken
    rw [List.map_singleton, List.mem_singleton] at asked
    exact unstaged q member (congrArg Prod.snd (same.trans asked))
  · intro q member
    rcases or_new member with old | rfl
    · exact held.written q old
    · exact written
  · intro q member
    rcases or_new member with old | rfl
    · exact held.own q old
    · exact own
  · intro q member committed there same
    rcases or_new member with old | rfl
    · exact held.free q old committed there same
    · exact uncommitted committed there (congrArg Prod.snd same)

theorem PoolsDistinct.updateNewPool {p : CreditPool} (held : t.PoolsDistinct rows b)
    (written : p ∈ rows) (kept : ∀ q ∈ rows, q.id = p.id → q.credit = p.credit)
    (own : p.account.lockKey ∈ t.locks) (staged : ∃ q ∈ t.newPools, q.id = p.id) :
    PoolsDistinct rows b
      { t with newPools := upsert (·.id == p.id) (fun _ => false) p t.newPools } := by
  refine ⟨?_, ?_, ?_, ?_, held.updates⟩
  · rw [map_upsert_of_mem CreditPool.credit (by simpa using staged)]
    · exact held.credits
    · intro q member same
      exact kept q (held.written q member) (eq_of_beq same)
  · intro q member
    rcases mem_of_mem_upsert member with rfl | old
    · exact written
    · exact held.written q old
  · intro q member
    rcases mem_of_mem_upsert member with rfl | old
    · exact own
    · exact held.own q old
  · intro q member committed there same
    rcases mem_of_mem_upsert member with rfl | old
    · obtain ⟨before, member, same_id⟩ := staged
      have credit := kept before (held.written before member) same_id
      exact held.free before member committed there (same.trans credit.symm)
    · exact held.free q old committed there same

theorem PoolsDistinct.becomes {request : Request} (held : t.PoolsDistinct rows b)
    (keeps : request.KeepsCredit rows) (becomes : t.Becomes b request t') :
    t'.PoolsDistinct rows b := by
  cases becomes with
  | locked tx a =>
    refine ⟨held.credits, held.written, ?_, held.free, held.updates⟩
    intro p member
    exact List.mem_append_left _ (held.own p member)
  | pool tx p own unstaged uncommitted =>
    exact held.createPool keeps own unstaged uncommitted
  | newPool tx p own staged => exact held.updateNewPool keeps.1 keeps.2 own staged
  | oldPool tx p own after committed =>
    refine ⟨held.credits, held.written, held.own, held.free, ?_⟩
    intro q member
    rcases mem_of_mem_upsert member with rfl | old
    · exact keeps
    · exact held.updates q old
  | entry _ _ _ _ _ | balance _ _ _ _ | newBalance _ _ _ | oldBalance _ _ _ _ =>
    exact ⟨held.credits, held.written, held.own, held.free, held.updates⟩

/-- A committed pool stands for its credit after the changes of a transaction too. -/
theorem PoolsDistinct.overlay (held : t.PoolsDistinct rows b) {p : CreditPool}
    (written : p ∈ rows) : t.overlay p ∈ rows ∧ (t.overlay p).credit = p.credit := by
  unfold Transaction.overlay
  cases changed : t.poolUpdates.find? (·.id == p.id) with
  | none => exact ⟨written, rfl⟩
  | some update =>
    have same : update.id = p.id := by simpa using List.find?_some changed
    obtain ⟨known, kept⟩ := held.updates update (List.mem_of_find?_eq_some changed)
    exact ⟨known, (kept p written same.symm).symm⟩

end Transaction

theorem Books.PoolsDistinct.commit (distinct : b.PoolsDistinct rows)
    (staged : t.PoolsDistinct rows b) (committed : b.commit t = .ok b') :
    b'.PoolsDistinct rows := by
  obtain ⟨-, -, -, rfl⟩ := commit_eq_ok committed
  have kept : (b.pools.map t.overlay).map CreditPool.credit = b.pools.map CreditPool.credit := by
    rw [List.map_map]
    exact List.map_congr_left fun p member => (staged.overlay (distinct.written p member)).2
  refine ⟨?_, ?_⟩
  · rw [List.map_append, kept]
    refine List.nodup_append.mpr ⟨distinct.credits, staged.credits, ?_⟩
    intro old taken new asked same
    obtain ⟨q, there, rfl⟩ := List.mem_map.mp taken
    obtain ⟨p, member, rfl⟩ := List.mem_map.mp asked
    exact staged.free p member q there same
  · intro p member
    rcases List.mem_append.mp member with old | new
    · obtain ⟨q, there, rfl⟩ := List.mem_map.mp old
      exact (staged.overlay (distinct.written q there)).1
    · exact staged.written p new

/-- Two transactions hold different locks, so neither commits a pool of the other's account. -/
theorem Transaction.PoolsDistinct.others {u : Transaction} (distinct : b.PoolsDistinct rows)
    (staged : t.PoolsDistinct rows b) (held : u.PoolsDistinct rows b)
    (apart : ∀ key ∈ t.locks, key ∉ u.locks) (committed : b.commit t = .ok b') :
    u.PoolsDistinct rows b' := by
  obtain ⟨-, -, -, rfl⟩ := Books.commit_eq_ok committed
  refine ⟨held.credits, held.written, held.own, ?_, held.updates⟩
  intro p member q there same
  rcases List.mem_append.mp there with old | new
  · obtain ⟨before, committed, rfl⟩ := List.mem_map.mp old
    rw [(staged.overlay (distinct.written before committed)).2] at same
    exact held.free p member before committed same
  · have owner : q.account = p.account := congrArg Prod.fst same
    exact apart _ (staged.own q new) (owner ▸ held.own p member)

end Pools

namespace Memory

theorem upheld_poolsDistinct (rows : List CreditPool) :
    Upheld (Request.KeepsCredit rows) (Books.PoolsDistinct rows)
      (Transaction.PoolsDistinct rows) where
  empty := ⟨List.nodup_nil, fun _ => nofun⟩
  begun _ _ := ⟨List.nodup_nil, fun _ => nofun, fun _ => nofun, fun _ => nofun, fun _ => nofun⟩
  staged _ keeps _ _ _ _ held becomes := held.becomes keeps becomes
  committed _ _ _ distinct staged committed := distinct.commit staged committed
  others _ _ _ _ distinct staged held apart committed := staged.others distinct held apart committed

/-- Two transactions at once, each of which creates a pool under the lock of its account and then
commits. -/
def poolsAtOnce (p q : CreditPool) : List StoreStep :=
  [.request .beginTx, .request .beginTx, .request (.lockAccount ⟨0⟩ p.account),
    .request (.lockAccount ⟨1⟩ q.account), .request (.createPool ⟨0⟩ p),
    .request (.createPool ⟨1⟩ q), .request (.commit ⟨0⟩), .request (.commit ⟨1⟩)]

/-- Where no change of a pool gives it another credit, no account ever has two pools of one credit;
and where each credit is named in pools of one account only, no two pools at all are of one
credit. -/
theorem one_pool_per_credit (steps : List StoreStep)
    (kept : ∀ tx p, .request (.updatePool tx p) ∈ steps →
      ∀ q ∈ steps.filterMap StoreStep.poolRow?, q.id = p.id → q.credit = p.credit) :
    let pools := (({} : Memory).steps steps).books.pools
    let rows := steps.filterMap StoreStep.poolRow?
    (pools.map CreditPool.credit).Nodup ∧
      ((∀ p ∈ rows, ∀ q ∈ rows, p.entryId = q.entryId → p.account = q.account) →
        (pools.map CreditPool.entryId).Nodup) := by
  have keeps : ∀ request, .request request ∈ steps →
      request.KeepsCredit (steps.filterMap StoreStep.poolRow?) := by
    intro request asked
    have written {p : CreditPool} (writes : (StoreStep.request request).poolRow? = some p) :
        p ∈ steps.filterMap StoreStep.poolRow? := List.mem_filterMap.mpr ⟨_, asked, writes⟩
    cases request with
    | createPool tx p => exact written rfl
    | updatePool tx p => exact ⟨written rfl, kept tx p asked⟩
    | _ => trivial
  have distinct := ((upheld_poolsDistinct _).steps steps keeps).books
  refine ⟨distinct.credits, ?_⟩
  intro owned
  refine List.Nodup.map_on ?_ (List.Nodup.of_map _ distinct.credits)
  intro p member q member' same
  have owner := owned p (distinct.written p member) q (distinct.written q member') same
  exact List.inj_on_of_nodup_map distinct.credits member member' (Prod.ext owner same)

/-- Ann's pool and Bob's, of a credit of each, created at once, and Ann's drawn on later. -/
theorem one_pool_per_credit_two_accounts :
    let ann := CreditPool.opened ⟨.ofNat 1⟩ ⟨"acme", "ann"⟩ ⟨.ofNat 3⟩ ⟨10, by decide⟩ .epoch
    let bob := CreditPool.opened ⟨.ofNat 2⟩ ⟨"acme", "bob"⟩ ⟨.ofNat 4⟩ ⟨10, by decide⟩ .epoch
    let drawn := { ann with remaining := ⟨6, by decide⟩ }
    let steps := poolsAtOnce ann bob ++ [.request .beginTx,
      .request (.lockAccount ⟨2⟩ ann.account), .request (.updatePool ⟨2⟩ drawn),
      .request (.commit ⟨2⟩)]
    let pools := (({} : Memory).steps steps).books.pools
    pools = [drawn, bob] ∧ (pools.map CreditPool.credit).Nodup ∧
      (pools.map CreditPool.entryId).Nodup := by
  intro ann bob drawn steps pools
  have rows : steps.filterMap StoreStep.poolRow? = [ann, bob, drawn] := by decide +kernel
  have unique := one_pool_per_credit steps
  rw [rows] at unique
  have kept : ∀ tx p, .request (.updatePool tx p) ∈ steps → ∀ q ∈ [ann, bob, drawn],
      q.id = p.id → q.credit = p.credit := by
    intro tx p asked
    obtain ⟨-, rfl⟩ : tx = ⟨2⟩ ∧ p = drawn := by simpa [steps, poolsAtOnce] using asked
    decide +kernel
  obtain ⟨credits, entries⟩ := unique kept
  exact ⟨by decide +kernel, credits, entries (by decide +kernel)⟩

/-- The credit of a pool is looked up when the pool is created and not when it is committed, so two
accounts each get a pool of one credit. -/
theorem two_pools_of_one_credit :
    let pool (n : Nat) (user : String) := CreditPool.opened ⟨.ofNat n⟩ ⟨"acme", user⟩ ⟨.ofNat 3⟩
      ⟨10, by decide⟩ .epoch
    let m := ({} : Memory).steps (poolsAtOnce (pool 1 "ann") (pool 2 "bob"))
    m.books.pools = [pool 1 "ann", pool 2 "bob"] ∧
      ¬ (m.books.pools.map CreditPool.entryId).Nodup := by
  decide +kernel

end Memory
end PointLedger
