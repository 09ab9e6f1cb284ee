import PointLedger.Proofs.Locks
import PointLedger.Proofs.RowKeys

/-!
Where rows come from. A row that is passed to change a committed one replaces it whole. As long as
every such row has the origin of the one that it replaces, so has every row that is staged for it,
whatever other transactions commit in between.
-/

namespace PointLedger

/-- What a pool keeps for life: all but what remains of it and when it was drawn on. -/
def CreditPool.origin (p : CreditPool) : PoolId × Account × EntryId × Timestamp :=
  (p.id, p.account, p.entryId, p.createdAt)

/-- What a balance row keeps for life: all but the balance and when it changed. -/
def Balance.origin (row : Balance) : BalanceId × Account × Timestamp :=
  (row.id, row.account, row.createdAt)

/-- A row that is passed to change a committed one has its origin. -/
def Memory.KeepsOrigins (m : Memory) : Request → Prop
  | .updatePool _ p => ∀ q ∈ m.books.pools, q.id = p.id → q.origin = p.origin
  | .updateBalance _ row => ∀ old ∈ m.books.balances, old.account = row.account →
      old.origin = row.origin
  | _ => True

instance (m : Memory) : (request : Request) → Decidable (m.KeepsOrigins request)
  | .updatePool _ p =>
    inferInstanceAs (Decidable (∀ q ∈ m.books.pools, q.id = p.id → q.origin = p.origin))
  | .updateBalance _ row =>
    inferInstanceAs
      (Decidable (∀ old ∈ m.books.balances, old.account = row.account → old.origin = row.origin))
  | .beginTx | .commit _ | .rollback _ | .lockAccount _ _ | .findEntries _ | .countEntries _
  | .findEntry _ | .findEntryIn _ _ | .lastEntry _ _ | .createEntry _ _ | .findPools _
  | .openPools _ _ | .createPool _ _ | .findBalance _ | .balanceForUpdate _ _
  | .createBalance _ _ => inferInstanceAs (Decidable True)

/-- The rows with which a transaction will replace committed ones have the origins of those. -/
structure Transaction.KeepsOrigins (b : Books) (t : Transaction) : Prop where
  pools : ∀ u ∈ t.poolUpdates, (∃ q ∈ b.pools, q.id = u.id) ∧
    ∀ q ∈ b.pools, q.id = u.id → q.origin = u.origin
  balances : ∀ u ∈ t.balanceUpdates, ∀ old ∈ b.balances, old.account = u.account →
    old.origin = u.origin

theorem Books.mem_foldl_putBalance {rows puts : List Balance} {row : Balance}
    (member : row ∈ puts.foldl Transaction.putBalance rows) : row ∈ rows ∨ row ∈ puts := by
  induction puts generalizing rows with
  | nil => exact .inl member
  | cons put rest ih =>
    rcases ih member with old | new
    · rcases mem_of_mem_upsert old with rfl | old
      · exact .inr List.mem_cons_self
      · exact .inl old
    · exact .inr (List.mem_cons_of_mem _ new)

namespace Transaction.KeepsOrigins

variable {b after : Books} {t u : Transaction}

/-- A changed pool has the origin of the committed one. -/
theorem overlay (keeps : t.KeepsOrigins b) {q : CreditPool} (member : q ∈ b.pools) :
    (t.overlay q).origin = q.origin := by
  unfold Transaction.overlay
  cases changed : t.poolUpdates.find? (·.id == q.id) with
  | none => rfl
  | some update =>
    have same : update.id = q.id := by simpa using List.find?_some changed
    exact ((keeps.pools update (List.mem_of_find?_eq_some changed)).2 q member same.symm).symm

/-- What another transaction commits has no part in it: its new pools have other identifiers, and
its balance rows are those of other accounts. -/
theorem others (keeps : u.KeepsOrigins b) (committing : t.KeepsOrigins b) (guarded : u.Guarded)
    (guarded' : t.Guarded) (apart : ∀ key ∈ t.locks, key ∉ u.locks)
    (fresh : ∀ p ∈ t.newPools, ∀ q ∈ b.pools, q.id ≠ p.id) (committed : b.commit t = .ok after) :
    u.KeepsOrigins after := by
  obtain ⟨-, -, -, rfl⟩ := Books.commit_eq_ok committed
  constructor
  · intro update member
    obtain ⟨⟨q, there, same⟩, kept⟩ := keeps.pools update member
    refine ⟨⟨t.overlay q, ?_, by rw [overlay_id, same]⟩, ?_⟩
    · exact List.mem_append_left _ (List.mem_map_of_mem there)
    · intro q' member' same'
      -- a pool that was there has kept its origin, and a pool that is new has another id
      rcases List.mem_append.mp member' with old | new
      · obtain ⟨before, there', rfl⟩ := List.mem_map.mp old
        rw [overlay_id] at same'
        rw [committing.overlay there', kept before there' same']
      · exact absurd (same.trans same'.symm) (fresh q' new q there)
  · intro update member old there same
    -- a row that the other transaction put there is of an account whose lock it held
    rcases Books.mem_foldl_putBalance there with before | put
    · exact keeps.balances update member old before same
    · have own := guarded.balance (List.mem_append_right _ member)
      exact absurd own (apart _ (same ▸ guarded'.balance put))

end Transaction.KeepsOrigins

namespace Memory

/-- Under proper calls the staged changes keep the origins of the committed rows. -/
theorem keepsOrigins_call {m : Memory} {c : StoreCall} (guarded : m.Guarded)
    (apart : RowKeys.poolIds.Apart m)
    (keeps : ∀ tx t, m.tx? tx = some t → t.KeepsOrigins m.books)
    (proper : m.Proper KeepsOrigins c) :
    ∀ tx t, (m.call c).tx? tx = some t → t.KeepsOrigins (m.call c).books := by
  refine (guarded.wellFormed.moves_call c).live (Q := fun b t => t.KeepsOrigins b)
    keeps ⟨fun _ => nofun, fun _ => nofun⟩ ?_ ?_ ?_
  · intro e t taken keeps
    obtain ⟨-, pools, balances⟩ := Books.replaceEntry_eq_ok taken
    exact ⟨pools ▸ keeps.pools, balances ▸ keeps.balances⟩
  · intro request tx t t' asked granted held keeps becomes
    have proper := proper request asked granted
    cases becomes with
    | oldPool tx p own after committed =>
      refine ⟨fun u member => ?_, keeps.balances⟩
      rcases mem_of_mem_upsert member with rfl | old
      · exact ⟨committed, proper⟩
      · exact keeps.pools u old
    | oldBalance tx row own committed =>
      refine ⟨keeps.pools, fun u member => ?_⟩
      rcases mem_of_mem_upsert member with rfl | old
      · exact proper
      · exact keeps.balances u old
    | _ => exact ⟨keeps.pools, keeps.balances⟩
  · intro tx t tx' u held held' other committed kept
    refine kept.others (keeps tx t held) (guarded.live tx' u held') (guarded.live tx t held)
      (guarded.wellFormed.exclusive tx t tx' u held held' other) ?_ committed
    intro p new q there same
    exact apart.uncommitted tx t held p.id (List.mem_map.mpr ⟨p, new, rfl⟩)
      (List.mem_map.mpr ⟨q, there, same⟩)

theorem keepsOrigins_calls {b : Books} {cs : List StoreCall}
    (fresh : ({ books := b } : Memory).Throughout RowKeys.poolIds.Fresh cs)
    (kept : ({ books := b } : Memory).Throughout KeepsOrigins cs) :
    ∀ tx t, (({ books := b } : Memory).calls cs).tx? tx = some t →
      t.KeepsOrigins (({ books := b } : Memory).calls cs).books := by
  refine ((fresh.and kept).induction (I := fun m => m.Guarded ∧ RowKeys.poolIds.Apart m ∧
    ∀ tx t, m.tx? tx = some t → t.KeepsOrigins m.books)
    ⟨Upheld.on_books trivial, ⟨nofun, nofun⟩, nofun⟩ ?_).2.2
  rintro m c ⟨guarded, apart, keeps⟩ ⟨fresh, proper⟩
  exact ⟨guarded.call c, apart.call guarded.wellFormed fresh,
    keepsOrigins_call guarded apart keeps proper⟩

end Memory
end PointLedger
