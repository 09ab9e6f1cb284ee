import PointLedger.Proofs.Posting
import PointLedger.Proofs.StoreCalls

/-!
Keys that are fresh stay distinct. Entries and pools have identifiers that the store does not look
at when it takes them. As long as every row that is created gets a key that no row has, committed or
staged, no two rows of the whole store ever share one, whoever commits what and when.
-/

namespace PointLedger

/-- A changed pool keeps its identifier. -/
@[simp] theorem Transaction.overlay_id (t : Transaction) (p : CreditPool) :
    (t.overlay p).id = p.id := by
  unfold overlay
  cases changed : t.poolUpdates.find? (·.id == p.id) with
  | none => rfl
  | some update => simpa using List.find?_some changed

/-- Rows of a kind that have keys. Whatever is done to a row that is there, its key stays. -/
structure RowKeys (κ : Type) where
  committed : Books → List κ
  /-- The keys of the rows that a transaction creates. -/
  created : Transaction → List κ
  /-- The key of the row that a request creates. -/
  new? : Request → Option κ
  created_empty : created {} = []
  becomes : ∀ {b : Books} {t t' : Transaction} {request : Request}, t.Becomes b request t' →
    created t' = created t ∨ ∃ k, new? request = some k ∧ created t' = created t ++ [k]
  commit : ∀ {b after : Books} {t : Transaction}, b.commit t = .ok after →
    committed after = committed b ++ created t
  replace : ∀ {b after : Books} {e : Entry}, b.replaceEntry e = .ok after →
    committed after = committed b

namespace RowKeys

/-- The identifiers of entries. -/
def entryIds : RowKeys EntryId where
  committed b := b.entries.map (·.id)
  created t := t.entries.map (·.id)
  new?
    | .createEntry _ e => some e.id
    | _ => none
  created_empty := rfl
  becomes becomes := by
    cases becomes with
    | entry _ e _ _ _ => exact .inr ⟨e.id, rfl, List.map_append⟩
    | _ => exact .inl rfl
  commit committed := by
    obtain ⟨-, -, -, rfl⟩ := Books.commit_eq_ok committed
    exact List.map_append
  replace replaced := (Books.replaceEntry_eq_ok replaced).1

/-- The identifiers of pools. -/
def poolIds : RowKeys PoolId where
  committed b := b.pools.map (·.id)
  created t := t.newPools.map (·.id)
  new?
    | .createPool _ p => some p.id
    | _ => none
  created_empty := rfl
  becomes becomes := by
    cases becomes with
    | pool _ p _ _ _ => exact .inr ⟨p.id, rfl, List.map_append⟩
    | newPool _ p _ staged =>
      refine .inl (map_upsert_of_mem _ (by simpa using staged) ?_)
      intro q _ same
      exact eq_of_beq same
    | _ => exact .inl rfl
  commit {b _ t} committed := by
    obtain ⟨-, -, -, rfl⟩ := Books.commit_eq_ok committed
    have kept : (b.pools.map t.overlay).map (·.id) = b.pools.map (·.id) := by simp
    rw [List.map_append, kept]
  replace replaced := by rw [(Books.replaceEntry_eq_ok replaced).2.1]

variable {κ : Type} {rows : RowKeys κ} {m : Memory} {c : StoreCall}

/-- The row that the request creates has a key that no row of the store has, committed or staged. -/
def Fresh (rows : RowKeys κ) (m : Memory) (request : Request) : Prop :=
  ∀ k, rows.new? request = some k → k ∉ rows.committed m.books ∧
    ∀ tx t, m.tx? tx = some t → k ∉ rows.created t

instance [DecidableEq κ] (m : Memory) (request : Request) : Decidable (rows.Fresh m request) :=
  decidable_of_iff (∀ k ∈ rows.new? request, k ∉ rows.committed m.books ∧
      ∀ row ∈ m.live, ∀ t ∈ m.tx? row.1, k ∉ rows.created t) <| by
    refine forall₂_congr fun k _ => and_congr_right fun _ => ⟨?_, ?_⟩
    · exact fun free tx t held => free (tx, t) (Memory.mem_live_of_tx? held) t held
    · exact fun free row _ t held => free row.1 t held

/-- A row that a transaction creates shares its key with no committed row and with no row that
another transaction creates. -/
structure Apart (rows : RowKeys κ) (m : Memory) : Prop where
  uncommitted : ∀ tx t, m.tx? tx = some t → ∀ k ∈ rows.created t, k ∉ rows.committed m.books
  others : ∀ tx t tx' t', m.tx? tx = some t → m.tx? tx' = some t' → tx ≠ tx' →
    ∀ k ∈ rows.created t, k ∉ rows.created t'

theorem not_mem_created_empty (rows : RowKeys κ) (k : κ) : k ∉ rows.created {} := by
  rw [rows.created_empty]
  exact List.not_mem_nil

/-- A request in a transaction creates no row with a key that is taken. -/
theorem Fresh.of_mem_created {request : Request} {b : Books} {t t' : Transaction} {k : κ}
    (fresh : rows.Fresh m request) (becomes : t.Becomes b request t')
    (member : k ∈ rows.created t') :
    k ∈ rows.created t ∨ (k ∉ rows.committed m.books ∧
      ∀ tx u, m.tx? tx = some u → k ∉ rows.created u) := by
  rcases rows.becomes becomes with same | ⟨k', new, grown⟩
  · exact .inl (same ▸ member)
  · rw [grown] at member
    rcases List.mem_append.mp member with old | added
    · exact .inl old
    · exact .inr (List.mem_singleton.mp added ▸ fresh k' new)

theorem Apart.uncommitted_call (apart : rows.Apart m) (wf : m.WellFormed)
    (fresh : m.Proper rows.Fresh c) (tx : TxId) (t : Transaction)
    (held : (m.call c).tx? tx = some t) :
    ∀ k ∈ rows.created t, k ∉ rows.committed (m.call c).books := by
  refine (wf.moves_call c).live (Q := fun b t => ∀ k ∈ rows.created t, k ∉ rows.committed b)
    apart.uncommitted ?_ ?_ ?_ ?_ tx t held
  · exact fun k member => absurd member (rows.not_mem_created_empty k)
  · intro e t taken free
    rw [rows.replace taken]
    exact free
  · intro request tx t t' asked granted held free becomes k member
    exact ((fresh request asked granted).of_mem_created becomes member).elim (free k) (·.1)
  · intro tx t tx' u held held' other accepted free k member taken
    rw [rows.commit accepted] at taken
    rcases List.mem_append.mp taken with old | new
    · exact free k member old
    · exact apart.others tx t tx' u held held' other k new member

theorem Apart.call (apart : rows.Apart m) (wf : m.WellFormed)
    (fresh : m.Proper rows.Fresh c) : rows.Apart (m.call c) := by
  refine ⟨apart.uncommitted_call wf fresh, ?_⟩
  intro tx t tx' t' held held' other k member member'
  cases wf.moves_call c with
  | nothing _ live =>
    rcases live tx t held with old | rfl
    · rcases live tx' t' held' with old' | rfl
      · exact apart.others tx t tx' t' old old' other k member member'
      · exact rows.not_mem_created_empty k member'
    · exact rows.not_mem_created_empty k member
  | replaced e _ live =>
    rw [live] at held held'
    exact apart.others tx t tx' t' held held' other k member member'
  | staged request asked granted own u u' live becomes _ found =>
    have created := (fresh request asked granted).of_mem_created (k := k) becomes
    rw [found] at held held'
    split at held <;> split at held'
    · rename_i same same'
      exact other (same.trans same'.symm)
    · rename_i same _
      cases held
      rcases created member with old | ⟨-, free⟩
      · exact apart.others own u tx' t' live held' (same ▸ other) k old member'
      · exact free tx' t' held' member'
    · rename_i _ same
      cases held'
      rcases created member' with old | ⟨-, free⟩
      · exact apart.others tx t own u held live (same ▸ other) k member old
      · exact free tx t held member
    · exact apart.others tx t tx' t' held held' other k member member'
  | committed own u _ _ found =>
    have lives {tx : TxId} {t : Transaction} (held : (m.call c).tx? tx = some t) :
        m.tx? tx = some t := by
      rw [found] at held
      split at held
      · cases held
      · exact held
    exact apart.others tx t tx' t' (lives held) (lives held') other k member member'

/-- Fresh keys keep rows apart, whatever was committed before. -/
theorem apart_calls {b : Books} {cs : List StoreCall}
    (fresh : ({ books := b } : Memory).Throughout rows.Fresh cs) :
    rows.Apart (({ books := b } : Memory).calls cs) := by
  refine (Memory.Along.induction (I := fun m => m.WellFormed ∧ rows.Apart m) fresh
    ⟨Memory.wellFormed_books b, nofun, nofun⟩ ?_).2
  rintro m c ⟨wf, apart⟩ fresh
  exact ⟨wf.call c, apart.call wf fresh⟩

/-- No two rows of the store have the same key. -/
structure Distinct (rows : RowKeys κ) (m : Memory) : Prop extends rows.Apart m where
  committed : (rows.committed m.books).Nodup
  created : ∀ tx t, m.tx? tx = some t → (rows.created t).Nodup

theorem Distinct.call (distinct : rows.Distinct m) (wf : m.WellFormed)
    (fresh : m.Proper rows.Fresh c) : rows.Distinct (m.call c) := by
  refine ⟨distinct.toApart.call wf fresh, ?_, ?_⟩
  · cases wf.moves_call c with
    | nothing books _ | staged _ _ _ _ _ _ _ _ books _ =>
      rw [books]
      exact distinct.committed
    | replaced e taken _ =>
      rw [rows.replace taken]
      exact distinct.committed
    | committed tx t held accepted _ =>
      rw [rows.commit accepted]
      refine List.nodup_append'.mpr ⟨distinct.committed, distinct.created tx t held, ?_⟩
      exact fun k old new => distinct.uncommitted tx t held k new old
  · refine (wf.moves_call c).live (Q := fun _ t => (rows.created t).Nodup)
      distinct.created ?_ ?_ ?_ ?_
    · rw [rows.created_empty]
      exact List.nodup_nil
    · exact fun _ _ _ once => once
    · intro request tx t t' asked granted held once becomes
      rcases rows.becomes becomes with same | ⟨k, new, grown⟩
      · exact same ▸ once
      · rw [grown]
        refine List.nodup_append'.mpr ⟨once, List.nodup_singleton k, ?_⟩
        rintro k' old added
        obtain rfl := List.mem_singleton.mp added
        exact (fresh request asked granted k' new).2 tx t held old
    · exact fun _ _ _ _ _ _ _ _ once => once

/-- After any calls that create rows with fresh keys, no two rows have the same key. -/
theorem distinct_calls {b : Books} {cs : List StoreCall} (start : (rows.committed b).Nodup)
    (fresh : ({ books := b } : Memory).Throughout rows.Fresh cs) :
    rows.Distinct (({ books := b } : Memory).calls cs) := by
  refine (Memory.Along.induction (I := fun m => m.WellFormed ∧ rows.Distinct m) fresh
    ⟨Memory.wellFormed_books b, ⟨nofun, nofun⟩, start, nofun⟩ ?_).2
  rintro m c ⟨wf, distinct⟩ fresh
  exact ⟨wf.call c, distinct.call wf fresh⟩

end RowKeys
end PointLedger
