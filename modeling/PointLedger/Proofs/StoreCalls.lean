import Mathlib.Data.List.Nodup
import PointLedger.Proofs.StoreUse
import PointLedger.Proofs.Tables

/-!
Every call on a store in memory. Besides making requests and dropping handles, someone can replace a
committed entry past the rules of the store. A condition holds along some calls when each of them
meets it in the store as it is at that moment; what a call keeps under the condition is kept by all
of them.
-/

namespace PointLedger

/-- A call on a store. -/
inductive StoreCall where
  | use (s : StoreStep)
  /-- A committed entry is replaced by one with the same id, past every rule. -/
  | replace (e : Entry)
  deriving DecidableEq, Repr

/-- The request that a call makes. -/
def StoreCall.request? : StoreCall → Option Request
  | .use (.request request) => some request
  | .use (.drop _) | .replace _ => none

namespace Memory

/-- The store after a call. -/
def call (m : Memory) : StoreCall → Memory
  | .use s => m.step s
  | .replace e =>
    match m.books.replaceEntry e with
    | .error _ => m
    | .ok books => { m with books := books }

/-- The store after calls one after the other. -/
def calls (m : Memory) (cs : List StoreCall) : Memory := cs.foldl call m

/-- True when the store does at once what it is asked for. -/
def grants (m : Memory) (request : Request) : Bool :=
  match (m.perform request).1 with
  | some (.ok _) => true
  | _ => false

/-- Every call meets a condition in the store as it is then. -/
def Along (P : Memory → StoreCall → Prop) (m : Memory) : List StoreCall → Prop
  | [] => True
  | c :: rest => P m c ∧ (m.call c).Along P rest

instance decidableAlong {P : Memory → StoreCall → Prop} [∀ m c, Decidable (P m c)] :
    (m : Memory) → (cs : List StoreCall) → Decidable (m.Along P cs)
  | _, [] => inferInstanceAs (Decidable True)
  | m, c :: rest =>
    have : Decidable ((m.call c).Along P rest) := decidableAlong (m.call c) rest
    inferInstanceAs (Decidable (P m c ∧ (m.call c).Along P rest))

/-- A request that is granted meets a condition. -/
def Proper (P : Memory → Request → Prop) (m : Memory) (c : StoreCall) : Prop :=
  ∀ request ∈ c.request?, m.grants request = true → P m request

/-- Every request that is granted meets a condition in the store as it is then. -/
def Throughout (P : Memory → Request → Prop) : Memory → List StoreCall → Prop := Along (Proper P)

instance {P : Memory → Request → Prop} [∀ m request, Decidable (P m request)] (m : Memory)
    (c : StoreCall) : Decidable (m.Proper P c) :=
  inferInstanceAs (Decidable (∀ request ∈ c.request?, _ → P m request))

instance {P : Memory → Request → Prop} [∀ m request, Decidable (P m request)] (m : Memory)
    (cs : List StoreCall) : Decidable (m.Throughout P cs) :=
  inferInstanceAs (Decidable (m.Along (Proper P) cs))

theorem grants_commit_iff {m : Memory} {tx : TxId} :
    m.grants (.commit tx) = true ↔
      ∃ t b, m.tx? tx = some t ∧ m.books.commit t = .ok b := by
  simp only [grants, perform]
  cases m.tx? tx with
  | none => simp
  | some t => cases committed : m.books.commit t <;> simp [committed]

/-- What is in the books after a commit that is granted. -/
theorem commit_of_grants {m : Memory} {tx : TxId} {t : Transaction} (held : m.tx? tx = some t)
    (granted : m.grants (.commit tx) = true) :
    m.books.commit t = .ok (m.perform (.commit tx)).2.books := by
  simp only [grants, perform, held] at granted ⊢
  cases committed : m.books.commit t with
  | error _ => simp [committed] at granted
  | ok _ => rfl

/-- A request that is not granted changes nothing that is committed. -/
theorem books_of_not_grants {m : Memory} {request : Request} (refused : m.grants request = false) :
    (m.perform request).2.books = m.books := by
  have changes : m.Changes request (m.perform request).2 := perform_changes rfl
  rcases changes.books with same | ⟨tx, t, rfl, held, done⟩
  · exact same
  · rw [grants_commit_iff.mpr ⟨t, _, held, done⟩] at refused
    cases refused

theorem calls_append (m : Memory) (earlier later : List StoreCall) :
    m.calls (earlier ++ later) = (m.calls earlier).calls later := List.foldl_append

/-- What every call keeps is true after all of them. -/
theorem calls_induction {I : Memory → Prop} {m : Memory} (cs : List StoreCall) (start : I m)
    (kept : ∀ m c, I m → I (m.call c)) : I (m.calls cs) :=
  List.foldlRecOn cs call start fun m held c _ => kept m c held

theorem Along.and {P Q : Memory → StoreCall → Prop} {m : Memory} {cs : List StoreCall}
    (along : m.Along P cs) (along' : m.Along Q cs) : m.Along (fun m c => P m c ∧ Q m c) cs := by
  induction cs generalizing m with
  | nil => trivial
  | cons c rest ih => exact ⟨⟨along.1, along'.1⟩, ih along.2 along'.2⟩

/-- What every call keeps under the condition is true after all of them. -/
theorem Along.induction {P : Memory → StoreCall → Prop} {I : Memory → Prop} {m : Memory}
    {cs : List StoreCall} (along : m.Along P cs) (start : I m)
    (kept : ∀ m c, I m → P m c → I (m.call c)) : I (m.calls cs) := by
  induction cs generalizing m with
  | nil => exact start
  | cons c rest ih => exact ih along.2 (kept m c start along.1)

end Memory

/-! ### Replacing an entry -/

/-- Replacing an entry changes no other rows, and the entries keep their ids. -/
theorem Books.replaceEntry_eq_ok {b after : Books} {e : Entry}
    (replaced : b.replaceEntry e = .ok after) :
    after.entries.map (·.id) = b.entries.map (·.id) ∧ after.pools = b.pools ∧
      after.balances = b.balances := by
  unfold replaceEntry at replaced
  split at replaced
  · rename_i present
    cases replaced
    refine ⟨map_upsert_of_mem _ (List.any_eq_true.mp present) ?_, rfl, rfl⟩
    intro e' _ same
    exact eq_of_beq same
  · cases replaced

namespace Memory

theorem call_replace (m : Memory) (e : Entry) :
    m.call (.replace e) = m ∨
      ∃ b, m.books.replaceEntry e = .ok b ∧ m.call (.replace e) = { m with books := b } := by
  cases replaced : m.books.replaceEntry e with
  | error _ => exact .inl (by simp only [call, replaced])
  | ok b => exact .inr ⟨b, rfl, by simp only [call, replaced]⟩

theorem live_call_replace (m : Memory) (e : Entry) : (m.call (.replace e)).live = m.live := by
  rcases m.call_replace e with same | ⟨_, _, same⟩ <;> rw [same]

theorem WellFormed.call {m : Memory} (wf : m.WellFormed) (c : StoreCall) :
    (m.call c).WellFormed := by
  cases c with
  | use s => exact wf.step s
  | replace e =>
    rcases m.call_replace e with same | ⟨_, _, same⟩ <;> rw [same]
    · exact wf
    · exact ⟨wf.numbered, wf.exclusive⟩

end Memory

/-- A store in which nothing is live. -/
theorem Memory.wellFormed_books (b : Books) : ({ books := b } : Memory).WellFormed :=
  ⟨fun _ _ held => (by cases held), fun _ _ _ _ held => (by cases held)⟩

section Upheld

variable {P : Books → Prop} {Q : Books → Transaction → Prop}

/-- What no request and no commit breaks, and no replaced entry either, stays true after a call. -/
theorem Upheld.call (upheld : Upheld (fun _ => True) P Q)
    (replaced : ∀ b e b', b.replaceEntry e = .ok b' → (P b → P b') ∧ ∀ t, Q b t → Q b' t)
    {m : Memory} (on : On P Q m) (c : StoreCall) : On P Q (m.call c) := by
  cases c with
  | use s => exact upheld.step on fun _ _ => trivial
  | replace e =>
    refine ⟨on.wellFormed.call _, ?_, ?_⟩ <;>
      rcases m.call_replace e with same | ⟨b, taken, same⟩ <;> rw [same]
    · exact on.books
    · exact (replaced _ e b taken).1 on.books
    · exact on.live
    · intro tx t live
      exact (replaced _ e b taken).2 t (on.live tx t live)

theorem Upheld.on_books {b : Books} (start : P b) : On P Q { books := b } :=
  ⟨Memory.wellFormed_books b, start, nofun⟩

end Upheld

namespace Memory

/-! ### Handles -/

/-- No two live transactions have the same handle. -/
def Handles (m : Memory) : Prop := (m.live.map Prod.fst).Nodup

theorem Handles.setTx {m : Memory} (handles : m.Handles) (tx : TxId) (t : Transaction) :
    (m.setTx tx t).Handles := by
  have kept : (m.setTx tx t).live.map Prod.fst = m.live.map Prod.fst := by
    rw [Memory.setTx, List.map_map]
    refine List.map_congr_left fun row _ => ?_
    by_cases own : row.1 = tx <;> simp [own]
  rw [Handles, kept]
  exact handles

theorem Handles.endTx {m : Memory} (handles : m.Handles) (tx : TxId) : (m.endTx tx).Handles :=
  handles.sublist (List.filter_sublist.map _)

theorem Handles.step {m : Memory} (handles : m.Handles) (wf : m.WellFormed) (s : StoreStep) :
    (m.step s).Handles := by
  cases m.evolves_step s with
  | nothing _ live =>
    rw [Handles, live]
    exact handles
  | begun same =>
    have new : (⟨m.started⟩ : TxId) ∉ m.live.map Prod.fst := by
      intro member
      obtain ⟨row, live, number⟩ := List.mem_map.mp member
      obtain ⟨t, held⟩ := exists_tx?_of_mem_live live
      rw [number, wf.tx?_next] at held
      cases held
    rw [same, Handles, perform, List.map_append]
    refine List.nodup_append.mpr ⟨handles, List.nodup_singleton _, ?_⟩
    intro tx live tx' begun same
    obtain rfl : tx' = ⟨m.started⟩ := by simpa using begun
    exact new (same ▸ live)
  | changed _ _ tx _ t' _ _ _ live =>
    rw [Handles, live]
    exact handles.setTx tx t'
  | ended tx _ live | committed tx _ _ _ live =>
    rw [Handles, live]
    exact handles.endTx tx

/-- After any calls on a store in which nothing was live it is well-formed and its handles are
distinct. -/
theorem handles_calls (b : Books) (cs : List StoreCall) :
    (({ books := b } : Memory).calls cs).WellFormed ∧
      (({ books := b } : Memory).calls cs).Handles := by
  refine calls_induction (I := fun m => m.WellFormed ∧ m.Handles) cs ?_ ?_
  · exact ⟨wellFormed_books b, List.nodup_nil⟩
  · rintro m c ⟨wf, handles⟩
    refine ⟨wf.call c, ?_⟩
    cases c with
    | use s => exact handles.step wf s
    | replace e =>
      rw [Handles, live_call_replace]
      exact handles

/-- What is listed under a handle is what its transaction holds. -/
theorem Handles.tx?_of_mem_live {m : Memory} (handles : m.Handles) {row : TxId × Transaction}
    (member : row ∈ m.live) : m.tx? row.1 = some row.2 := by
  obtain ⟨t, held⟩ := exists_tx?_of_mem_live member
  have same := List.inj_on_of_nodup_map handles (mem_live_of_tx? held) member rfl
  rw [held, ← same]

theorem Handles.holds_iff {m : Memory} (handles : m.Handles) {tx : TxId} {key : String} :
    m.Holds tx key ↔ ∃ t, m.tx? tx = some t ∧ key ∈ t.locks := by
  constructor
  · rintro ⟨t, member, taken⟩
    exact ⟨t, handles.tx?_of_mem_live member, taken⟩
  · rintro ⟨t, held, taken⟩
    exact ⟨t, mem_live_of_tx? held, taken⟩

/-- A transaction has to wait for a lock that a live one other than itself has taken. -/
theorem isHeldByOther_iff {m : Memory} {tx : TxId} {key : String} :
    m.isHeldByOther tx key = true ↔ ∃ tx', tx' ≠ tx ∧ m.Holds tx' key := by
  simp only [isHeldByOther, List.any_eq_true, Bool.and_eq_true, Bool.not_eq_true',
    beq_eq_false_iff_ne, List.contains_iff_mem]
  constructor
  · rintro ⟨⟨tx', t⟩, member, other, taken⟩
    exact ⟨tx', other, t, member, taken⟩
  · rintro ⟨tx', other, t, member, taken⟩
    exact ⟨(tx', t), member, other, taken⟩

/-! ### Taking a lock -/

variable {m : Memory} {tx : TxId} {t : Transaction} {key : String}

/-- A transaction that holds a lock is given it again, and nothing changes. -/
theorem lock_of_mem (held : m.tx? tx = some t) (taken : key ∈ t.locks) :
    m.lock tx key = (some (.ok ()), m) := by
  simp [lock, held, taken]

/-- A transaction waits for a lock that another one holds. -/
theorem lock_of_taken (held : m.tx? tx = some t) (new : key ∉ t.locks)
    (taken : m.isHeldByOther tx key = true) : m.lock tx key = (none, m.knowLock key) := by
  simp [lock, held, new, taken]

/-- A transaction takes a lock that is free. -/
theorem lock_of_free (held : m.tx? tx = some t) (new : key ∉ t.locks)
    (free : m.isHeldByOther tx key = false) :
    m.lock tx key =
      (some (.ok ()), (m.knowLock key).setTx tx { t with locks := t.locks ++ [key] }) := by
  simp [lock, held, new, free]

/-! ### What a call does to the rows -/

private theorem live_stage_of_refused {write : Transaction → Except StoreError Transaction}
    (refused : (m.stage tx write).1 ≠ some (.ok ())) : (m.stage tx write).2.live = m.live := by
  unfold stage at refused ⊢
  split
  · rfl
  · split
    · rfl
    · simp_all

private theorem live_lock_of_refused (refused : (m.lock tx key).1 ≠ some (.ok ())) :
    (m.lock tx key).2.live = m.live := by
  cases held : m.tx? tx with
  | none => simp [lock, held]
  | some t =>
    by_cases taken : key ∈ t.locks
    · rw [lock_of_mem held taken]
    · cases busy : m.isHeldByOther tx key with
      | true => rw [lock_of_taken held taken busy, live_knowLock]
      | false => simp [lock_of_free held taken busy] at refused

/-- A request that is not granted and ends no transaction changes nothing that is live. -/
theorem live_of_not_grants {m : Memory} {request : Request} (refused : m.grants request = false)
    (goes : ∀ tx, request ≠ .commit tx) : (m.perform request).2.live = m.live := by
  cases request with
  | beginTx => simp [grants, perform] at refused
  | commit tx => exact absurd rfl (goes tx)
  | rollback tx =>
    cases held : m.tx? tx <;> simp_all [grants, perform]
  | lockAccount tx a =>
    refine live_lock_of_refused fun done => ?_
    simp [grants, perform, done] at refused
  | createEntry tx _ | createPool tx _ | updatePool tx _ | createBalance tx _
  | updateBalance tx _ =>
    refine live_stage_of_refused fun done => ?_
    simp [grants, perform, done] at refused
  | findEntryIn tx _ | lastEntry tx _ | openPools tx _ | balanceForUpdate tx _ =>
    simp only [perform, readIn]
    split <;> rfl
  | findEntries _ | countEntries _ | findEntry _ | findPools _ | findBalance _ => rfl

/-- The ways in which a call changes the rows, committed and staged. -/
inductive Moves (m : Memory) (c : StoreCall) (after : Memory) : Prop where
  /-- No row changes. A transaction may start or end. -/
  | nothing (books : after.books = m.books)
      (live : ∀ tx t, after.tx? tx = some t → m.tx? tx = some t ∨ t = {})
  | replaced (e : Entry) (books : m.books.replaceEntry e = .ok after.books)
      (live : ∀ tx, after.tx? tx = m.tx? tx)
  | staged (request : Request) (asked : c.request? = some request)
      (granted : m.grants request = true) (tx : TxId) (t t' : Transaction)
      (held : m.tx? tx = some t) (becomes : t.Becomes m.books request t')
      (books : after.books = m.books)
      (live : ∀ tx', after.tx? tx' = if tx' = tx then some t' else m.tx? tx')
  | committed (tx : TxId) (t : Transaction) (held : m.tx? tx = some t)
      (accepted : m.books.commit t = .ok after.books)
      (live : ∀ tx', after.tx? tx' = if tx' = tx then none else m.tx? tx')

theorem WellFormed.moves_step {m : Memory} (wf : m.WellFormed) (s : StoreStep) :
    m.Moves (.use s) (m.step s) := by
  cases m.evolves_step s with
  | nothing books live =>
    exact .nothing books fun tx t held => .inl (tx?_eq_of_live_eq live tx ▸ held)
  | begun same =>
    rw [same]
    refine .nothing rfl fun tx t held => ?_
    rw [tx?_perform_beginTx wf] at held
    split at held
    · exact .inr (Option.some.inj held).symm
    · exact .inl held
  | changed request asked tx t t' held becomes books live =>
    subst asked
    have found (tx' : TxId) : (m.step (.request request)).tx? tx' =
        if tx' = tx then some t' else m.tx? tx' := by
      rw [tx?_eq_of_live_eq live, tx?_setTx, held, Option.map_some]
    cases granted : m.grants request with
    | true => exact .staged request rfl granted tx t t' held becomes books found
    | false =>
      have same : (m.step (.request request)).live = m.live :=
        live_of_not_grants granted fun tx asked => (by subst asked; cases becomes)
      exact .nothing books fun tx t held => .inl (tx?_eq_of_live_eq same tx ▸ held)
  | ended tx books live =>
    refine .nothing books fun tx' t held => ?_
    rw [tx?_eq_of_live_eq live, tx?_endTx] at held
    split at held
    · cases held
    · exact .inl held
  | committed tx t held accepted live =>
    exact .committed tx t held accepted fun tx' =>
      (tx?_eq_of_live_eq live tx').trans (tx?_endTx m tx tx')

/-- Every call changes the rows in one of these ways. -/
theorem WellFormed.moves_call {m : Memory} (wf : m.WellFormed) (c : StoreCall) :
    m.Moves c (m.call c) := by
  cases c with
  | use s => exact wf.moves_step s
  | replace e =>
    rcases m.call_replace e with same | ⟨b, taken, same⟩ <;> rw [same]
    · exact .nothing rfl fun tx t held => .inl held
    · exact .replaced e taken fun tx => rfl

/-- What is true of every live transaction over the books stays true after a call, if it is true
of one that has just started and is broken by no request in it and by nothing that changes the
books. -/
theorem Moves.live {m after : Memory} {c : StoreCall} {Q : Books → Transaction → Prop}
    (moves : m.Moves c after) (on : ∀ tx t, m.tx? tx = some t → Q m.books t)
    (begun : Q m.books {})
    (replaced : ∀ e t, m.books.replaceEntry e = .ok after.books → Q m.books t → Q after.books t)
    (staged : ∀ request tx t t', c.request? = some request → m.grants request = true →
      m.tx? tx = some t → Q m.books t → t.Becomes m.books request t' → Q m.books t')
    (others : ∀ tx t tx' u, m.tx? tx = some t → m.tx? tx' = some u → tx ≠ tx' →
      m.books.commit t = .ok after.books → Q m.books u → Q after.books u) :
    ∀ tx t, after.tx? tx = some t → Q after.books t := by
  intro tx u held
  cases moves with
  | nothing books live =>
    rw [books]
    rcases live tx u held with old | rfl
    · exact on tx u old
    · exact begun
  | replaced e books live => exact replaced e u books (on tx u (live tx ▸ held))
  | staged request asked granted own t t' live' becomes books live =>
    rw [live] at held
    rw [books]
    split at held
    · cases held
      exact staged request own t _ asked granted live' (on own t live') becomes
    · exact on tx u held
  | committed own t live' accepted live =>
    rw [live] at held
    split at held
    · cases held
    · rename_i other
      exact others own t tx u live' held (Ne.symm other) accepted (on tx u held)

end Memory
end PointLedger
