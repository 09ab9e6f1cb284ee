import Mathlib.Data.List.Induction
import PointLedger.Proofs.Booking
import PointLedger.Proofs.Serial

/-!
Books that a history of calls has made. The pools are those that the calls have opened, in their
order, so their ids are distinct when no two calls draw the same identifier. `rows_of_serve` is
the induction on which the facts about the rows of an account rest: what holds of no rows, and is
kept by each new entry, holds after any calls.
-/

namespace PointLedger

/-- What holds at every place of a list, and of one more element after it, holds at every place of
the longer list. -/
theorem forall_split_concat {α : Type} {P : List α → α → Prop} {xs : List α} {x : α}
    (old : ∀ earlier y later, xs = earlier ++ y :: later → P earlier y) (last : P xs x) :
    ∀ earlier y later, xs ++ [x] = earlier ++ y :: later → P earlier y := by
  intro earlier y later split
  rcases List.eq_nil_or_concat later with rfl | ⟨init, z, rfl⟩
  · obtain ⟨rfl, new⟩ := List.append_inj' split rfl
    cases new
    exact last
  · rw [List.concat_eq_append, ← List.cons_append, ← List.append_assoc] at split
    obtain ⟨before, -⟩ := List.append_inj' split rfl
    exact old earlier y init before

/-- The identifiers of the pool that a credit opens. -/
def Call.poolKey (c : Call) : PoolId × EntryId := (c.poolId, c.entryId)

namespace Books

/-- Every pool was opened by one of the calls, each call opening one at most. -/
def Sourced (calls : List Call) (b : Books) : Prop :=
  (b.pools.map CreditPool.key).Sublist (calls.map Call.poolKey)

variable {calls : List Call} {b : Books} {c : Call}

theorem sourced_empty : Sourced [] {} := List.Sublist.refl _

theorem Sourced.distinct (sourced : b.Sourced calls) (apart : calls.Pairwise Call.Apart) :
    (b.pools.map (·.id)).Nodup := by
  have ids : (b.pools.map (·.id)).Sublist (calls.map Call.poolId) := by
    have := sourced.map Prod.fst
    simpa [Function.comp_def, CreditPool.key, Call.poolKey] using this
  refine List.Nodup.sublist ids (List.pairwise_map.mpr (apart.imp fun apart same => ?_))
  exact apart 1 1 (congrArg PoolId.uuid same)

/-- A call that is refused changes nothing, and one that succeeds adds an entry. -/
theorem apply_cases (distinct : (b.pools.map (·.id)).Nodup) (c : Call) :
    (b.apply c).2 = b ∨ ∃ e, Posted c b e (b.apply c).2 := by
  cases posted : b.post c with
  | error error => exact .inl (by simp [Books.apply, posted])
  | ok added =>
    obtain ⟨result, after⟩ := added
    obtain ⟨e, adds⟩ := posted_of_post distinct posted
    exact .inr ⟨e, by simpa [Books.apply, posted] using adds⟩

/-- One more call. -/
theorem Sourced.apply (sourced : b.Sourced calls) (apart : calls.Pairwise Call.Apart) (c : Call) :
    (b.apply c).2.Sourced (calls ++ [c]) := by
  unfold Sourced
  rw [List.map_append]
  rcases apply_cases (sourced.distinct apart) c with same | ⟨e, posted⟩
  · rw [same]
    exact sourced.trans (List.sublist_append_left _ _)
  · rcases posted.keys with same | opened
    · rw [same]
      exact sourced.trans (List.sublist_append_left _ _)
    · rw [opened]
      exact sourced.append (List.Sublist.refl _)

theorem applyAll_concat (b : Books) (calls : List Call) (c : Call) :
    b.applyAll (calls ++ [c]) =
      ((b.applyAll calls).1 ++ [((b.applyAll calls).2.apply c).1],
        ((b.applyAll calls).2.apply c).2) := by
  induction calls generalizing b with
  | nil => rfl
  | cons first rest ih => simp [applyAll, ih]

/-- The books after calls that draw identifiers of their own. -/
theorem sourced_applyAll (apart : calls.Pairwise Call.Apart) :
    (applyAll {} calls).2.Sourced calls := by
  induction calls using List.reverseRecOn with
  | nil => exact sourced_empty
  | append_singleton calls c ih =>
    obtain ⟨apart, -, -⟩ := List.pairwise_append.mp apart
    rw [applyAll_concat]
    exact (ih apart).apply apart c

/-- What holds of no rows, and is kept by each new entry, holds of the rows of every account. -/
theorem rows_of_applyAll {P : AccountRows → Prop} (empty : P ⟨[], [], none⟩)
    (step : ∀ c v e v', P v → (v.pools.map (·.id)).Nodup → v'.entries = v.entries ++ [e] →
      Continues c v e → Booked c v e v' → P v')
    (apart : calls.Pairwise Call.Apart) (a : Account) : P ((applyAll {} calls).2.rows a) := by
  induction calls using List.reverseRecOn with
  | nil => exact empty
  | append_singleton calls c ih =>
    obtain ⟨apart, -, -⟩ := List.pairwise_append.mp apart
    have distinct := (sourced_applyAll apart).distinct apart
    rw [applyAll_concat]
    rcases apply_cases distinct c with same | ⟨e, posted⟩
    · rw [same]
      exact ih apart
    · by_cases own : a = e.account
      · subst own
        refine step c _ e _ (ih apart) (distinct.sublist (List.filter_sublist.map _)) ?_
          posted.continues posted.booked
        simp [rows, posted.entries]
      · rw [posted.others a own]
        exact ih apart

end Books

/-- The same after serving the calls from an empty store. -/
theorem Memory.rows_of_serve {P : AccountRows → Prop} (empty : P ⟨[], [], none⟩)
    (step : ∀ c v e v', P v → (v.pools.map (·.id)).Nodup → v'.entries = v.entries ++ [e] →
      Continues c v e → Booked c v e v' → P v')
    {calls : List Call} (apart : calls.Pairwise Call.Apart) (a : Account) :
    P ((({} : Memory).serve calls).2.books.rows a) := by
  rw [(Memory.serve_eq_applyAll Memory.atRest_empty calls).2.1]
  exact Books.rows_of_applyAll empty step apart a

end PointLedger
