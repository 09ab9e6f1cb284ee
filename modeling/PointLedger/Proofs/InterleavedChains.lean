import PointLedger.Proofs.Catalogue
import PointLedger.Proofs.ChainValidity
import PointLedger.Proofs.Linearizability

/-!
Interleavings as orders of calls, one turn at a time. A turn leaves the books as they are or posts
the call that takes it. So what is known of books that calls have made one after the other holds
after any schedule, and the chains that calls build in turns are as sound as those that they build
alone.
-/

namespace PointLedger

variable {ι : Type} {calls : ι → Call} {s : Concurrent ι} {order : List ι} {g : ι → Progress}

/-- Every committed entry was made by one of the calls that are decided. -/
theorem Explains.catalogued (explains : Explains calls s order g) :
    s.memory.books.Catalogued (order.map calls) :=
  explains.ordered.books ▸ Books.catalogued_applyAll (order.map calls)

variable [DecidableEq ι]

/-- The bump by a microsecond that a call may need stays within the range of times at every turn
that does not leave the books as they are. -/
def Concurrent.ClockInRange (calls : ι → Call) (s : Concurrent ι) : List ι → Prop
  | [] => True
  | i :: rest =>
    (s.memory.books.ClockFits (calls i) ∨ (s.turn calls i).memory.books = s.memory.books) ∧
      (s.turn calls i).ClockInRange calls rest

instance Concurrent.decidableClockInRange (calls : ι → Call) (s : Concurrent ι) :
    (schedule : List ι) → Decidable (s.ClockInRange calls schedule)
  | [] => .isTrue trivial
  | i :: rest =>
    have := decidableClockInRange calls (s.turn calls i) rest
    inferInstanceAs (Decidable (_ ∧ _))

section

variable (apart : ∀ i j, i ≠ j → (calls i).Apart (calls j))
include apart

/-- A turn leaves the books as they are or posts the call that takes it. -/
theorem Explains.books_turn (explains : Explains calls s order g) (i : ι) :
    (∃ order' g', Explains calls (s.turn calls i) order' g') ∧
      ((s.turn calls i).memory.books = s.memory.books ∨
        (s.turn calls i).memory.books = (s.memory.books.apply (calls i)).2) := by
  obtain ⟨order', g', grows, explains'⟩ := explains.turn apart i
  refine ⟨⟨order', g', explains'⟩, ?_⟩
  rw [← explains'.ordered.books]
  rcases grows with rfl | rfl
  · exact .inl explains.ordered.books
  · rw [List.map_append, List.map_singleton, Books.applyAll_concat, explains.ordered.books]
    exact .inr rfl

theorem Explains.chained (explains : Explains calls s order g)
    (chained : ∀ a, Chained (s.memory.books.rows a).entries) {schedule : List ι}
    (fits : s.ClockInRange calls schedule) (a : Account) :
    Chained ((schedule.foldl (Concurrent.turn calls) s).memory.books.rows a).entries := by
  induction schedule generalizing s order g with
  | nil => exact chained a
  | cons i rest ih =>
    obtain ⟨fits, later⟩ := fits
    obtain ⟨⟨order', g', explains'⟩, books⟩ := explains.books_turn apart i
    refine ih explains' (fun a => ?_) later
    rcases books with same | posted
    · exact same ▸ chained a
    · rcases fits with fits | same
      · exact posted ▸ Books.chained_apply chained fits a
      · exact same ▸ chained a

/-- After any schedule every account has a chain. -/
theorem Concurrent.chained (schedule : List ι)
    (fits : ({} : Concurrent ι).ClockInRange calls schedule) (a : Account) :
    Chained ((run calls schedule).memory.books.rows a).entries :=
  Explains.chained apart ⟨coherent_empty, ordered_empty⟩ (fun _ => chained_nil) fits a

end

end PointLedger
