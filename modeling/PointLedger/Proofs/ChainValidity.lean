import Mathlib.Data.List.Induction
import PointLedger.Chain
import PointLedger.Proofs.Booking
import PointLedger.Proofs.Clock
import PointLedger.Proofs.Serial

/-!
Chains that calls have built. Every new entry comes after the tail of its account in time and
points at its hash, so the order of time is the order of the commits and the chain verifies. This
needs no assumption on identifiers.
-/

namespace PointLedger

/-! ### Chains -/

/-- The entries of an account are in the order of their times, and they verify. -/
structure Chained (entries : List Entry) : Prop where
  increasing : entries.Pairwise fun e e' => e.createdAt < e'.createdAt
  aligned : ∀ e ∈ entries, e.createdAt.truncate = e.createdAt
  verified : verifyChain entries =
    ⟨true, entries.length, (entries.getLast?.map Entry.hash).getD genesisHash, none⟩

namespace Entry

theorem le_of_lt {e e' : Entry} (before : e.createdAt < e'.createdAt) : e.le e' = true := by
  simp [le, before]

theorem latest?_concat (entries : List Entry) (e : Entry) :
    latest? (entries ++ [e]) =
      match latest? entries with
      | none => some e
      | some best => if best.le e then some e else some best := by
  unfold latest?
  rw [List.foldl_append]
  rfl

theorem mem_of_latest? {entries : List Entry} {e : Entry} (last : latest? entries = some e) :
    e ∈ entries := by
  induction entries using List.reverseRecOn with
  | nil => cases last
  | append_singleton entries new ih =>
    rw [latest?_concat] at last
    split at last
    · cases last
      exact List.mem_append_right _ (List.mem_singleton_self _)
    · split at last
      · cases last
        exact List.mem_append_right _ (List.mem_singleton_self _)
      · cases last
        exact List.mem_append_left _ (ih ‹_›)

/-- In the order of time the last entry is the latest. -/
theorem latest?_of_increasing {entries : List Entry}
    (increasing : entries.Pairwise fun e e' => e.createdAt < e'.createdAt) :
    latest? entries = entries.getLast? := by
  induction entries using List.reverseRecOn with
  | nil => rfl
  | append_singleton entries e ih =>
    obtain ⟨earlier, -, before⟩ := List.pairwise_append.mp increasing
    rw [latest?_concat, ih earlier, List.getLast?_concat]
    cases last : entries.getLast? with
    | none => rfl
    | some best =>
      have first := before best (List.mem_of_getLast? last) e (List.mem_singleton_self e)
      simp [le_of_lt first]

/-- Sorting entries that are in the order of time changes nothing. -/
theorem sort_of_increasing {entries : List Entry}
    (increasing : entries.Pairwise fun e e' => e.createdAt < e'.createdAt) :
    sort entries .ascending = entries :=
  List.mergeSort_of_pairwise (increasing.imp le_of_lt)

/-- No entry of a chain is later than the last one. -/
theorem lt_of_getLast? {entries : List Entry} {last e : Entry} {time : Timestamp}
    (increasing : entries.Pairwise fun e e' => e.createdAt < e'.createdAt)
    (tail : entries.getLast? = some last) (later : last.createdAt < time) (member : e ∈ entries) :
    e.createdAt < time := by
  obtain ⟨init, rfl⟩ := List.getLast?_eq_some_iff.mp tail
  rcases List.mem_append.mp member with old | new
  · obtain ⟨-, -, before⟩ := List.pairwise_append.mp increasing
    have first := before e old last (List.mem_singleton_self last)
    rw [Timestamp.lt_iff] at first later ⊢
    omega
  · exact List.mem_singleton.mp new ▸ later

end Entry

/-- Walking on to one more entry of a chain that verifies so far. -/
theorem verifyFrom_concat {link tail : String} {checked count : Nat} {entries : List Entry}
    (verified : verifyFrom link checked entries = ⟨true, count, tail, none⟩) (e : Entry) :
    verifyFrom link checked (entries ++ [e]) = verifyFrom tail count [e] := by
  induction entries generalizing link checked with
  | nil =>
    cases verified
    rfl
  | cons first rest ih =>
    rw [List.cons_append, verifyFrom]
    rw [verifyFrom] at verified
    cases fault : first.fault? link with
    | some fault => simp [fault] at verified
    | none =>
      simp only [fault] at verified
      exact ih verified

theorem verifyFrom_cons {link : String} {checked : Nat} {e : Entry} {rest : List Entry}
    (digest : e.computeHash = e.hash) (linked : e.previousHash = link) :
    verifyFrom link checked (e :: rest) = verifyFrom e.hash (checked + 1) rest := by
  simp [verifyFrom, Entry.fault?, digest, linked]

theorem verifyFrom_singleton {link : String} {checked : Nat} {e : Entry}
    (digest : e.computeHash = e.hash) (linked : e.previousHash = link) :
    verifyFrom link checked [e] = ⟨true, checked + 1, e.hash, none⟩ :=
  verifyFrom_cons digest linked

theorem chained_nil : Chained [] where
  increasing := .nil
  aligned _ member := by cases member
  verified := rfl

/-- A chain and the next entry of it. -/
theorem Chained.concat {c : Call} {v : AccountRows} {e : Entry} (chained : Chained v.entries)
    (continues : Continues c v e)
    (fits : ∀ tail, v.tail = some tail → Ledger.ClockFits c.time tail) :
    Chained (v.entries ++ [e]) := by
  have tail : v.tail = v.entries.getLast? := Entry.latest?_of_increasing chained.increasing
  constructor
  · refine List.pairwise_append.mpr ⟨chained.increasing, List.pairwise_singleton _ _, ?_⟩
    intro e' member last new
    rw [List.mem_singleton.mp new]
    cases found : v.entries.getLast? with
    | none => simp [List.getLast?_eq_none_iff.mp found] at member
    | some last =>
      refine Entry.lt_of_getLast? chained.increasing found ?_ member
      rw [continues.time, tail, found]
      exact Ledger.lt_nextTimestamp (fits last (tail.trans found))
  · intro e' member
    rcases List.mem_append.mp member with old | new
    · exact chained.aligned e' old
    · rw [List.mem_singleton.mp new, continues.time, Timestamp.truncate_truncate]
  · have linked : e.previousHash = (v.entries.getLast?.map Entry.hash).getD genesisHash := by
      rw [continues.link, tail]
      cases v.entries.getLast? <;> rfl
    rw [verifyChain, verifyFrom_concat chained.verified e,
      verifyFrom_singleton continues.digest linked]
    simp

/-! ### Runs -/

/-- The bump by a microsecond that the call may need stays within the range of times. -/
def Books.ClockFits (b : Books) (c : Call) : Prop :=
  ∀ tail ∈ (b.target c).bind fun a => (b.rows a).tail, Ledger.ClockFits c.time tail

/-- This holds of each call when its turn comes. -/
def Memory.ClockInRange (m : Memory) : List Call → Prop
  | [] => True
  | c :: rest => m.books.ClockFits c ∧ (c.run m).2.ClockInRange rest

instance Books.decidableClockFits (b : Books) (c : Call) : Decidable (b.ClockFits c) :=
  inferInstanceAs (Decidable (∀ tail ∈ (b.target c).bind fun a => (b.rows a).tail,
    c.time.truncate ≤ tail.createdAt → tail.createdAt.nextMicrosecond? ≠ none))

instance Memory.decidableClockInRange (m : Memory) :
    (calls : List Call) → Decidable (m.ClockInRange calls)
  | [] => .isTrue trivial
  | c :: rest =>
    have := decidableClockInRange (c.run m).2 rest
    inferInstanceAs (Decidable (_ ∧ _))

/-- A call leaves every account with a chain. -/
theorem Books.chained_apply {b : Books} {c : Call} (chained : ∀ a, Chained (b.rows a).entries)
    (fits : b.ClockFits c) (a : Account) : Chained ((b.apply c).2.rows a).entries := by
  cases posted : b.post c with
  | error error =>
    simp only [Books.apply, posted]
    exact chained a
  | ok added =>
    obtain ⟨result, after⟩ := added
    obtain ⟨e, target, entries, continues⟩ := Books.continues_of_post posted
    simp only [Books.apply, posted, Books.rows, entries, List.filter_append]
    by_cases own : e.account = a
    · subst own
      have last : [e].filter (·.account == e.account) = [e] := by simp
      rw [last]
      refine (chained e.account).concat continues fun tail found => fits tail ?_
      rw [target]
      exact found
    · have foreign : [e].filter (·.account == a) = [] := by simp [own]
      rw [foreign, List.append_nil]
      exact chained a

theorem Memory.chained_of_serve {m : Memory} (rest : m.AtRest)
    (chained : ∀ a, Chained (m.books.rows a).entries) {calls : List Call}
    (fits : m.ClockInRange calls) (a : Account) :
    Chained ((m.serve calls).2.books.rows a).entries := by
  induction calls generalizing m with
  | nil => exact chained a
  | cons c calls ih =>
    obtain ⟨-, books, rest'⟩ := c.run_eq_apply rest
    have kept : ∀ a, Chained ((c.run m).2.books.rows a).entries := by
      rw [books]
      exact Books.chained_apply chained fits.1
    exact ih rest' kept fits.2

/-- The listing of a chain is in the order of the commits. -/
theorem Books.findEntries_chain {b : Books} {a : Account}
    (chained : Chained (b.rows a).entries) : b.findEntries (.chain a) = (b.rows a).entries := by
  have listed : b.entries.filter (EntryFilter.chain a).isMatch = (b.rows a).entries :=
    List.filter_congr fun e _ => by simp [EntryFilter.chain, EntryFilter.isMatch]
  simp only [findEntries, EntryFilter.list, listed]
  exact Entry.sort_of_increasing chained.increasing

/-- After any calls on an empty store, whatever the clocks show, every chain is listed in the
order of its commits, its times are aligned and strictly increasing, and it verifies up to its
last entry. -/
theorem Memory.chain_valid (calls : List Call) (fits : ({} : Memory).ClockInRange calls)
    (a : Account) :
    let b := (({} : Memory).serve calls).2.books
    let chain := b.entries.filter (·.account == a)
    b.findEntries (.chain a) = chain ∧
      chain.Pairwise (fun e e' => e.createdAt < e'.createdAt) ∧
      (∀ e ∈ chain, e.createdAt.truncate = e.createdAt) ∧
      verifyChain (b.findEntries (.chain a)) =
        ⟨true, chain.length, (chain.getLast?.map Entry.hash).getD genesisHash, none⟩ := by
  have chained := chained_of_serve atRest_empty (fun _ => chained_nil) fits a
  have listed := Books.findEntries_chain chained
  refine ⟨listed, chained.increasing, chained.aligned, ?_⟩
  rw [listed]
  exact chained.verified

theorem Memory.chain_valid_clock_stands_still :
    let calls := [
      Call.numbered 0 (.add ⟨"acme", "ann", .credit, ⟨10, by decide⟩, "first", "", []⟩),
      Call.numbered 0 (.add ⟨"acme", "ann", .debit, ⟨4, by decide⟩, "second", "", []⟩)]
    let b := (({} : Memory).serve calls).2.books
    let chain := b.entries.filter (·.account == ⟨"acme", "ann"⟩)
    ({} : Memory).ClockInRange calls ∧ chain.length = 2 ∧
    b.findEntries (.chain ⟨"acme", "ann"⟩) = chain ∧
      chain.Pairwise (fun e e' => e.createdAt < e'.createdAt) ∧
      (∀ e ∈ chain, e.createdAt.truncate = e.createdAt) ∧
      verifyChain (b.findEntries (.chain ⟨"acme", "ann"⟩)) =
        ⟨true, chain.length, (chain.getLast?.map Entry.hash).getD genesisHash, none⟩ := by
  intro calls b chain
  have fits : ({} : Memory).ClockInRange calls := by
    unfold Memory.ClockInRange Memory.ClockInRange Memory.ClockInRange Books.ClockFits
      Ledger.ClockFits
    decide +kernel
  exact ⟨fits, by decide +kernel, Memory.chain_valid _ fits _⟩

end PointLedger
