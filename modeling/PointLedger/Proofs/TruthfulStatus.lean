import PointLedger.Proofs.Catalogue
import PointLedger.Proofs.ChainValidity
import PointLedger.Proofs.ReadBack
import PointLedger.Proofs.Routing

/-!
What the status of a response says about the store. A request that is answered with 400 or above has
changed nothing, and only two kinds of requests change anything: a POST to the entries of an account
that is answered with 201 has committed the entry that the response shows, and a POST to the
reversal of an entry that is answered with 200 has committed its reversal and shows the entry.
-/

namespace PointLedger

/-- The caller's keys in the metadata of a committed entry are none of the ledger's. -/
theorem Books.Catalogued.metadata_open {calls : List Call} {b : Books}
    (catalogued : b.Catalogued calls) {e : Entry} (member : e ∈ b.entries) : e.metadata.Open := by
  obtain ⟨earlier, later, split⟩ := List.append_of_mem member
  obtain ⟨c, -, made⟩ := catalogued.made earlier e later split
  exact made.extra

/-- When no clock stands in a hidden leap second, no committed entry does. -/
theorem Books.legible_applyAll {calls : List Call} (clocks : ∀ c ∈ calls, c.time.Legible) :
    ∀ e ∈ (applyAll {} calls).2.entries, e.createdAt.Legible := by
  induction calls using List.reverseRecOn with
  | nil => exact List.forall_mem_nil _
  | append_singleton calls c ih =>
    obtain ⟨earlier, clock⟩ := List.forall_mem_append.mp clocks
    have before := ih earlier
    rw [applyAll_concat]
    cases posted : (applyAll {} calls).2.post c with
    | error error => simpa [Books.apply, posted] using before
    | ok added =>
      obtain ⟨e, -, entries, continues⟩ := continues_of_post posted
      simp only [Books.apply, posted]
      rw [entries]
      refine List.forall_mem_append.mpr ⟨before, List.forall_mem_singleton.mpr ?_⟩
      rw [continues.time]
      refine (Ledger.legible_nextTimestamp (clock c (List.mem_singleton_self c)) ?_).truncate
      exact fun tail last => before tail (List.mem_filter.mp (Entry.mem_of_latest? last)).1

namespace Http

/-! ### Requests one after the other -/

/-- A request to a service, and what the service draws while it answers it. -/
structure Visit where
  request : Request
  source : Source

/-- The response to a request, and the store afterwards. -/
def Visit.run (config : EngineConfig) (m : Memory) (v : Visit) : Response × Memory :=
  let (response, w) := World.run { source := v.source, memory := m } (serve config v.request)
  (response, w.memory)

/-- The response shows the entry. This speaks of the JSON value in its body. -/
def Response.Shows (response : Response) (e : Entry) : Prop :=
  ∃ value, response.body = .json value ∧ Entry.ofJson? value = some e.shown

/-- The text in a path names an entry id. -/
def Names (raw : String) (id : EntryId) : Prop :=
  ∃ text, decodeSegment? raw = some text ∧ EntryId.ofText? text = some id

variable {config : EngineConfig} {m : Memory} {v : Visit}

/-- A store after requests is at rest, and holds the books of the calls that were made. -/
structure Visited (m : Memory) (calls : List Call) : Prop where
  rest : m.AtRest
  books : m.books = (Books.applyAll {} calls).2

variable {calls : List Call}

theorem Visited.catalogued (reached : Visited m calls) : m.books.Catalogued calls := by
  rw [reached.books]
  exact Books.catalogued_applyAll calls

theorem Visited.legible (reached : Visited m calls) (clocks : ∀ c ∈ calls, c.time.Legible)
    {e : Entry} (member : e ∈ m.books.entries) : e.createdAt.Legible := by
  rw [reached.books] at member
  exact Books.legible_applyAll clocks e member

/-- The store after one more call. -/
theorem Visited.call (reached : Visited m calls) (c : Call) :
    Visited (c.run m).2 (calls ++ [c]) := by
  obtain ⟨-, books, rest⟩ := c.run_eq_apply reached.rest
  refine ⟨rest, ?_⟩
  rw [books, reached.books, Books.applyAll_concat]

/-! ### One request -/

theorem Visited.shows (reached : Visited m calls) {e : Entry} (member : e ∈ m.books.entries)
    {r : Request} (posted : r.method = "POST") (status : Nat) :
    (r.sent (reply status Entry.toJson (.ok e))).Shows e := by
  refine ⟨e.toJson, ?_, Entry.ofJson?_toJson (reached.catalogued.metadata_open member)⟩
  rw [Request.sent, if_neg (by rw [posted]; decide)]
  rfl

/-- What a call has done to the books, by its result. -/
theorem Visited.result (reached : Visited m calls) (c : Call) :
    (∃ entry, (c.run m).1 = .ok entry ∧ m.books.post c = .ok (entry, (c.run m).2.books)) ∨
      ∃ error, (c.run m).1 = .error error ∧ (c.run m).2.books = m.books := by
  obtain ⟨result, books, -⟩ := c.run_eq_apply reached.rest
  have applied : m.books.apply c = ((c.run m).1, (c.run m).2.books) := Prod.ext result.symm books.symm
  cases outcome : (c.run m).1 with
  | ok entry =>
    rw [outcome] at applied
    exact .inl ⟨entry, rfl, Books.apply_eq_ok applied⟩
  | error error =>
    rw [outcome] at applied
    exact .inr ⟨error, rfl, Books.apply_eq_error applied⟩

end Http
end PointLedger
