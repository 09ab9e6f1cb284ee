import PointLedger.Proofs.Backing
import PointLedger.Proofs.FittingRows

/-!
What becomes of a call. A request for a new entry fails over its own fields, over its reference,
over the funds of a debit or over the range of amounts. A call to revert an entry fails over an
unknown id, over the reference of the reversal or over the range. Nothing else goes wrong, and what
succeeds commits one entry.
-/

namespace PointLedger

/-! ### New entries -/

namespace Books

variable {b after : Books} {c : Call} {r : EntryRequest} {e : Entry}

/-- The hash that the next entry of the chain points at. -/
def tailHash (b : Books) (a : Account) : String :=
  ((b.findEntries (.chain a)).getLast?.map Entry.hash).getD genesisHash

/-- The entry `e` was committed for the request. -/
structure Accepted (b : Books) (c : Call) (r : EntryRequest) (e : Entry) (after : Books) :
    Prop where
  entries : after.entries = b.entries ++ [e]
  id : e.id = c.entryId
  account : e.account = r.account
  kind : e.kind = r.kind
  amount : e.amount = r.amount
  reference : e.referenceId = r.referenceId
  description : e.description = r.description
  extra : e.metadata.extra = r.metadata
  plain : e.metadata.reverts = none
  link : e.previousHash = b.tailHash r.account
  verified : e.verifyHash = true
  balance : ∃ row, after.findBalance r.account = some row ∧
    row.balance.val = (b.rows r.account).points + r.change
  others : ∀ a, a ≠ r.account → after.rows a = b.rows a

/-- What becomes of a request for a new entry, and of the books. -/
inductive AddOutcome (b : Books) (c : Call) (r : EntryRequest) :
    Except LedgerError Entry → Books → Prop where
  /-- The request breaks a rule on its own fields. -/
  | invalid (violation : Violation) (broken : validateRequest r = .error violation) :
    AddOutcome b c r (.error violation.toError) b
  /-- An entry of the organization has the reference. -/
  | taken (valid : validateRequest r = .ok ())
      (taken : b.HasKey (r.organizationId, r.referenceId)) :
    AddOutcome b c r (.error (.alreadyExists r.organizationId r.referenceId)) b
  /-- The pools of the account hold less than a debit asks for. -/
  | short (valid : validateRequest r = .ok ()) (free : ¬ b.HasKey (r.organizationId, r.referenceId))
      (kind : r.kind = .debit) (available : Amount)
      (pooled : available.val = (b.rows r.account).pooled)
      (less : (b.rows r.account).pooled < r.amount.val) :
    AddOutcome b c r (.error (.insufficientFunds r.amount available)) b
  /-- The balance would leave the range of amounts. -/
  | overflow (valid : validateRequest r = .ok ())
      (free : ¬ b.HasKey (r.organizationId, r.referenceId))
      (funded : r.kind = .debit → r.amount.val ≤ (b.rows r.account).pooled) (delta : Amount)
      (change : delta.val = r.change) (row : Balance) (present : b.findBalance r.account = some row)
      (outside : Overflows row.balance.val r.change) :
    AddOutcome b c r (.error (.balanceOverflow delta row.balance)) b
  /-- The entry is committed. -/
  | added (valid : validateRequest r = .ok ())
      (free : ¬ b.HasKey (r.organizationId, r.referenceId))
      (funded : r.kind = .debit → r.amount.val ≤ (b.rows r.account).pooled) (e : Entry)
      (after : Books) (accepted : Accepted b c r e after) : AddOutcome b c r (.ok e) after

theorem tailHash_eq (b : Books) (a : Account) :
    b.tailHash a = Ledger.linkAfter (b.rows a).tail := by
  have listed : b.entries.filter (EntryFilter.chain a).isMatch = (b.rows a).entries :=
    List.filter_congr fun e _ => by simp [EntryFilter.chain, EntryFilter.isMatch]
  have sorted : b.findEntries (.chain a) = Entry.sort (b.rows a).entries .ascending := by
    simp only [findEntries, EntryFilter.list, listed]
    rfl
  rw [tailHash, sorted, ← Entry.latest?_eq_getLast?, AccountRows.tail]
  cases Entry.latest? (b.rows a).entries <;> rfl

/-- The balance after a new entry that reverts nothing. -/
theorem balance_of_booked {v v' : AccountRows} (booked : Booked c v e v')
    (plain : e.metadata.reverts = none) (kind : e.kind = r.kind) (amount : e.amount = r.amount) :
    ∃ row, v'.balance = some row ∧ row.balance.val = v.points + r.change := by
  cases booked with
  | credit _ credit _ _ _ _ row' balance' changed =>
    have moved := AccountRows.points_of_credit balance' changed
    rw [AccountRows.points_of_balance balance'] at moved
    refine ⟨row', balance', ?_⟩
    simp only [EntryRequest.change, ← kind, credit, ← amount, moved]
  | debit _ debit allocations covered _ _ row row' balance balance' changed =>
    have moved := AccountRows.points_of_taken (allocate_eq_ok covered).1 balance balance' changed
    rw [AccountRows.points_of_balance balance'] at moved
    refine ⟨row', balance', ?_⟩
    simp only [EntryRequest.change, ← kind, debit, ← amount, moved]
    rfl
  | reversal _ _ reverts =>
    rw [plain] at reverts
    cases reverts

/-- What was committed for a request. -/
theorem accepted_of_post (backed : b.Backed) (asked : c.mutation = .add r)
    (posted : b.post c = .ok (e, after)) : Accepted b c r e after := by
  obtain ⟨transactionId, d, -, draftOf, entries⟩ := draftOf_of_post posted
  obtain ⟨x, entries', -, -, same⟩ := made_of_post posted
  obtain rfl := same r asked
  obtain rfl : d.sealed = x :=
    List.head_eq_of_cons_eq (List.append_cancel_left (entries.symm.trans entries'))
  obtain ⟨x, adds⟩ := posted_of_post backed.ids posted
  obtain rfl : x = d.sealed :=
    List.head_eq_of_cons_eq (List.append_cancel_left (adds.entries.symm.trans entries'))
  have fields : d.account = r.account ∧ d.kind = r.kind ∧ d.amount = r.amount ∧
      d.referenceId = r.referenceId ∧ d.description = r.description ∧
      d.metadata.extra = r.metadata ∧ d.metadata.reverts = none := by
    cases draftOf with
    | credit asked' =>
      rw [asked] at asked'
      cases asked'
      exact ⟨rfl, rfl, rfl, rfl, rfl, rfl, rfl⟩
    | debit asked' =>
      rw [asked] at asked'
      cases asked'
      exact ⟨rfl, rfl, rfl, rfl, rfl, rfl, rfl⟩
    | reversal asked' =>
      rw [asked] at asked'
      cases asked'
  obtain ⟨account, kind, amount, reference, description, extra, plain⟩ := fields
  have home : d.sealed.account = r.account := account
  have booked := adds.booked
  have link := adds.continues.link
  rw [home] at booked link
  exact {
    entries, account, kind, amount, reference, description, extra, plain
    id := adds.continues.id
    link := link.trans (b.tailHash_eq r.account).symm
    verified := beq_iff_eq.mpr d.computeHash_sealed
    balance := balance_of_booked booked plain kind amount
    others := home ▸ adds.others }

/-- The commit of a new entry is not refused. -/
theorem exists_commit_of_addPlan (backed : b.Backed) {transactionId : String} {hasPool : Bool}
    {t : Transaction} (free : ¬ b.HasKey (r.organizationId, r.referenceId))
    (plan : (b.rows r.account).addPlan hasPool r c transactionId = .ok (e, t)) :
    ∃ after, b.commit t = .ok after := by
  obtain ⟨staged, account, reference⟩ := r.job_proper c transactionId _ hasPool e t plan
  refine exists_commit (fun x member => ?_) (fun row opened => ?_) fun u changed => ?_
  · rw [staged, List.mem_singleton] at member
    have key : e.key = (r.organizationId, r.referenceId) :=
      Prod.ext (congrArg Account.organizationId account) reference
    rwa [member, key]
  · obtain ⟨absent, own⟩ := AccountRows.balance_eq_none_of_addPlan plan opened
    exact own ▸ absent
  · simp only [AccountRows.addPlan] at plan
    cases kind : r.kind with
    | credit =>
      simp only [kind] at plan
      obtain ⟨-, -, ⟨_, _, -, -, rfl⟩ | ⟨-, rfl⟩⟩ := AccountRows.creditPlan_eq_ok plan <;>
        cases changed
    | debit =>
      simp only [kind] at plan
      obtain ⟨allocations, _, _, -, covered, -, -, rfl⟩ := AccountRows.debitPlan_eq_ok plan
      exact checkPoolUpdate_of_debit backed.ids covered changed

/-- The plan of a new entry is refused for lack of funds or over the range of amounts. -/
theorem addOutcome_of_addPlan (backed : b.Backed) {transactionId : String} {error : LedgerError}
    (valid : validateRequest r = .ok ()) (free : ¬ b.HasKey (r.organizationId, r.referenceId))
    (refused : (b.rows r.account).addPlan false r c transactionId = .error error) :
    AddOutcome b c r (.error error) b := by
  have positive := (validateRequest_eq_ok valid).1
  simp only [AccountRows.addPlan] at refused
  cases kind : r.kind with
  | credit =>
    simp only [kind] at refused
    obtain ⟨row, present, rfl, outside⟩ := AccountRows.creditPlan_eq_error refused
    rw [AccountRows.points_of_balance present] at outside
    have change : r.change = r.amount.val := by simp [EntryRequest.change, kind]
    exact .overflow valid free (by simp [kind]) _ change.symm row present (change ▸ outside)
  | debit =>
    simp only [kind] at refused
    have change : r.change = -r.amount.val := by simp [EntryRequest.change, kind]
    rcases AccountRows.debitPlan_eq_error backed.nonneg_rows backed.pools_rows positive refused with
      ⟨available, pooled, less, rfl⟩ | ⟨enough, row, present, rfl, outside⟩
    · exact .short valid free kind available pooled less
    · rw [AccountRows.points_of_balance present] at outside
      exact .overflow valid free (fun _ => enough) _
        ((Amount.val_neg positive.le).trans change.symm) row present (change ▸ outside)

/-- A debit that succeeds asks for no more than the pools hold. -/
theorem le_pooled_of_post (backed : b.Backed) (asked : c.mutation = .add r)
    (posted : b.post c = .ok (e, after)) (kind : r.kind = .debit) :
    r.amount.val ≤ (b.rows r.account).pooled := by
  obtain ⟨transactionId, -, ⟨r', t, asked', -, plan, -⟩ | ⟨_, _, _, asked', -⟩⟩ := post_eq_ok posted
  · rw [asked] at asked'
    cases asked'
    simp only [AccountRows.addPlan, kind] at plan
    obtain ⟨allocations, _, _, -, covered, -⟩ := AccountRows.debitPlan_eq_ok plan
    exact AccountRows.le_pooled backed.nonneg_rows covered
  · rw [asked] at asked'
    cases asked'

/-- What becomes of a request in books that calls have made. -/
theorem addOutcome_apply (backed : b.Backed) (fresh : b.hasPoolOf c.entryId = false)
    (asked : c.mutation = .add r) {transactionId : String}
    (drawn : c.transactionId = .ok transactionId) :
    AddOutcome b c r (b.apply c).1 (b.apply c).2 := by
  cases valid : validateRequest r with
  | error violation =>
    have refused : b.post c = .error violation.toError := by simp [post, asked, valid]
    simpa only [Books.apply, refused] using .invalid violation valid
  | ok _ =>
  by_cases taken : b.HasKey (r.organizationId, r.referenceId)
  · have refused : b.post c = .error (.alreadyExists r.organizationId r.referenceId) := by
      simp [post, asked, valid, refuseTaken_of_hasKey taken]
    simpa only [Books.apply, refused] using .taken valid taken
  cases posted : b.post c with
  | error error =>
    simp only [Books.apply, posted]
    rw [(EntryRequest.job_fits asked valid drawn b).post] at posted
    have refused := plan_eq_error_of_finish taken
      (fun _ _ plan => exists_commit_of_addPlan backed taken plan) posted
    rw [fresh] at refused
    exact addOutcome_of_addPlan backed valid taken refused
  | ok added =>
    obtain ⟨e, after⟩ := added
    simp only [Books.apply, posted]
    exact .added valid taken (le_pooled_of_post backed asked posted) e after
      (accepted_of_post backed asked posted)

/-- A request succeeds when its fields are right, its reference is free, the pools hold what it
takes and the balance stays within the range of amounts. -/
theorem AddOutcome.isOk_iff {result : Except LedgerError Entry}
    (outcome : AddOutcome b c r result after) :
    result.isOk = true ↔ validateRequest r = .ok () ∧
      ¬ b.HasKey (r.organizationId, r.referenceId) ∧
      (r.kind = .debit → r.amount.val ≤ (b.rows r.account).pooled) ∧
      ∃ sum : Amount, sum.val = (b.rows r.account).points + r.change := by
  cases outcome with
  | invalid violation broken => simp [Except.isOk, Except.toBool, broken]
  | taken valid taken => simp [Except.isOk, Except.toBool, taken]
  | short valid free kind available pooled less =>
    have unfunded : ¬ r.amount.val ≤ (b.rows r.account).pooled := by omega
    simp [Except.isOk, Except.toBool, kind, unfunded]
  | overflow valid free funded delta change row present outside =>
    have points : (b.rows r.account).points = row.balance.val :=
      AccountRows.points_of_balance present
    have none : ¬ ∃ sum : Amount, sum.val = (b.rows r.account).points + r.change := by
      rw [points]
      exact fun ⟨sum, same⟩ => outside sum same
    simp [Except.isOk, Except.toBool, none]
  | added valid free funded e after accepted =>
    obtain ⟨row, -, moved⟩ := accepted.balance
    exact iff_of_true rfl ⟨valid, free, funded, row.balance, moved⟩

/-! ### Reversals -/

variable {original : Entry} {id : EntryId}

/-- The entry `e` was committed as the reversal of the original. -/
structure Reverted (b : Books) (c : Call) (original e : Entry) (after : Books) : Prop
    extends e.ReversalOf original where
  entries : after.entries = b.entries ++ [e]
  id : e.id = c.entryId
  sources : e.metadata.sources = []
  linked : e.previousHash = b.tailHash original.account
  verified : e.verifyHash = true
  balance : ∃ row row', b.findBalance original.account = some row ∧
    after.findBalance original.account = some row' ∧
    row'.balance.val = row.balance.val - original.amount.val
  pools : after.pools = b.pools
  others : ∀ a, a ≠ original.account → after.rows a = b.rows a

/-- What becomes of a call to revert an entry, and of the books. -/
inductive RevertOutcome (b : Books) (c : Call) (id : EntryId) :
    Except LedgerError Entry → Books → Prop where
  /-- No entry has the id. -/
  | unknown (absent : ∀ e ∈ b.entries, e.id ≠ id) :
    RevertOutcome b c id (.error (.entryNotFound id)) b
  /-- The transaction id of the original is a reference in its organization. -/
  | taken (original : Entry) (member : original ∈ b.entries) (own : original.id = id)
      (taken : b.HasKey (original.organizationId, original.transactionId)) :
    RevertOutcome b c id
      (.error (.alreadyExists original.organizationId original.transactionId)) b
  /-- The balance would leave the range of amounts. -/
  | overflow (original : Entry) (member : original ∈ b.entries) (own : original.id = id)
      (free : ¬ b.HasKey (original.organizationId, original.transactionId)) (row : Balance)
      (present : b.findBalance original.account = some row) (delta : Amount)
      (change : delta.val = -original.amount.val)
      (outside : Overflows row.balance.val (-original.amount.val)) :
    RevertOutcome b c id (.error (.balanceOverflow delta row.balance)) b
  /-- The reversal is committed, and the call gives the original back. -/
  | reverted (original : Entry) (member : original ∈ b.entries) (own : original.id = id)
      (free : ¬ b.HasKey (original.organizationId, original.transactionId)) (e : Entry)
      (after : Books) (reverted : Reverted b c original e after) :
    RevertOutcome b c id (.ok original) after

/-- The commit of a reversal is not refused. -/
theorem exists_commit_of_revertPlan {transactionId : String} {t : Transaction}
    (free : ¬ b.HasKey (original.organizationId, original.transactionId))
    (plan : (b.rows original.account).revertPlan original c transactionId = .ok (e, t)) :
    ∃ after, b.commit t = .ok after := by
  obtain ⟨row, row', -, rfl, -, rfl⟩ := AccountRows.revertPlan_eq_ok plan
  refine exists_commit (fun x member => ?_) (fun _ => nofun) fun _ => nofun
  rw [List.mem_singleton.mp member]
  exact free

/-- What was committed for a call to revert the original. -/
theorem reverted_of_post {result : Entry} (backed : b.Backed) (asked : c.mutation = .revert id)
    (present : b.findEntry (.byId id) = some original)
    (posted : b.post c = .ok (result, after)) :
    result = original ∧ ∃ e, Reverted b c original e after := by
  obtain ⟨x, adds⟩ := posted_of_post backed.ids posted
  obtain ⟨transactionId, -, ⟨r, _, asked', -⟩ | ⟨id', e, t, asked', found, plan, committed⟩⟩ :=
    post_eq_ok posted
  · rw [asked] at asked'
    cases asked'
  rw [asked] at asked'
  cases asked'
  obtain rfl := Option.some.inj (found.symm.trans present)
  have member := (mem_of_findEntry present).1
  obtain ⟨row, row', there, rfl, applied, rfl⟩ := AccountRows.revertPlan_eq_ok plan
  have owner : row'.account = result.account :=
    (Balance.account_of_apply applied).trans (mem_of_findBalance there).2
  obtain ⟨entries, pools, balance, -⟩ := rows_of_commit committed rfl rfl owner
  rw [Transaction.map_overlay_of_unchanged rfl, List.append_nil] at pools
  obtain rfl := List.head_eq_of_cons_eq (List.append_cancel_left (adds.entries.symm.trans entries))
  have link := adds.continues.link
  have moved := (Balance.apply_eq_ok applied).1
  rw [Amount.val_neg (backed.positive result member).le] at moved
  refine ⟨rfl, (result.reversal c transactionId (b.rows result.account).tail).sealed,
    ⟨rfl, rfl, rfl, rfl, rfl⟩, entries, rfl, rfl, ?_, ?_, ?_, pools, adds.others⟩
  · rw [tailHash_eq]
    exact link
  · exact beq_iff_eq.mpr (Draft.computeHash_sealed _)
  · exact ⟨row, row', there, balance, moved⟩

/-- What becomes of a reversal in books that calls have made. -/
theorem revertOutcome_apply (backed : b.Backed) (asked : c.mutation = .revert id)
    {transactionId : String} (drawn : c.transactionId = .ok transactionId) :
    RevertOutcome b c id (b.apply c).1 (b.apply c).2 := by
  cases present : b.findEntry (.byId id) with
  | none =>
    have refused : b.post c = .error (.entryNotFound id) := by simp [post, asked, present]
    simp only [Books.apply, refused]
    refine .unknown fun e member same => ?_
    exact List.find?_eq_none.mp present e member (beq_iff_eq.mpr same)
  | some original =>
  obtain ⟨member, own⟩ := mem_of_findEntry present
  by_cases taken : b.HasKey (original.organizationId, original.transactionId)
  · have refused : b.post c =
        .error (.alreadyExists original.organizationId original.transactionId) := by
      simp [post, asked, present, refuseTaken_of_hasKey taken]
    simpa only [Books.apply, refused] using .taken original member own taken
  obtain ⟨row, there⟩ := backed.entries original member
  cases posted : b.post c with
  | error error =>
    simp only [Books.apply, posted]
    rw [(Entry.revertJob_fits asked drawn present).post] at posted
    have refused := plan_eq_error_of_finish taken
      (fun _ _ plan => exists_commit_of_revertPlan taken plan) posted
    obtain ⟨rfl, outside⟩ := AccountRows.revertPlan_eq_error there refused
    have change := Amount.val_neg (backed.positive original member).le
    exact .overflow original member own taken row there _ change (change ▸ outside)
  | ok added =>
    obtain ⟨result, after⟩ := added
    obtain ⟨rfl, e, reverted⟩ := reverted_of_post backed asked present posted
    simp only [Books.apply, posted]
    exact .reverted result member own taken e after reverted

/-- A reversal succeeds when the entry is known, the reference of the reversal is free and the
balance stays within the range of amounts. -/
theorem RevertOutcome.isOk_iff {result : Except LedgerError Entry} (backed : b.Backed)
    (outcome : RevertOutcome b c id result after) :
    result.isOk = true ↔ ∃ original ∈ b.entries, original.id = id ∧
      ¬ b.HasKey (original.organizationId, original.transactionId) ∧
      ∃ row, b.findBalance original.account = some row ∧
        ∃ sum : Amount, sum.val = row.balance.val - original.amount.val := by
  have sole {e e' : Entry} (member : e ∈ b.entries) (member' : e' ∈ b.entries)
      (own : e.id = id) (own' : e'.id = id) : e = e' :=
    List.inj_on_of_nodup_map backed.entryIds member member' (own.trans own'.symm)
  cases outcome with
  | unknown absent =>
    refine iff_of_false (by simp [Except.isOk, Except.toBool]) ?_
    rintro ⟨original, member, own, -⟩
    exact absent original member own
  | taken original member own taken =>
    refine iff_of_false (by simp [Except.isOk, Except.toBool]) ?_
    rintro ⟨other, member', own', free, -⟩
    obtain rfl := sole member member' own own'
    exact free taken
  | overflow original member own free row present delta change outside =>
    refine iff_of_false (by simp [Except.isOk, Except.toBool]) ?_
    rintro ⟨other, member', own', -, row', present', sum, same⟩
    obtain rfl := sole member member' own own'
    obtain rfl := Option.some.inj (present.symm.trans present')
    exact outside sum same
  | reverted original member own free e after reverted =>
    obtain ⟨row, row', present, -, moved⟩ := reverted.balance
    exact iff_of_true rfl ⟨original, member, own, free, row, present, row'.balance, moved⟩

end Books

/-! ### Calls on a store -/

/-- What becomes of a request for a new entry after any calls on an empty store, as long as random
bytes can be drawn: it is refused over its fields, over its reference, over the exact sum of the
pools or over the range of the balance, with the books as they were, or its entry is committed and
given back. -/
theorem Memory.add_outcome {calls : List Call} {c : Call}
    (apart : (calls ++ [c]).Pairwise Call.Apart) {r : EntryRequest} (asked : c.mutation = .add r)
    {transactionId : String} (drawn : c.transactionId = .ok transactionId) :
    let m := (({} : Memory).serve calls).2
    Books.AddOutcome m.books c r (c.run m).1 (c.run m).2.books ∧
    ((c.run m).1.isOk = true ↔ validateRequest r = .ok () ∧
      ¬ m.books.HasKey (r.organizationId, r.referenceId) ∧
      (r.kind = .debit → r.amount.val ≤ (m.books.rows r.account).pooled) ∧
      ∃ sum : Amount, sum.val = (m.books.rows r.account).points + r.change) := by
  intro m
  obtain ⟨before, -, last⟩ := List.pairwise_append.mp apart
  have backed : m.books.Backed := backed_of_serve before
  have served := serve_eq_applyAll atRest_empty calls
  obtain ⟨result, books, -⟩ := c.run_eq_apply served.2.2
  -- Pools stand for entries of the calls before, none of which has drawn this identifier.
  have fresh : m.books.hasPoolOf c.entryId = false := by
    rw [served.2.1]
    exact (Books.sourced_applyAll before).hasPoolOf_eq_false fun c' called =>
      last c' called c (List.mem_singleton_self c)
  have outcome := Books.addOutcome_apply backed fresh asked drawn
  rw [← result, ← books] at outcome
  exact ⟨outcome, outcome.isOk_iff⟩

theorem Memory.add_outcome_after_reversal :
    let calls := [
      Call.numbered 0 (.add ⟨"acme", "ann", .credit, ⟨10, by decide⟩, "first", "", []⟩),
      Call.numbered 1 (.revert ⟨Uuid.ofNat 0⟩)]
    let r : EntryRequest := ⟨"acme", "ann", .debit, ⟨4, by decide⟩, "second", "", []⟩
    let c := Call.numbered 2 (.add r)
    let m := (({} : Memory).serve calls).2
    ((m.books.rows r.account).points = 0 ∧ (m.books.rows r.account).pooled = 10) ∧
    Books.AddOutcome m.books c r (c.run m).1 (c.run m).2.books ∧
    ((c.run m).1.isOk = true ↔ validateRequest r = .ok () ∧
      ¬ m.books.HasKey (r.organizationId, r.referenceId) ∧
      (r.kind = .debit → r.amount.val ≤ (m.books.rows r.account).pooled) ∧
      ∃ sum : Amount, sum.val = (m.books.rows r.account).points + r.change) := by
  intro calls r c m
  have apart : (calls ++ [c]).Pairwise Call.Apart := by
    repeat' apply List.Pairwise.cons
    all_goals simp [c, Call.numbered_apart]
  have drawn : c.transactionId = .ok "19700101-000000" := by decide +kernel
  exact ⟨by decide +kernel, Memory.add_outcome apart rfl drawn⟩

/-- What becomes of a call to revert an entry after any calls on an empty store, as long as random
bytes can be drawn: it is refused over an unknown id, over the transaction id of the original or
over the range of the balance, with the books as they were, or the reversal is committed and the
original given back. -/
theorem Memory.revert_outcome {calls : List Call} {c : Call}
    (apart : (calls ++ [c]).Pairwise Call.Apart) {id : EntryId} (asked : c.mutation = .revert id)
    {transactionId : String} (drawn : c.transactionId = .ok transactionId) :
    let m := (({} : Memory).serve calls).2
    Books.RevertOutcome m.books c id (c.run m).1 (c.run m).2.books ∧
    ((c.run m).1.isOk = true ↔ ∃ original ∈ m.books.entries, original.id = id ∧
      ¬ m.books.HasKey (original.organizationId, original.transactionId) ∧
      ∃ row, m.books.findBalance original.account = some row ∧
        ∃ sum : Amount, sum.val = row.balance.val - original.amount.val) := by
  intro m
  obtain ⟨before, -, -⟩ := List.pairwise_append.mp apart
  have backed : m.books.Backed := backed_of_serve before
  obtain ⟨result, books, -⟩ := c.run_eq_apply (serve_eq_applyAll atRest_empty calls).2.2
  have outcome := Books.revertOutcome_apply backed asked drawn
  rw [← result, ← books] at outcome
  exact ⟨outcome, outcome.isOk_iff backed⟩

theorem Memory.revert_outcome_of_debit :
    let calls := [
      Call.numbered 0 (.add ⟨"acme", "ann", .credit, ⟨10, by decide⟩, "first", "", []⟩),
      Call.numbered 1 (.add ⟨"acme", "ann", .debit, ⟨4, by decide⟩, "second", "", []⟩)]
    let id : EntryId := ⟨Uuid.ofNat 3⟩
    let c := Call.numbered 2 (.revert id)
    let m := (({} : Memory).serve calls).2
    (m.books.entries.map (·.id) = [⟨Uuid.ofNat 0⟩, id] ∧
      (m.books.rows ⟨"acme", "ann"⟩).points = 6) ∧
    Books.RevertOutcome m.books c id (c.run m).1 (c.run m).2.books ∧
    ((c.run m).1.isOk = true ↔ ∃ original ∈ m.books.entries, original.id = id ∧
      ¬ m.books.HasKey (original.organizationId, original.transactionId) ∧
      ∃ row, m.books.findBalance original.account = some row ∧
        ∃ sum : Amount, sum.val = row.balance.val - original.amount.val) := by
  intro calls id c m
  have apart : (calls ++ [c]).Pairwise Call.Apart := by
    repeat' apply List.Pairwise.cons
    all_goals simp [c, Call.numbered_apart]
  have drawn : c.transactionId = .ok "19700101-000000" := by decide +kernel
  exact ⟨by decide +kernel, Memory.revert_outcome apart rfl drawn⟩

end PointLedger
