import PointLedger.Proofs.Catalogue

/-!
What a call is refused over. Of the rules on unique rows the one on references alone can be broken,
as long as no pool stands for the entry that the call creates: no account opens a second balance
row. So a call that is refused over a unique row finds a committed entry with the reference that it
wants.
-/

namespace PointLedger

/-- True of failures that a rule on unique rows leads to. -/
def LedgerError.isConflict : LedgerError → Bool
  | .alreadyExists _ _ | .store (.uniqueViolation _) => true
  | _ => false

namespace Books

variable {b after : Books} {c : Call} {calls : List Call} {t : Transaction} {e : Entry}
  {organizationId referenceId : String} {error : LedgerError}

/-- The organization and the reference that a call wants for its entry. -/
def wanted (b : Books) (c : Call) : Option (String × String) :=
  match c.mutation with
  | .add r => some (r.organizationId, r.referenceId)
  | .revert id => (b.findEntry (.byId id)).map fun e => (e.organizationId, e.transactionId)

theorem refuseTaken_eq_error
    (refused : b.refuseTaken organizationId referenceId = .error error) :
    error = .alreadyExists organizationId referenceId ∧ b.HasKey (organizationId, referenceId) := by
  unfold refuseTaken at refused
  cases found : b.findEntry (.byReference organizationId referenceId) with
  | none => simp [found, Ledger.refuseTaken] at refused
  | some e =>
    rw [found] at refused
    cases refused
    have matched : (EntryLookup.byReference organizationId referenceId).isMatch e = true :=
      List.find?_some found
    exact ⟨rfl, e, List.mem_of_find?_eq_some found, Entry.hasReference_iff.mp matched⟩

theorem refuseTaken_of_hasKey (taken : b.HasKey (organizationId, referenceId)) :
    b.refuseTaken organizationId referenceId =
      .error (.alreadyExists organizationId referenceId) := by
  obtain ⟨e, member, key⟩ := taken
  have matched : (EntryLookup.byReference organizationId referenceId).isMatch e = true :=
    Entry.hasReference_iff.mpr key
  unfold refuseTaken
  cases found : b.findEntry (.byReference organizationId referenceId) with
  | none => exact absurd matched (List.find?_eq_none.mp found e member)
  | some e' => rfl

/-! ### What a commit refuses -/

theorem checkPoolUpdate_ne_uniqueViolation (b : Books) (update : CreditPool)
    (constraint : String) : b.checkPoolUpdate update ≠ .error (.uniqueViolation constraint) := by
  unfold checkPoolUpdate
  intro refused
  repeat' split at refused
  all_goals cases refused

theorem forM_checkPoolUpdate_ne_uniqueViolation (b : Books) (updates : List CreditPool)
    (constraint : String) :
    updates.forM b.checkPoolUpdate ≠ .error (.uniqueViolation constraint) := by
  induction updates with
  | nil => exact nofun
  | cons update rest ih =>
    rw [List.forM_eq_forM, List.forM_cons]
    cases checked : b.checkPoolUpdate update with
    | error error =>
      rw [error_bind]
      rintro ⟨⟩
      exact b.checkPoolUpdate_ne_uniqueViolation update constraint checked
    | ok _ => exact ih

/-- A commit breaks a rule on unique rows over a reference or over a balance row that it opens. -/
theorem commit_eq_uniqueViolation {constraint : String}
    (refused : b.commit t = .error (.uniqueViolation constraint)) :
    (∃ e ∈ t.entries, b.HasKey e.key) ∨
      ∃ row ∈ t.newBalances, ∃ old ∈ b.balances, old.account = row.account := by
  unfold commit at refused
  cases taken : t.entries.any b.hasReferenceOf with
  | true =>
    obtain ⟨e, staged, known⟩ := List.any_eq_true.mp taken
    exact .inl ⟨e, staged, hasReferenceOf_iff.mp known⟩
  | false =>
    cases opened : t.newBalances.any fun row => b.balances.any (·.account == row.account) with
    | true =>
      obtain ⟨row, staged, held⟩ := List.any_eq_true.mp opened
      obtain ⟨old, member, same⟩ := List.any_eq_true.mp held
      exact .inr ⟨row, staged, old, member, eq_of_beq same⟩
    | false =>
      cases checked : t.poolUpdates.forM b.checkPoolUpdate with
      | ok _ => simp [taken, opened, checked] at refused
      | error error =>
        obtain rfl : error = .uniqueViolation constraint := by
          simpa [taken, opened, checked] using refused
        exact absurd checked (b.forM_checkPoolUpdate_ne_uniqueViolation _ _)

/-- Settling one entry fails over a unique row only when the entry's reference is taken, provided
that the transaction opens no balance row besides another one. -/
theorem settle_eq_conflict (entries : t.entries = [e])
    (key : e.key = (organizationId, referenceId))
    (opens : ∀ row ∈ t.newBalances, b.findBalance row.account = none)
    (refused : b.settle organizationId referenceId t = .error error)
    (conflict : error.isConflict = true) :
    error = .alreadyExists organizationId referenceId ∧ b.HasKey (organizationId, referenceId) := by
  unfold settle at refused
  cases committed : b.commit t with
  | ok after => simp [committed] at refused
  | error failure =>
    rw [committed, mapError_error] at refused
    cases refused
    cases failure with
    | uniqueViolation constraint =>
      refine ⟨rfl, ?_⟩
      rcases commit_eq_uniqueViolation committed with
        ⟨e', staged, taken⟩ | ⟨row, staged, old, held, same⟩
      · rw [entries, List.mem_singleton] at staged
        exact key ▸ staged ▸ taken
      · exact absurd (beq_iff_eq.mpr same) (List.find?_eq_none.mp (opens row staged) old held)
    | _ => cases conflict

end Books

/-! ### What a plan refuses -/

namespace AccountRows

variable {v : AccountRows} {c : Call} {d : Draft} {t : Transaction} {e : Entry}
  {transactionId : String} {error : LedgerError}

theorem isConflict_of_apply {row : Balance} {delta : Amount} {time : Timestamp}
    (refused : row.apply delta time = .error error) : error.isConflict = false := by
  unfold Balance.apply at refused
  split at refused <;> cases refused
  rfl

theorem isConflict_of_allocate {pools : List CreditPool} {amount : Amount}
    (refused : allocate pools amount = .error error) : error.isConflict = false := by
  unfold allocate at refused
  dsimp only at refused
  repeat' split at refused
  all_goals cases refused
  all_goals rfl

theorem isConflict_of_creditPlan (refused : v.creditPlan false d c = .error error) :
    error.isConflict = false := by
  unfold creditPlan at refused
  simp only [Bool.false_eq_true, ↓reduceIte] at refused
  cases balance : v.balance with
  | none =>
    rw [balance] at refused
    cases refused
  | some row =>
    rw [balance] at refused
    rcases eq_error_of_bind refused with failed | ⟨row', -, done⟩
    · exact isConflict_of_apply failed
    · cases done

theorem isConflict_of_funding (refused : v.funding d = .error error) :
    error.isConflict = false := by
  unfold funding at refused
  dsimp only at refused
  split at refused
  · cases refused
    rfl
  · cases balance : v.balance with
    | none =>
      rw [balance] at refused
      cases refused
      rfl
    | some row =>
      rw [balance] at refused
      rcases eq_error_of_bind refused with failed | ⟨allocations, -, done⟩
      · exact isConflict_of_allocate failed
      · cases done

theorem isConflict_of_debitPlan (refused : v.debitPlan d = .error error) :
    error.isConflict = false := by
  rcases eq_error_of_bind refused with failed | ⟨⟨allocations, row⟩, -, rest⟩
  · exact isConflict_of_funding failed
  · rcases eq_error_of_bind rest with failed | ⟨row', -, done⟩
    · exact isConflict_of_apply failed
    · cases done

/-- The plan of a new entry whose credit has no pool yet breaks no rule on unique rows. -/
theorem isConflict_of_addPlan {r : EntryRequest}
    (refused : v.addPlan false r c transactionId = .error error) : error.isConflict = false := by
  unfold addPlan at refused
  cases kind : r.kind with
  | credit =>
    simp only [kind] at refused
    exact isConflict_of_creditPlan refused
  | debit =>
    simp only [kind] at refused
    exact isConflict_of_debitPlan refused

theorem isConflict_of_revertPlan {reverted : Entry}
    (refused : v.revertPlan reverted c transactionId = .error error) :
    error.isConflict = false := by
  unfold revertPlan at refused
  cases balance : v.balance with
  | none =>
    rw [balance] at refused
    cases refused
    rfl
  | some row =>
    rw [balance] at refused
    rcases eq_error_of_bind refused with failed | ⟨row', -, done⟩
    · exact isConflict_of_apply failed
    · cases done

/-- A plan opens a balance row only for an account that has none. -/
theorem balance_eq_none_of_addPlan {r : EntryRequest} {hasPool : Bool}
    (plan : v.addPlan hasPool r c transactionId = .ok (e, t)) {row : Balance}
    (opened : row ∈ t.newBalances) : v.balance = none ∧ row.account = r.account := by
  unfold addPlan at plan
  cases kind : r.kind with
  | credit =>
    simp only [kind] at plan
    obtain ⟨-, -, ⟨_, _, _, _, rfl⟩ | ⟨absent, rfl⟩⟩ := creditPlan_eq_ok plan
    · cases opened
    · rw [List.mem_singleton.mp opened]
      exact ⟨absent, rfl⟩
  | debit =>
    simp only [kind] at plan
    obtain ⟨_, _, _, _, _, _, _, rfl⟩ := debitPlan_eq_ok plan
    cases opened

theorem newBalances_eq_nil_of_revertPlan {reverted : Entry}
    (plan : v.revertPlan reverted c transactionId = .ok (e, t)) : t.newBalances = [] := by
  obtain ⟨_, _, _, _, _, rfl⟩ := revertPlan_eq_ok plan
  rfl

end AccountRows

/-! ### What a call is refused over -/

theorem Call.isConflict_of_transactionId {c : Call} {error : LedgerError}
    (refused : c.transactionId = .error error) : error.isConflict = false := by
  unfold Call.transactionId at refused
  split at refused <;> cases refused
  rfl

namespace Books

variable {b : Books} {c : Call} {error : LedgerError}

/-- Work that is refused over a unique row finds the reference taken that it wants. -/
theorem finish_eq_conflict {job : Job} (proper : job.Proper)
    (planned : ∀ error, job.plan (b.rows job.account) (b.hasPoolOf c.entryId) = .error error →
      error.isConflict = false)
    (opens : ∀ v hasPool e t, job.plan v hasPool = .ok (e, t) →
      ∀ row ∈ t.newBalances, v.balance = none ∧ row.account = job.account)
    (refused : job.finish c b = .error error) (conflict : error.isConflict = true) :
    error = .alreadyExists job.account.organizationId job.reference ∧
      b.HasKey (job.account.organizationId, job.reference) := by
  rcases eq_error_of_bind refused with taken | ⟨_, -, rest⟩
  · exact refuseTaken_eq_error taken
  rcases eq_error_of_bind rest with failed | ⟨⟨e, t⟩, plan, rest⟩
  · rw [planned error failed] at conflict
    cases conflict
  rcases eq_error_of_bind rest with unsettled | ⟨after, -, done⟩
  · obtain ⟨entries, account, reference⟩ := proper _ _ e t plan
    have key : e.key = (job.account.organizationId, job.reference) :=
      Prod.ext (congrArg Account.organizationId account) reference
    refine settle_eq_conflict entries key (fun row opened => ?_) unsettled conflict
    obtain ⟨absent, own⟩ := opens _ _ e t plan row opened
    exact own ▸ absent
  · cases done

/-- A call that is refused over a unique row finds the reference taken that it wants. For a new
entry this takes an identifier that no pool stands for yet. -/
theorem post_eq_conflict
    (fresh : ∀ r, c.mutation = .add r → b.hasPoolOf c.entryId = false)
    (refused : b.post c = .error error) (conflict : error.isConflict = true) :
    ∃ organizationId referenceId, error = .alreadyExists organizationId referenceId ∧
      b.wanted c = some (organizationId, referenceId) ∧ b.HasKey (organizationId, referenceId) := by
  cases asked : c.mutation with
  | add r =>
    refine ⟨r.organizationId, r.referenceId, ?_⟩
    have wanted : b.wanted c = some (r.organizationId, r.referenceId) := by
      simp [Books.wanted, asked]
    suffices error = .alreadyExists r.organizationId r.referenceId ∧
        b.HasKey (r.organizationId, r.referenceId) from ⟨this.1, wanted, this.2⟩
    cases valid : validateRequest r with
    | error violation =>
      simp only [post, asked, valid, mapError_error, error_bind] at refused
      cases refused
      cases conflict
    | ok _ =>
    cases drawn : c.transactionId with
    | error failure =>
      simp only [post, asked, valid, drawn, mapError_ok, ok_bind, error_bind] at refused
      rcases eq_error_of_bind refused with taken | ⟨_, -, failed⟩
      · exact refuseTaken_eq_error taken
      · cases failed
        rw [Call.isConflict_of_transactionId drawn] at conflict
        cases conflict
    | ok transactionId =>
      rw [(EntryRequest.job_fits asked valid drawn b).post] at refused
      refine finish_eq_conflict (r.job_proper c transactionId) (fun error failed => ?_)
        (fun v hasPool e t plan row opened => ?_) refused conflict
      · rw [fresh r asked] at failed
        exact AccountRows.isConflict_of_addPlan failed
      · exact AccountRows.balance_eq_none_of_addPlan plan opened
  | revert id =>
    cases present : b.findEntry (.byId id) with
    | none =>
      simp only [post, asked, present] at refused
      cases refused
      cases conflict
    | some reverted =>
      refine ⟨reverted.organizationId, reverted.transactionId, ?_⟩
      have wanted : b.wanted c = some (reverted.organizationId, reverted.transactionId) := by
        simp [Books.wanted, asked, present]
      suffices error = .alreadyExists reverted.organizationId reverted.transactionId ∧
          b.HasKey (reverted.organizationId, reverted.transactionId) from ⟨this.1, wanted, this.2⟩
      cases drawn : c.transactionId with
      | error failure =>
        simp only [post, asked, present, drawn, error_bind] at refused
        rcases eq_error_of_bind refused with taken | ⟨_, -, failed⟩
        · exact refuseTaken_eq_error taken
        · cases failed
          rw [Call.isConflict_of_transactionId drawn] at conflict
          cases conflict
      | ok transactionId =>
        rw [(Entry.revertJob_fits asked drawn present).post] at refused
        refine finish_eq_conflict (reverted.revertJob_proper c transactionId)
          (fun error failed => AccountRows.isConflict_of_revertPlan failed)
          (fun v hasPool e t plan row opened => ?_) refused conflict
        rw [AccountRows.newBalances_eq_nil_of_revertPlan plan] at opened
        cases opened

/-- A reversal is refused over a unique row exactly when the transaction id of the entry that it
reverts is a reference in its organization. -/
theorem post_revert_eq_alreadyExists_iff {original : Entry}
    (asked : c.mutation = .revert original.id)
    (present : b.findEntry (.byId original.id) = some original) :
    (∃ organizationId referenceId,
        b.post c = .error (.alreadyExists organizationId referenceId)) ↔
      b.HasKey (original.organizationId, original.transactionId) := by
  constructor
  · rintro ⟨organizationId, referenceId, refused⟩
    obtain ⟨_, _, -, wanted, taken⟩ :=
      post_eq_conflict (fun r added => by rw [asked] at added; cases added) refused rfl
    simp only [Books.wanted, asked, present, Option.map_some, Option.some.injEq] at wanted
    exact wanted ▸ taken
  · intro taken
    refine ⟨original.organizationId, original.transactionId, ?_⟩
    simp only [post, asked, present, refuseTaken_of_hasKey taken, error_bind]

end Books

end PointLedger
