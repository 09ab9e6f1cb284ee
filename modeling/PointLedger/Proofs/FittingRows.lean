import PointLedger.Proofs.AdmittedWrites
import PointLedger.Proofs.Commitment
import PointLedger.Proofs.Observance
import PointLedger.Proofs.UniqueRows

/-!
The rows that calls commit. A request that passes its checks and a transaction id of the ledger's
own make an entry that fits its table, and so does the reversal of an entry that fits. So the books
after calls that draw identifiers of their own hold only entries that fit, and an account that has a
balance row never gets a second one.
-/

namespace PointLedger

/-! ### The draft behind a new entry -/

/-- What the entry is drafted from that a call adds to the books. -/
inductive DraftOf (b : Books) (c : Call) (transactionId : String) : Draft → Prop where
  | credit {r : EntryRequest} (asked : c.mutation = .add r) (valid : validateRequest r = .ok ()) :
    DraftOf b c transactionId (r.draft c transactionId (b.rows r.account).tail)
  | debit {r : EntryRequest} (asked : c.mutation = .add r) (valid : validateRequest r = .ok ())
      (allocations : List Allocation) :
    DraftOf b c transactionId ((r.draft c transactionId (b.rows r.account).tail).debit allocations)
  | reversal {original : Entry} (asked : c.mutation = .revert original.id)
      (member : original ∈ b.entries) :
    DraftOf b c transactionId (original.reversal c transactionId (b.rows original.account).tail)

/-- A call that succeeds adds one entry, which it has sealed. -/
theorem Books.draftOf_of_post {b after : Books} {c : Call} {result : Entry}
    (posted : b.post c = .ok (result, after)) :
    ∃ transactionId d, c.transactionId = .ok transactionId ∧ DraftOf b c transactionId d ∧
      after.entries = b.entries ++ [d.sealed] := by
  have appended {e : Entry} {t : Transaction} (staged : t.entries = [e])
      (committed : b.commit t = .ok after) : after.entries = b.entries ++ [e] := by
    obtain ⟨-, -, -, rfl⟩ := commit_eq_ok committed
    rw [staged]
  obtain ⟨transactionId, drawn, ⟨r, t, asked, valid, plan, committed⟩ |
    ⟨id, e, t, asked, present, plan, committed⟩⟩ := post_eq_ok posted
  · obtain ⟨staged, -⟩ := r.job_proper c transactionId _ _ result t plan
    simp only [AccountRows.addPlan] at plan
    cases kind : r.kind with
    | credit =>
      simp only [kind] at plan
      obtain ⟨-, rfl, -⟩ := AccountRows.creditPlan_eq_ok plan
      exact ⟨transactionId, _, drawn, .credit asked valid, appended staged committed⟩
    | debit =>
      simp only [kind] at plan
      obtain ⟨allocations, _, _, -, -, rfl, -, -⟩ := AccountRows.debitPlan_eq_ok plan
      exact ⟨transactionId, _, drawn, .debit asked valid allocations, appended staged committed⟩
  · obtain ⟨staged, -⟩ := result.revertJob_proper c transactionId _ false e t plan
    obtain ⟨_, _, -, rfl, -, -⟩ := AccountRows.revertPlan_eq_ok plan
    obtain ⟨member, rfl⟩ := mem_of_findEntry present
    exact ⟨transactionId, _, drawn, .reversal asked member, appended staged committed⟩

/-! ### Transaction ids and hashes -/

theorem Text.length_padded_le {width most n : Nat} (positive : 0 < most) (room : width ≤ most)
    (small : n < 10 ^ most) : (padded width n).length ≤ most := by
  have digits := (Nat.length_toDigits_le_iff (by decide : 1 < 10) positive).mpr small
  rw [padded, List.length_append, List.length_replicate]
  omega

/-- A year of the calendar takes at most a sign and six digits. -/
theorem Date.length_yearChars_le (d : Date) : (yearChars d.year).length ≤ 7 := by
  obtain ⟨first, last⟩ := d.valid.1
  have numeral : (Text.padded 4 d.year.natAbs).length ≤ 6 :=
    Text.length_padded_le (by decide) (by decide) (by omega)
  unfold yearChars
  split
  · rw [Text.length_digits]
    decide
  · split <;> exact Nat.succ_le_succ numeral

theorem length_transactionId_le (time : Timestamp) (bytes : RandomBytes) :
    (transactionId time bytes).length ≤ 32 := by
  have year := time.date.length_yearChars_le
  simp only [transactionId, Timestamp.compactDate, String.length_append, String.length_ofList,
    List.length_append, List.length_map, length_twoDigits, Text.length_digits]
  have hyphen : "-".length = 1 := rfl
  omega

theorem Call.length_transactionId_le {c : Call} {transactionId : String}
    (drawn : c.transactionId = .ok transactionId) : transactionId.length ≤ 32 := by
  unfold Call.transactionId at drawn
  split at drawn
  · cases drawn
    exact PointLedger.length_transactionId_le _ _
  · cases drawn

theorem Entry.length_computeHash (e : Entry) : e.computeHash.length = 64 := Sha256.length_hex _

theorem Uuid.length_text (id : Uuid) : id.text.length = 36 := by
  have digits := Text.length_digits 16 32 id.value
  simp only [text, String.length_ofList, chars, List.length_append, List.length_cons,
    List.length_take, List.length_drop, digits]
  rfl

/-! ### Entries that fit -/

/-- The hash that the next entry of a chain points at fits its column. -/
theorem AccountRows.length_linkAfter_le {v : AccountRows} (fits : ∀ e ∈ v.entries, e.Fits) :
    (Ledger.linkAfter v.tail).length ≤ 64 := by
  cases last : v.tail with
  | none => decide
  | some e => exact (fits e (Entry.mem_of_latest? last)).hash

/-- The draft makes an entry that fits. -/
structure Draft.Fits (d : Draft) : Prop where
  amount : 0 < d.amount.val
  account : d.account.Fits
  transaction : d.transactionId.length ≤ 32
  reference : d.referenceId.length ≤ 255
  description : d.description.length ≤ 1024
  previous : d.previousHash.length ≤ 64

theorem Draft.Fits.sealed {d : Draft} (fits : d.Fits) : d.sealed.Fits where
  amount := fits.amount
  account := fits.account
  transaction := fits.transaction
  reference := fits.reference
  description := fits.description
  previous := fits.previous
  hash := (Entry.length_computeHash _).le

/-- What a debit draws on takes no room in the columns that have a size. -/
theorem Draft.Fits.debit {d : Draft} (fits : d.Fits) (allocations : List Allocation) :
    (d.debit allocations).Fits :=
  ⟨fits.amount, fits.account, fits.transaction, fits.reference, fits.description, fits.previous⟩

theorem validateIdentifier_eq_ok {field value : String}
    (valid : validateIdentifier field value = .ok ()) : value.length ≤ 255 := by
  unfold validateIdentifier at valid
  dsimp only at valid
  split at valid
  · cases valid
  · split at valid
    · cases valid
    · rename_i short
      rw [← String.length_toList]
      exact Nat.le_of_not_lt short

/-- No control character passes in an identifier. -/
theorem not_mem_of_validateIdentifier {field value : String} {c : Char}
    (valid : validateIdentifier field value = .ok ()) (control : Text.isControl c = true) :
    c ∉ value.toList := by
  unfold validateIdentifier at valid
  dsimp only at valid
  split at valid
  · cases valid
  · split at valid
    · cases valid
    · split at valid
      · cases valid
      · rename_i clean
        exact fun member => clean (List.any_eq_true.mpr ⟨c, member, control⟩)

namespace EntryRequest

variable {r : EntryRequest} {c : Call} {transactionId : String} {v : AccountRows}

theorem account_fits (valid : validateRequest r = .ok ()) : r.account.Fits := by
  obtain ⟨_, organization, rest⟩ := eq_ok_of_bind valid
  obtain ⟨_, user, -⟩ := eq_ok_of_bind rest
  exact ⟨validateIdentifier_eq_ok organization, validateIdentifier_eq_ok user⟩

/-- A request that passes its checks makes an entry that fits. -/
theorem draft_fits (valid : validateRequest r = .ok ())
    (drawn : c.transactionId = .ok transactionId) (fits : ∀ e ∈ v.entries, e.Fits) :
    (r.draft c transactionId v.tail).Fits := by
  obtain ⟨_, -, rest⟩ := eq_ok_of_bind valid
  obtain ⟨_, -, rest⟩ := eq_ok_of_bind rest
  obtain ⟨_, reference, rest⟩ := eq_ok_of_bind rest
  obtain ⟨_, -, rest⟩ := eq_ok_of_bind rest
  obtain ⟨_, description, -⟩ := eq_ok_of_bind rest
  refine ⟨(Books.validateRequest_eq_ok valid).1, account_fits valid,
    Call.length_transactionId_le drawn, validateIdentifier_eq_ok reference, ?_,
    v.length_linkAfter_le fits⟩
  unfold validateDescription at description
  split at description
  · cases description
  · exact Nat.le_of_not_lt ‹_›

end EntryRequest

/-- The reversal of an entry that fits has its transaction id for a reference, and fits. -/
theorem Entry.Fits.reversal {e : Entry} (fits : e.Fits) {c : Call} {transactionId : String}
    {v : AccountRows} (drawn : c.transactionId = .ok transactionId)
    (chain : ∀ e ∈ v.entries, e.Fits) : (e.reversal c transactionId v.tail).Fits where
  amount := fits.amount
  account := fits.account
  transaction := Call.length_transactionId_le drawn
  reference := fits.transaction.trans (by decide)
  description := by
    have id : (toString e.id).length = 36 := e.id.uuid.length_text
    have words : (toString "Revert of ").length = 10 := rfl
    simp [Entry.reversal, id, words]
  previous := v.length_linkAfter_le chain

/-! ### Sound books -/

/-- The committed entries fit their table, no two entries share a reference, no two balance rows an
account, and no two pools or balance rows an identifier. -/
structure Books.Sound (b : Books) : Prop extends b.Distinct where
  fits : ∀ e ∈ b.entries, e.Fits
  poolIds : (b.pools.map (·.id)).Nodup
  balanceIds : (b.balances.map (·.id)).Nodup

namespace Books

variable {b after : Books} {c : Call} {result : Entry} {calls : List Call}

theorem sound_empty : Books.Sound {} :=
  ⟨⟨List.nodup_nil, List.nodup_nil⟩, fun _ => nofun, List.nodup_nil, List.nodup_nil⟩

theorem Sound.rows (sound : b.Sound) (a : Account) : ∀ e ∈ (b.rows a).entries, e.Fits :=
  fun e member => sound.fits e (List.mem_filter.mp member).1

/-- The entry that a call commits fits its table. -/
theorem Sound.fits_of_post (sound : b.Sound) (posted : b.post c = .ok (result, after)) :
    ∀ e ∈ after.entries, e.Fits := by
  obtain ⟨transactionId, d, drawn, drafted, entries⟩ := draftOf_of_post posted
  rw [entries]
  refine List.forall_mem_append.mpr ⟨sound.fits, List.forall_mem_singleton.mpr ?_⟩
  cases drafted with
  | @credit r _ valid => exact (r.draft_fits valid drawn (sound.rows r.account)).sealed
  | @debit r _ valid allocations =>
    exact ((r.draft_fits valid drawn (sound.rows r.account)).debit allocations).sealed
  | @reversal original _ member =>
    exact ((sound.fits original member).reversal drawn (sound.rows original.account)).sealed

/-- Putting a row in the place of the one that it was moves nothing else. -/
theorem map_putBalance {β : Type} {rows : List Balance} {row old : Balance} (f : Balance → β)
    (distinct : (rows.map Balance.account).Nodup) (there : old ∈ rows)
    (moved : old.OnlyMoved row) (same : f old = f row) :
    (Transaction.putBalance rows row).map f = rows.map f := by
  refine map_upsert_of_mem f ⟨old, there, by simp [moved.account_eq]⟩ fun r member owns => ?_
  have owner : r.account = old.account := (eq_of_beq owns).trans moved.account_eq
  rw [List.inj_on_of_nodup_map distinct member there owner, same]

/-- A call that succeeds leaves the balance rows with their identifiers and accounts, or it adds the
first row of an account. -/
theorem balances_of_post (distinct : b.Distinct) (posted : b.post c = .ok (result, after)) :
    (after.balances.map (·.id) = b.balances.map (·.id) ∧
        after.balances.map Balance.account = b.balances.map Balance.account) ∨
      ∃ row : Balance, row.id = c.balanceId ∧ after.balances = b.balances ++ [row] := by
  obtain ⟨e, t, stamped, committed⟩ := stamped_of_post posted
  obtain ⟨-, -, -, rfl⟩ := commit_eq_ok committed
  obtain ⟨row, puts, ⟨old, present, moved⟩ | ⟨absent, own, account⟩⟩ := stamped.balance
  · have there := (mem_of_findBalance present).1
    simp only [puts, List.foldl_cons, List.foldl_nil]
    exact .inl ⟨map_putBalance _ distinct.balances there moved moved.id_eq.symm,
      map_putBalance _ distinct.balances there moved moved.account_eq.symm⟩
  · refine .inr ⟨row, own, ?_⟩
    simp only [puts, List.foldl_cons, List.foldl_nil]
    refine upsert_of_absent fun r member => beq_eq_false_iff_ne.mpr ?_
    rw [account]
    simpa using List.find?_eq_none.mp absent r member

/-- A call keeps the books sound, when its identifiers are in no row. -/
theorem Sound.apply (sound : b.Sound) (unused : b.Unused c) : (b.apply c).2.Sound := by
  cases posted : b.post c with
  | error error => simpa [Books.apply, posted] using sound
  | ok added =>
    obtain ⟨result, after⟩ := added
    obtain ⟨e, t, stamped, committed⟩ := stamped_of_post posted
    obtain ⟨e', adds⟩ := posted_of_post sound.poolIds posted
    simp only [Books.apply, posted]
    refine ⟨sound.toDistinct.commit ?_ committed, sound.fits_of_post posted, ?_, ?_⟩
    · rw [stamped.entries]
      exact List.nodup_singleton _
    · have ids (b : Books) : b.pools.map (·.id) = (b.pools.map CreditPool.key).map Prod.fst := by
        simp [CreditPool.key, Function.comp_def]
      rw [ids]
      rcases adds.keys with same | opened
      · rw [same, ← ids]
        exact sound.poolIds
      · rw [opened, List.map_append, ← ids, List.map_singleton, ← List.concat_eq_append]
        refine (List.nodup_concat _ _).mpr ⟨fun taken => ?_, sound.poolIds⟩
        obtain ⟨p, member, own⟩ := List.mem_map.mp taken
        exact unused.pools p member own
    · rcases balances_of_post sound.toDistinct posted with ⟨ids, -⟩ | ⟨row, own, grown⟩
      · rw [ids]
        exact sound.balanceIds
      · rw [grown, List.map_append, List.map_singleton, own, ← List.concat_eq_append]
        refine (List.nodup_concat _ _).mpr ⟨fun taken => ?_, sound.balanceIds⟩
        obtain ⟨r, member, same⟩ := List.mem_map.mp taken
        exact unused.balances r member same

theorem Unused.applyAll (unused : b.Unused c) (apart : ∀ c' ∈ calls, c.Apart c') :
    (b.applyAll calls).2.Unused c := by
  induction calls generalizing b with
  | nil => exact unused
  | cons first rest ih =>
    obtain ⟨own, later⟩ := List.forall_mem_cons.mp apart
    exact ih (unused.apply own) later

/-- The books after calls that draw identifiers of their own. -/
theorem sound_applyAll (apart : calls.Pairwise Call.Apart) : (applyAll {} calls).2.Sound := by
  induction calls using List.reverseRecOn with
  | nil => exact sound_empty
  | append_singleton calls c ih =>
    obtain ⟨earlier, -, others⟩ := List.pairwise_append.mp apart
    rw [applyAll_concat]
    refine (ih earlier).apply ((unused_empty c).applyAll fun c' member k l => ?_)
    exact (others c' member c (List.mem_singleton_self c) l k).symm

/-- The accounts that have a balance row stay in their places, whatever a call does. -/
theorem accounts_apply (distinct : b.Distinct) (c : Call) :
    b.balances.map Balance.account <+: (b.apply c).2.balances.map Balance.account := by
  cases posted : b.post c with
  | error error => simp [Books.apply, posted]
  | ok added =>
    obtain ⟨result, after⟩ := added
    simp only [Books.apply, posted]
    rcases balances_of_post distinct posted with ⟨-, same⟩ | ⟨row, -, grown⟩
    · rw [same]
    · rw [grown, List.map_append]
      exact List.prefix_append _ _

theorem accounts_applyAll {earlier : List Call} (apart : calls.Pairwise Call.Apart)
    (before : earlier <+: calls) :
    (applyAll {} earlier).2.balances.map Balance.account <+:
      (applyAll {} calls).2.balances.map Balance.account := by
  induction calls using List.reverseRecOn with
  | nil =>
    obtain rfl := List.prefix_nil.mp before
    exact List.prefix_rfl
  | append_singleton calls c ih =>
    obtain ⟨first, -, -⟩ := List.pairwise_append.mp apart
    rcases List.prefix_concat_iff.mp before with rfl | before
    · exact List.prefix_rfl
    · rw [applyAll_concat]
      exact (ih first before).trans (accounts_apply (sound_applyAll first).toDistinct c)

end Books

/-- At every moment the books of calls that take turns are sound. -/
theorem Concurrent.sound {ι : Type} [DecidableEq ι] {calls : ι → Call}
    (apart : ∀ i j, i ≠ j → (calls i).Apart (calls j)) (schedule : List ι) :
    (run calls schedule).memory.books.Sound := by
  obtain ⟨order, g, explains, -⟩ := exists_explains apart schedule
  rw [← explains.ordered.books]
  exact Books.sound_applyAll (explains.ordered.apart apart)

end PointLedger
