import Mathlib.Data.List.Induction
import PointLedger.Proofs.History

/-!
The catalogue of committed entries. Every entry was made by a call of its own, under an identifier
that the call drew, and has a reference that no other entry of its organization has. A new entry
has the reference of its request and reverts nothing; a reversal repeats an entry that was there
before it and links to it.
-/

namespace PointLedger

/-- The identifier of the entry that a call is to revert. -/
def Call.reverts? (c : Call) : Option EntryId :=
  match c.mutation with
  | .add _ => none
  | .revert id => some id

namespace Entry

/-- What no two committed entries share: the organization and the reference. -/
def key (e : Entry) : String × String := (e.organizationId, e.referenceId)

/-- The identifier of the entry that a reversal reverts. -/
def reverts? (e : Entry) : Option EntryId := e.metadata.reverts.map (·.entryId)

theorem isReversal_iff {e : Entry} : e.isReversal = true ↔ ∃ id, e.reverts? = some id := by
  cases link : e.metadata.reverts <;> simp [isReversal, reverts?, link]

theorem hasReference_iff {e : Entry} {organizationId referenceId : String} :
    e.hasReference organizationId referenceId = true ↔ e.key = (organizationId, referenceId) := by
  simp [hasReference, key]

/-- The entry reverts the other one: it repeats its account, kind and amount, has its transaction
id as its reference, and links to its identifier and its hash. -/
structure ReversalOf (e original : Entry) : Prop where
  link : e.metadata.reverts = some ⟨original.id, original.hash⟩
  account : e.account = original.account
  kind : e.kind = original.kind
  amount : e.amount = original.amount
  reference : e.referenceId = original.transactionId

/-- The entry is what the call asks for, after these entries. -/
structure MadeBy (e : Entry) (c : Call) (earlier : List Entry) : Prop where
  id : e.id = c.entryId
  /-- The caller's keys are none of the ledger's. -/
  extra : ∀ key ∈ Metadata.reservedKeys, Json.Members.has e.metadata.extra key = false
  asked : match c.mutation with
    | .add r => e.key = (r.organizationId, r.referenceId) ∧ e.metadata.reverts = none
    | .revert id => ∃ original ∈ earlier, original.id = id ∧ e.ReversalOf original

theorem ReversalOf.reverts?_eq {e original : Entry} (reversal : e.ReversalOf original) :
    e.reverts? = some original.id := by
  rw [reverts?, reversal.link]
  rfl

/-- A reversal stands in the organization of what it reverts, under its transaction id. -/
theorem ReversalOf.key_eq {e original : Entry} (reversal : e.ReversalOf original) :
    e.key = (original.organizationId, original.transactionId) :=
  Prod.ext (congrArg Account.organizationId reversal.account) reversal.reference

/-- The link of an entry is what its call asked for. -/
theorem MadeBy.reverts?_eq {e : Entry} {c : Call} {earlier : List Entry}
    (made : e.MadeBy c earlier) : e.reverts? = c.reverts? := by
  have asked := made.asked
  cases mutation : c.mutation with
  | add r =>
    rw [mutation] at asked
    simp [Entry.reverts?, Call.reverts?, mutation, asked.2]
  | revert id =>
    rw [mutation] at asked
    obtain ⟨original, -, rfl, reversal⟩ := asked
    simp [reversal.reverts?_eq, Call.reverts?, mutation]

/-- A reversal reverts an entry from before it. -/
theorem MadeBy.exists_original {e : Entry} {c : Call} {earlier : List Entry}
    (made : e.MadeBy c earlier) (reverts : e.isReversal = true) :
    ∃ original ∈ earlier, e.ReversalOf original := by
  have asked := made.asked
  cases mutation : c.mutation with
  | add r =>
    rw [mutation] at asked
    simp [isReversal, asked.2] at reverts
  | revert id =>
    rw [mutation] at asked
    obtain ⟨original, before, -, reversal⟩ := asked
    exact ⟨original, before, reversal⟩

/-- The metadata shows a link under the ledger's key exactly when the entry has one. -/
theorem MadeBy.member_reverts {e : Entry} {c : Call} {earlier : List Entry}
    (made : e.MadeBy c earlier) :
    e.metadata.toJson.member "reverts" = Json.option RevertLink.toJson e.metadata.reverts := by
  have unused := made.extra "reverts" (by simp [Metadata.reservedKeys])
  have absent : List.lookup "reverts" e.metadata.extra = none := by
    refine List.lookup_eq_none_iff.mpr fun member present => ?_
    have other := List.any_eq_false.mp unused member present
    simpa [bne, BEq.comm] using other
  unfold Metadata.toJson
  split <;> cases e.metadata.reverts <;>
    simp only [Json.member, Json.Members.get?, Json.option, List.nil_append, List.cons_append,
      List.lookup_cons, absent]
  all_goals rfl

end Entry

namespace Books

variable {b after : Books} {c : Call} {calls : List Call} {e result : Entry}

/-- A committed entry has this key. -/
def HasKey (b : Books) (key : String × String) : Prop := ∃ e ∈ b.entries, e.key = key

theorem hasReferenceOf_iff : b.hasReferenceOf e = true ↔ b.HasKey e.key := by
  simp only [hasReferenceOf, List.any_eq_true, Entry.hasReference_iff]
  rfl

/-! ### What a call adds -/

theorem metadata_of_addPlan {v : AccountRows} {hasPool : Bool} {r : EntryRequest}
    {transactionId : String} {t : Transaction}
    (plan : v.addPlan hasPool r c transactionId = .ok (e, t)) :
    e.metadata.reverts = none ∧ e.metadata.extra = r.metadata := by
  unfold AccountRows.addPlan at plan
  cases kind : r.kind with
  | credit =>
    simp only [kind] at plan
    obtain ⟨-, rfl, -⟩ := AccountRows.creditPlan_eq_ok plan
    exact ⟨rfl, rfl⟩
  | debit =>
    simp only [kind] at plan
    obtain ⟨_, _, _, -, -, rfl, -⟩ := AccountRows.debitPlan_eq_ok plan
    exact ⟨rfl, rfl⟩

/-- A successful call adds the entry that it asks for, with a reference that was free. -/
theorem made_of_post (posted : b.post c = .ok (result, after)) :
    ∃ e, after.entries = b.entries ++ [e] ∧ e.MadeBy c b.entries ∧ ¬ b.HasKey e.key ∧
      ∀ r, c.mutation = .add r → e = result := by
  have free {t : Transaction} {e : Entry} (staged : t.entries = [e])
      (committed : b.commit t = .ok after) :
      after.entries = b.entries ++ [e] ∧ ¬ b.HasKey e.key := by
    obtain ⟨free, -, -, rfl⟩ := commit_eq_ok committed
    rw [staged] at free ⊢
    refine ⟨rfl, fun taken => ?_⟩
    simp [hasReferenceOf_iff.mpr taken] at free
  obtain ⟨transactionId, -, ⟨r, t, asked, valid, plan, committed⟩ |
    ⟨id, e, t, asked, present, plan, committed⟩⟩ := post_eq_ok posted
  · obtain ⟨staged, account, reference⟩ := r.job_proper c transactionId _ _ result t plan
    obtain ⟨entries, new⟩ := free staged committed
    obtain ⟨unlinked, extra⟩ := metadata_of_addPlan plan
    refine ⟨result, entries, ?_, new, fun _ _ => rfl⟩
    refine ⟨(AccountRows.continues_of_addPlan plan).id, ?_, ?_⟩
    · rw [extra]
      exact (validateRequest_eq_ok valid).2
    · rw [asked]
      exact ⟨Prod.ext (congrArg Account.organizationId account) reference, unlinked⟩
  · obtain ⟨staged, -⟩ := result.revertJob_proper c transactionId _ false e t plan
    obtain ⟨entries, new⟩ := free staged committed
    obtain ⟨member, same⟩ := mem_of_findEntry present
    obtain ⟨-, -, -, rfl, -⟩ := AccountRows.revertPlan_eq_ok plan
    refine ⟨_, entries, ⟨rfl, fun _ _ => rfl, ?_⟩, new, fun r added => ?_⟩
    · rw [asked]
      exact ⟨result, member, same, rfl, rfl, rfl, rfl, rfl⟩
    · rw [asked] at added
      cases added

/-! ### Books that calls have made -/

/-- Every committed entry was made by a call of its own after the entries before it, and no two of
an organization have the same reference. -/
structure Catalogued (calls : List Call) (b : Books) : Prop where
  ids : (b.entries.map (·.id)).Sublist (calls.map Call.entryId)
  made : ∀ earlier e later, b.entries = earlier ++ e :: later → ∃ c ∈ calls, e.MadeBy c earlier
  keys : (b.entries.map Entry.key).Nodup

theorem catalogued_empty : Catalogued [] {} where
  ids := List.Sublist.refl _
  made earlier e later split := by simp at split
  keys := .nil

namespace Catalogued

/-- One more call. -/
theorem apply (catalogued : b.Catalogued calls) (c : Call) :
    (b.apply c).2.Catalogued (calls ++ [c]) := by
  have known : ∀ earlier e later, b.entries = earlier ++ e :: later →
      ∃ c' ∈ calls ++ [c], e.MadeBy c' earlier := by
    intro earlier e later split
    obtain ⟨c', called, made⟩ := catalogued.made earlier e later split
    exact ⟨c', List.mem_append_left _ called, made⟩
  cases posted : b.post c with
  | error error =>
    simp only [Books.apply, posted]
    refine ⟨?_, known, catalogued.keys⟩
    rw [List.map_append]
    exact catalogued.ids.trans (List.sublist_append_left _ _)
  | ok added =>
    obtain ⟨result, after⟩ := added
    obtain ⟨e, entries, made, new, -⟩ := made_of_post posted
    simp only [Books.apply, posted]
    constructor
    · simp only [entries, List.map_append, List.map_singleton, made.id]
      exact catalogued.ids.append (List.Sublist.refl _)
    · rw [entries]
      exact forall_split_concat known ⟨c, by simp, made⟩
    · rw [entries, List.map_append, List.map_singleton]
      refine List.nodup_append.mpr ⟨catalogued.keys, List.nodup_singleton _, ?_⟩
      intro key old key' last same
      rw [List.mem_singleton.mp last] at same
      obtain ⟨e', member, rfl⟩ := List.mem_map.mp old
      exact new ⟨e', member, same⟩

/-- No two calls draw the same identifier, so no two entries have it. -/
theorem nodup_ids (catalogued : b.Catalogued calls) (apart : calls.Pairwise Call.Apart) :
    (b.entries.map (·.id)).Nodup := by
  have distinct : (calls.map Call.entryId).Nodup :=
    List.pairwise_map.mpr (apart.imp fun apart same => apart 0 0 (congrArg EntryId.uuid same))
  exact distinct.sublist catalogued.ids

theorem eq_of_id (catalogued : b.Catalogued calls) (apart : calls.Pairwise Call.Apart)
    {e e' : Entry} (member : e ∈ b.entries) (member' : e' ∈ b.entries) (same : e.id = e'.id) :
    e = e' :=
  List.inj_on_of_nodup_map (catalogued.nodup_ids apart) member member' same

theorem eq_of_key (catalogued : b.Catalogued calls) {e e' : Entry} (member : e ∈ b.entries)
    (member' : e' ∈ b.entries) (same : e.key = e'.key) : e = e' :=
  List.inj_on_of_nodup_map catalogued.keys member member' same

/-- The lookup by id finds a committed entry. -/
theorem findEntry_byId (catalogued : b.Catalogued calls) (apart : calls.Pairwise Call.Apart)
    {e : Entry} (member : e ∈ b.entries) : b.findEntry (.byId e.id) = some e :=
  find?_of_mem_of_nodup Entry.id (catalogued.nodup_ids apart) member

end Catalogued

theorem catalogued_applyAll (calls : List Call) : (applyAll {} calls).2.Catalogued calls := by
  induction calls using List.reverseRecOn with
  | nil => exact catalogued_empty
  | append_singleton calls c ih =>
    rw [applyAll_concat]
    exact ih.apply c

end Books

end PointLedger
