import PointLedger.Proofs.Commitment
import PointLedger.Proofs.FittingRows

/-!
What the hash of an entry protects. The description may hold bars of its own, and verification only
computes the digest again. So a copy of a committed entry that keeps the hash and changes any hashed
field is found out, unless it cuts the same encoding in another place: its description ends before
one of the bars in the description of the original, and what stood behind this bar has become part
of the fields that follow.
-/

namespace PointLedger

/-! ### Counting marks -/

section Marks

variable {α : Type} [DecidableEq α] {mark : α}

/-- Pieces that are joined hold their own marks and the ones between them. -/
theorem count_intercalate {pieces : List (List α)} (nonempty : pieces ≠ []) :
    ([mark].intercalate pieces).count mark + 1 =
      (pieces.map (·.count mark)).sum + pieces.length := by
  induction pieces with
  | nil => exact absurd rfl nonempty
  | cons piece rest ih =>
    cases rest with
    | nil => simp
    | cons next rest =>
      have later := ih (List.cons_ne_nil _ _)
      rw [List.intercalate_cons_of_ne_nil (List.cons_ne_nil _ _), List.count_append,
        List.count_append, List.count_singleton_self, List.map_cons, List.sum_cons,
        List.length_cons]
      omega

/-- A text that is cut at two marks is cut at the same one, or the part behind the first cut holds
a mark more than the part behind the second. -/
theorem append_cons_eq_or {front front' back back' : List α}
    (fewer : back.count mark ≤ back'.count mark)
    (same : front ++ mark :: back = front' ++ mark :: back') :
    (front = front' ∧ back = back') ∨
      ∃ text, front = front' ++ mark :: text ∧ back' = text ++ mark :: back := by
  rcases List.append_eq_append_iff.mp same with ⟨moved, fronts, backs⟩ | ⟨moved, fronts, backs⟩
  · cases moved with
    | nil => exact .inl ⟨by simp [fronts], (List.cons.inj backs).2⟩
    | cons first text =>
      obtain ⟨rfl, rest⟩ := List.cons.inj (backs.trans (List.cons_append ..))
      rw [rest, List.count_append, List.count_cons_self] at fewer
      omega
  · cases moved with
    | nil => exact .inl ⟨by simp [fronts], (List.cons.inj backs).2.symm⟩
    | cons first text =>
      obtain ⟨rfl, rest⟩ := List.cons.inj backs
      exact .inr ⟨text, fronts, rest⟩

end Marks

/-! ### Two entries with one encoding -/

namespace Entry

/-- The encoding behind the description and the bar after it. -/
def trailingText (e : Entry) : String :=
  String.intercalate "|" ((e.hashedFields.drop 3).map fun field => field.1 ++ "=" ++ field.2)

/-- The entry is the original cut in another place: its description ends before a bar in the
description of the original, and what stood behind this bar belongs to the fields that follow. -/
structure Recut (altered original : Entry) : Prop where
  amount : altered.amount = original.amount
  createdAt : altered.createdAt.shown.truncate = original.createdAt.shown.truncate
  moved : ∃ text, original.description = altered.description ++ "|" ++ text ∧
    altered.trailingText = text ++ "|" ++ original.trailingText

variable {e altered : Entry}

theorem toList_trailingText (e : Entry) : e.trailingText.toList = ['|'].intercalate e.trailing := by
  rw [trailingText, String.toList_intercalate, List.map_map]
  rfl

/-- The encoding with the description standing free. -/
theorem toList_encoding_eq (e : Entry) : e.encoding.toList =
    written ("amount", toString e.amount) ++
      '|' :: (written ("created_at", e.createdAt.hashed) ++
        '|' :: ("description=".toList ++
          (e.description.toList ++ '|' :: e.trailingText.toList))) := by
  rw [toList_encoding, toList_trailingText]
  simp [leading, trailing, hashedFields, written, List.intercalate_cons_of_ne_nil]

theorem count_trailingText (e : Entry) :
    e.trailingText.toList.count '|' = (e.trailing.map (·.count '|')).sum + 6 := by
  have seven : e.trailing.length = 7 := by simp [trailing, hashedFields]
  have counted : (['|'].intercalate e.trailing).count '|' + 1 =
      (e.trailing.map (·.count '|')).sum + e.trailing.length :=
    count_intercalate (List.ne_nil_of_length_eq_add_one seven)
  rw [toList_trailingText]
  omega

/-- The texts of an entry hold no bar when there are none but the six between the last fields. -/
theorem unbarred_iff_count : e.Unbarred ↔ e.trailingText.toList.count '|' = 6 := by
  rw [count_trailingText]
  constructor
  · intro unbarred
    have none : ∀ n ∈ e.trailing.map (·.count '|'), n = 0 := by
      intro n member
      obtain ⟨piece, listed, rfl⟩ := List.mem_map.mp member
      exact List.count_eq_zero.mpr (unbarred.pieces piece (List.mem_append_right _ listed))
    rw [List.sum_eq_zero none]
  · intro total
    have none : ∀ piece ∈ e.trailing, '|' ∉ piece := by
      intro piece listed
      have most := List.single_le_sum (fun _ _ => Nat.zero_le _) _
        (List.mem_map_of_mem (f := (·.count '|')) listed)
      exact List.count_eq_zero.mp (by omega)
    simp only [trailing, hashedFields, List.drop_succ_cons, List.drop_zero, List.map_cons,
      List.map_nil, List.forall_mem_cons, written, String.toList_append, List.mem_append,
      not_or] at none
    obtain ⟨-, organization, previous, reference, transaction, -, user, -⟩ := none
    exact ⟨organization.2, user.2, reference.2, transaction.2, previous.2⟩

theorem Recut.encoding (recut : altered.Recut e) : altered.encoding = e.encoding := by
  obtain ⟨amount, createdAt, text, descriptions, trails⟩ := recut
  apply String.toList_injective
  rw [toList_encoding_eq, toList_encoding_eq, amount, Timestamp.hashed_eq_iff.mpr createdAt,
    descriptions, trails]
  simp

/-- An entry that was cut in another place has a bar in a field of its own. -/
theorem Recut.not_unbarred (recut : altered.Recut e) : ¬ altered.Unbarred := by
  obtain ⟨-, -, text, -, trails⟩ := recut
  intro unbarred
  have counted := unbarred_iff_count.mp unbarred
  have more := e.count_trailingText
  simp [trails] at counted
  omega

/-- Of the entries with the encoding of a given one all agree with it on what is shown of the hashed
fields, apart from those that are cut in another place. -/
theorem encoding_eq_iff (unbarred : e.Unbarred) : altered.encoding = e.encoding ↔
    e.shown.HashedAlike altered.shown ∨ altered.Recut e := by
  refine ⟨fun same => ?_, fun either =>
    either.elim (fun alike => (encoding_of_shown alike).symm) (·.encoding)⟩
  have pieces := congrArg String.toList same.symm
  rw [toList_encoding_eq, toList_encoding_eq] at pieces
  obtain ⟨amounts, pieces⟩ := append_cons_inj_of_unmarked
    (bar_not_mem_written (by decide) (Amount.not_mem_toString (by decide) _))
    (bar_not_mem_written (by decide) (Amount.not_mem_toString (by decide) _)) pieces
  obtain ⟨times, pieces⟩ := append_cons_inj_of_unmarked
    (bar_not_mem_written (by decide) (Timestamp.not_mem_hashed (by decide) _))
    (bar_not_mem_written (by decide) (Timestamp.not_mem_hashed (by decide) _)) pieces
  have counted := unbarred_iff_count.mp unbarred
  rcases append_cons_eq_or (by have := altered.count_trailingText; omega)
    (List.append_cancel_left pieces) with ⟨-, trails⟩ | ⟨text, descriptions, trails⟩
  · have unbarred' : altered.Unbarred := unbarred_iff_count.mpr (trails ▸ counted)
    exact .inl (alike_of_encoding unbarred unbarred' same.symm)
  · refine .inr ⟨(Amount.toString_inj (written_inj amounts)).symm,
      (Timestamp.hashed_eq_iff.mp (written_inj times)).symm, String.ofList text, ?_, ?_⟩
    · exact String.toList_injective (by simp [descriptions])
    · exact String.toList_injective (by simp [trails])

end Entry

/-! ### Committed entries -/

theorem Text.ne_toUpper {c : Char} (foreign : isForeign c = true) {n : Nat} (small : n < 16) :
    c ≠ (digitChar n).toUpper := by
  have all : ∀ i : Fin 16, isForeign (digitChar i).toUpper = false := by decide
  exact ne_of_isForeign foreign (all ⟨n, small⟩)

theorem not_mem_transactionId {c : Char} (foreign : Text.isForeign c = true) (time : Timestamp)
    (bytes : RandomBytes) : c ∉ (transactionId time bytes).toList := by
  have upper (n : Nat) : c ∉ (Text.digits 16 2 n).map Char.toUpper := by
    have first := Text.ne_toUpper foreign (n := n / 16 % 16) (Nat.mod_lt _ (by decide))
    have second := Text.ne_toUpper foreign (n := n % 16) (Nat.mod_lt _ (by decide))
    simp [Text.digits, first, second]
  have hyphen : c ≠ '-' := Text.ne_of_isForeign foreign (by decide)
  simp [transactionId, Timestamp.compactDate, not_mem_yearChars foreign,
    not_mem_twoDigits foreign, upper, hyphen, -List.mem_map]

theorem Call.bar_not_mem_transactionId {c : Call} {transactionId : String}
    (drawn : c.transactionId = .ok transactionId) : '|' ∉ transactionId.toList := by
  unfold Call.transactionId at drawn
  split at drawn
  · cases drawn
    exact not_mem_transactionId (by decide) _ _
  · cases drawn

/-- An identifier that passes its check holds no bar. -/
theorem bar_not_mem_of_validateIdentifier {field value : String}
    (valid : validateIdentifier field value = .ok ()) : '|' ∉ value.toList := by
  unfold validateIdentifier at valid
  dsimp only at valid
  repeat' split at valid
  all_goals try cases valid
  rename_i clean
  intro bar
  exact clean (List.any_eq_true.mpr ⟨'|', bar, rfl⟩)

/-- The entry has bars nowhere but in its description, and carries its own digest. -/
structure Entry.Intact (e : Entry) : Prop extends e.Unbarred where
  digest : e.computeHash = e.hash

namespace Books

variable {b : Books} {c : Call} {transactionId : String} {d : Draft}

theorem bar_not_mem_linkAfter (intact : ∀ e ∈ b.entries, e.Intact) (a : Account) :
    '|' ∉ (Ledger.linkAfter (b.rows a).tail).toList := by
  cases last : (b.rows a).tail with
  | none => decide
  | some e =>
    have member := (List.mem_filter.mp (Entry.mem_of_latest? last)).1
    rw [Ledger.linkAfter, ← (intact e member).digest]
    exact e.not_mem_computeHash (by decide)

/-- What a call seals is intact when all that was committed before is. -/
theorem intact_of_draftOf (intact : ∀ e ∈ b.entries, e.Intact)
    (drawn : c.transactionId = .ok transactionId) (drafted : DraftOf b c transactionId d) :
    d.sealed.Intact := by
  have transaction := Call.bar_not_mem_transactionId drawn
  have link := bar_not_mem_linkAfter intact
  have request {r : EntryRequest} (valid : validateRequest r = .ok ()) :
      '|' ∉ r.organizationId.toList ∧ '|' ∉ r.userId.toList ∧ '|' ∉ r.referenceId.toList := by
    obtain ⟨_, organization, rest⟩ := eq_ok_of_bind valid
    obtain ⟨_, user, rest⟩ := eq_ok_of_bind rest
    obtain ⟨_, reference, -⟩ := eq_ok_of_bind rest
    exact ⟨bar_not_mem_of_validateIdentifier organization, bar_not_mem_of_validateIdentifier user,
      bar_not_mem_of_validateIdentifier reference⟩
  cases drafted with
  | credit _ valid =>
    obtain ⟨organization, user, reference⟩ := request valid
    exact ⟨⟨organization, user, reference, transaction, link _⟩, Draft.computeHash_sealed _⟩
  | debit _ valid allocations =>
    obtain ⟨organization, user, reference⟩ := request valid
    exact ⟨⟨organization, user, reference, transaction, link _⟩, Draft.computeHash_sealed _⟩
  | @reversal original _ member =>
    have whole := intact original member
    exact ⟨⟨whole.organizationId, whole.userId, whole.transactionId, transaction, link _⟩,
      Draft.computeHash_sealed _⟩

/-- All entries that calls commit are intact. -/
theorem intact_applyAll (calls : List Call) : ∀ e ∈ (applyAll {} calls).2.entries, e.Intact := by
  induction calls using List.reverseRecOn with
  | nil => exact List.forall_mem_nil _
  | append_singleton calls c ih =>
    rw [applyAll_concat]
    cases posted : (applyAll {} calls).2.post c with
    | error error => simpa [Books.apply, posted] using ih
    | ok added =>
      obtain ⟨transactionId, d, drawn, drafted, entries⟩ := draftOf_of_post posted
      simp only [Books.apply, posted]
      rw [entries]
      exact List.forall_mem_append.mpr
        ⟨ih, List.forall_mem_singleton.mpr (intact_of_draftOf ih drawn drafted)⟩

end Books

/-- Entries that calls have committed, in one history or in two, have one encoding exactly when they
agree on what is shown of all hashed fields. -/
theorem Memory.encoding_eq_iff_of_committed (calls calls' : List Call) {e e' : Entry}
    (committed : e ∈ (({} : Memory).serve calls).2.books.entries)
    (committed' : e' ∈ (({} : Memory).serve calls').2.books.entries) :
    e.encoding = e'.encoding ↔ e.shown.HashedAlike e'.shown := by
  rw [(Memory.serve_eq_applyAll Memory.atRest_empty calls).2.1] at committed
  rw [(Memory.serve_eq_applyAll Memory.atRest_empty calls').2.1] at committed'
  have unbarred := (Books.intact_applyAll calls e committed).toUnbarred
  have unbarred' := (Books.intact_applyAll calls' e' committed').toUnbarred
  exact ⟨Entry.alike_of_encoding unbarred unbarred', Entry.encoding_of_shown⟩

/-! ### Altered copies -/

theorem Entry.verifyHash_iff {e : Entry} : e.verifyHash = true ↔ e.computeHash = e.hash :=
  beq_iff_eq

/-- In a chain that verifies every entry verifies. -/
theorem verifyHash_of_verifyFrom {link : String} {checked : Nat} {chain : List Entry}
    (valid : (verifyFrom link checked chain).valid = true) {e : Entry} (member : e ∈ chain) :
    e.verifyHash = true := by
  induction chain generalizing link checked with
  | nil => cases member
  | cons first rest ih =>
    unfold verifyFrom at valid
    cases fault : first.fault? link with
    | some fault => simp [fault] at valid
    | none =>
      rw [fault] at valid
      rcases List.mem_cons.mp member with rfl | later
      · exact Entry.verifyHash_iff.mpr (Entry.fault?_eq_none_iff.mp fault).digest
      · exact ih valid later

/-- A copy of a committed entry that keeps the hash and differs in what is shown of a hashed field
verifies exactly when it is the entry cut in another place, as long as their encodings do not
collide. Otherwise no chain verifies that holds the copy. No copy is cut in another place when the
description of the entry holds no bar, or when the other texts of the copy hold none. -/
theorem Memory.altered_verifies_iff (calls : List Call) {e altered : Entry}
    (committed : e ∈ (({} : Memory).serve calls).2.books.entries) (kept : altered.hash = e.hash)
    (changed : ¬ e.shown.HashedAlike altered.shown)
    (injective : Sha256.hexOfText altered.encoding = Sha256.hexOfText e.encoding →
      altered.encoding = e.encoding) :
    (altered.verifyHash = true ↔ altered.Recut e) ∧
    (¬ altered.Recut e → ∀ chain, altered ∈ chain → (verifyChain chain).valid = false) ∧
    ('|' ∉ e.description.toList ∨ altered.Unbarred → ¬ altered.Recut e) := by
  rw [(Memory.serve_eq_applyAll Memory.atRest_empty calls).2.1] at committed
  have intact := Books.intact_applyAll calls e committed
  have verifies : altered.verifyHash = true ↔ altered.Recut e := by
    rw [Entry.verifyHash_iff, kept, ← intact.digest]
    constructor
    · intro digest
      exact ((Entry.encoding_eq_iff intact.toUnbarred).mp (injective digest)).resolve_left changed
    · intro recut
      rw [Entry.computeHash, Entry.computeHash, recut.encoding]
  refine ⟨verifies, fun other chain member => ?_, fun plain recut => ?_⟩
  · refine Bool.eq_false_iff.mpr fun valid => other (verifies.mp ?_)
    exact verifyHash_of_verifyFrom valid member
  · rcases plain with plain | unbarred
    · obtain ⟨text, descriptions, -⟩ := recut.moved
      simp [descriptions] at plain
    · exact recut.not_unbarred unbarred

/-- The entry of a first credit. -/
theorem Memory.entries_of_first_credit {c : Call} {r : EntryRequest} {transactionId : String}
    (asked : c.mutation = .add r) (credit : r.kind = .credit)
    (valid : validateRequest r = .ok ()) (drawn : c.transactionId = .ok transactionId) :
    (({} : Memory).serve [c]).2.books.entries = [(r.draft c transactionId none).sealed] := by
  rw [(Memory.serve_eq_applyAll Memory.atRest_empty [c]).2.1]
  have free : Books.refuseTaken {} r.organizationId r.referenceId = .ok () := rfl
  simp only [Books.applyAll, Books.apply, Books.post, asked, valid, free, drawn, mapError_ok,
    ok_bind, AccountRows.addPlan, credit]
  rfl

theorem Memory.altered_verifies_iff_other_amount :
    let r : EntryRequest :=
      ⟨"acme", "ann", .credit, ⟨10, by decide⟩, "first", "a|type=DEBIT", []⟩
    let c := Call.numbered 0 (.add r)
    let e := (r.draft c "19700101-000000" none).sealed
    let altered : Entry := { e with
      amount := ⟨1000, by decide⟩, description := "a", userId := "bob|type=CREDIT" }
    e ∈ (({} : Memory).serve [c]).2.books.entries ∧ altered.hash = e.hash ∧
    ¬ e.shown.HashedAlike altered.shown ∧ (altered.verifyHash = true ↔ altered.Recut e) ∧
    (¬ altered.Recut e → ∀ chain, altered ∈ chain → (verifyChain chain).valid = false) ∧
    ('|' ∉ e.description.toList ∨ altered.Unbarred → ¬ altered.Recut e) := by
  intro r c e altered
  have committed : e ∈ (({} : Memory).serve [c]).2.books.entries := by
    rw [entries_of_first_credit (r := r) rfl rfl (by decide +kernel)
      (by decide +kernel : c.transactionId = .ok "19700101-000000")]
    exact List.mem_singleton_self e
  have changed : ¬ e.shown.HashedAlike altered.shown := fun alike =>
    absurd (congrArg Amount.val alike.amount) (by decide)
  have apart : Sha256.hexOfText altered.encoding ≠ Sha256.hexOfText e.encoding := by
    decide +kernel
  exact ⟨committed, rfl, changed,
    Memory.altered_verifies_iff [c] committed rfl changed fun same => absurd same apart⟩

/-- An alteration that nobody finds: the client has chosen the description, and the copy has another
description and another reference. -/
theorem Memory.altered_unnoticed :
    let hidden := "id=00000000-0000-0000-0000-000000000000|organization_id=acme" ++
      "|previous_hash=GENESIS|reference_id="
    let r : EntryRequest :=
      ⟨"acme", "ann", .credit, ⟨10, by decide⟩, "first", "gift|" ++ hidden ++ "other", []⟩
    let c := Call.numbered 0 (.add r)
    let e := (r.draft c "19700101-000000" none).sealed
    let altered : Entry := { e with
      description := "gift", referenceId := "other|" ++ hidden ++ "first" }
    (({} : Memory).serve [c]).2.books.entries = [e] ∧
    altered.hash = e.hash ∧ altered.description ≠ e.description ∧
    altered.referenceId ≠ e.referenceId ∧ altered.encoding = e.encoding ∧
    altered.verifyHash = true ∧ (verifyChain [altered]).valid = true := by
  intro hidden r c e altered
  have same : altered.encoding = e.encoding := by decide +kernel
  have digest : altered.computeHash = altered.hash := by
    rw [Entry.computeHash, same]
    exact Draft.computeHash_sealed _
  have link : altered.previousHash = genesisHash := rfl
  refine ⟨?_, rfl, by decide, by decide, same, Entry.verifyHash_iff.mpr digest, ?_⟩
  · exact entries_of_first_credit rfl rfl (by decide +kernel) (by decide +kernel)
  · rw [verifyChain, ← link, verifyFrom_singleton digest rfl]

end PointLedger
