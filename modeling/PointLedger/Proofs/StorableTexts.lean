import PointLedger.Proofs.StagedOrder
import PointLedger.Proofs.Tampering
import PointLedger.Sql.Exchange

/-!
The texts that a new entry brings into a database. A database that keeps no null character can hold
a text without one. Identifiers that pass their checks are such texts, and so is everything that the
ledger writes by itself: ids, transaction ids and hashes. Descriptions and the caller's metadata are
not checked for control characters, so whether the database can hold what is sent for an accepted
entry depends on them, and on nothing else.
-/

namespace PointLedger

/-! ### Texts -/

/-- A database can hold the text: no character of it is the null character. -/
def Text.Storable (s : String) : Prop := Char.ofNat 0 ∉ s.toList

instance (s : String) : Decidable (Text.Storable s) := inferInstanceAs (Decidable (_ ∉ _))

namespace Json

mutual

/-- Every text of a JSON value: its strings and the keys of its objects, at any depth. -/
def texts : Json → List String
  | .string value => [value]
  | .array items => itemTexts items
  | .object members => memberTexts members
  | .null | .bool _ | .number _ => []

/-- The texts of the items of an array. -/
def itemTexts : List Json → List String
  | [] => []
  | item :: items => item.texts ++ itemTexts items

/-- The keys of the members of an object, and the texts of their values. -/
def memberTexts : List (String × Json) → List String
  | [] => []
  | (key, value) :: members => key :: value.texts ++ memberTexts members

end

end Json

namespace Sql

/-- A database can hold the value that travels with a statement. -/
def Value.Storable : Value → Prop
  | .text value => Text.Storable value
  | .json value => ∀ text ∈ value.texts, Text.Storable text
  | .null | .uuid _ | .int _ | .time _ => True

instance : (value : Value) → Decidable value.Storable
  | .text value => inferInstanceAs (Decidable (Text.Storable value))
  | .json value => inferInstanceAs (Decidable (∀ text ∈ value.texts, Text.Storable text))
  | .null | .uuid _ | .int _ | .time _ => inferInstanceAs (Decidable True)

/-- A database can hold all that travels with the statement. -/
def Statement.Storable (statement : Statement) : Prop := ∀ value ∈ statement.values, value.Storable

instance (statement : Statement) : Decidable statement.Storable :=
  inferInstanceAs (Decidable (∀ value ∈ statement.values, value.Storable))

end Sql

/-- A database can hold the description and the metadata of the entry that is asked for. -/
def EntryRequest.Storable (r : EntryRequest) : Prop :=
  Text.Storable r.description ∧ ∀ text ∈ Json.memberTexts r.metadata, Text.Storable text

instance (r : EntryRequest) : Decidable r.Storable := inferInstanceAs (Decidable (_ ∧ _))

/-- Both parts of the account can be held. -/
def Account.Storable (a : Account) : Prop :=
  Text.Storable a.organizationId ∧ Text.Storable a.userId

/-! ### Texts that can be held -/

/-- The null character stands in nothing that the ledger writes by itself. -/
theorem Text.isForeign_null : isForeign (Char.ofNat 0) = true := by decide

theorem Text.storable_of_validateIdentifier {field value : String}
    (valid : validateIdentifier field value = .ok ()) : Storable value :=
  not_mem_of_validateIdentifier valid (by decide)

theorem Account.storable_lockKey {a : Account} (storable : a.Storable) :
    Text.Storable a.lockKey := by
  obtain ⟨organization, user⟩ := storable
  unfold Text.Storable at organization user
  simp [Text.Storable, lockKey, organization, user]

theorem AllocationSource.storable_toJson (source : AllocationSource) :
    ∀ text ∈ source.toJson.texts, Text.Storable text := by
  have id : Text.Storable source.entryId.uuid.text := Uuid.not_mem_text Text.isForeign_null _
  have keys : Text.Storable "ledger_entry_id" ∧ Text.Storable "amount" := by decide
  simp [toJson, EntryId.toJson, Uuid.toJson, Amount.toJson, Json.int, Json.texts,
    Json.memberTexts, id, keys]

theorem AllocationSource.storable_list (sources : List AllocationSource) :
    ∀ text ∈ Json.itemTexts (sources.map toJson), Text.Storable text := by
  induction sources with
  | nil => exact List.forall_mem_nil _
  | cons source sources ih => exact List.forall_mem_append.mpr ⟨source.storable_toJson, ih⟩

/-- What the ledger puts into the metadata of a new entry can be held. -/
theorem Metadata.storable_toJson_iff {m : Metadata} (plain : m.reverts = none) :
    (∀ text ∈ m.toJson.texts, Text.Storable text) ↔
      ∀ text ∈ Json.memberTexts m.extra, Text.Storable text := by
  obtain ⟨sources, reverts, extra⟩ := m
  cases plain
  cases sources with
  | nil => rfl
  | cons source sources =>
    let drawn := (source :: sources).map AllocationSource.toJson
    have own : ∀ text ∈ "sources" :: Json.itemTexts drawn, Text.Storable text :=
      List.forall_mem_cons.mpr ⟨by decide, AllocationSource.storable_list _⟩
    have texts : (toJson ⟨source :: sources, none, extra⟩).texts =
        ("sources" :: Json.itemTexts drawn) ++ Json.memberTexts extra := by
      simp [toJson, Json.texts, Json.memberTexts, Json.list, drawn]
    rw [texts, List.forall_mem_append]
    exact and_iff_right own

theorem EntryKind.storable_name (kind : EntryKind) : Text.Storable kind.name := by
  cases kind <;> decide

/-! ### Statements that can be held -/

/-- True for the request to add an entry. -/
def Request.adds : Request → Bool
  | .createEntry _ _ => true
  | _ => false

/-- The texts that a request sends, unless it adds an entry: the parts of the account that it is
about, or of the reference that it looks for. -/
def Request.texts : Request → List String
  | .lockAccount _ a | .lastEntry _ a | .openPools _ a | .balanceForUpdate _ a | .findBalance a =>
    [a.organizationId, a.userId]
  | .findEntries filter | .countEntries filter =>
    [filter.account.organizationId, filter.account.userId]
  | .findPools filter => [filter.account.organizationId, filter.account.userId]
  | .findEntry (.byReference organizationId referenceId)
  | .findEntryIn _ (.byReference organizationId referenceId) => [organizationId, referenceId]
  | .createPool _ p => [p.organizationId, p.userId]
  | .createBalance _ row => [row.organizationId, row.userId]
  | _ => []

theorem Sql.Value.storable_time? (time : Option Timestamp) :
    ((time.map Value.time).getD .null).Storable := by
  cases time <;> trivial

/-- What a request that adds no entry sends can be held when its texts can. -/
theorem Sql.storable_statement {request : Request} (other : request.adds = false)
    (texts : ∀ text ∈ request.texts, Text.Storable text) : (statement request).Storable := by
  cases request with
  | createEntry tx e => cases other
  | lockAccount tx a =>
    have own : a.Storable := by simpa [Request.texts, Account.Storable] using texts
    simpa [Statement.Storable, statement, Statement.values, Value.Storable] using
      Account.storable_lockKey own
  | findEntry lookup | findEntryIn tx lookup =>
    cases lookup <;>
      simp_all [Statement.Storable, statement, Statement.values, Select.values, lookingUp,
        Value.Storable, Request.texts]
  | createPool tx p | updatePool tx p =>
    have time := Value.storable_time? p.consumedAt
    simp_all [Statement.Storable, statement, Statement.values, CreditPool.toRow, withId,
      Value.Storable, Request.texts]
  | findEntries filter | countEntries filter =>
    simp_all [Statement.Storable, statement, Statement.values, Select.values, matching, ofAccount,
      Value.Storable, Request.texts, or_imp, forall_and, EntryKind.storable_name]
  | _ =>
    simp_all [Statement.Storable, statement, Statement.values, Select.values, poolsOf, balanceOf,
      ofAccount, Balance.toRow, withId, Value.Storable, Request.texts]

/-- What is sent for an entry can be held when its texts and its metadata can. -/
theorem Sql.storable_createEntry_iff {tx : TxId} {e : Entry} :
    (statement (.createEntry tx e)).Storable ↔
      e.account.Storable ∧ Text.Storable e.transactionId ∧ Text.Storable e.referenceId ∧
        Text.Storable e.description ∧ (∀ text ∈ e.metadata.toJson.texts, Text.Storable text) ∧
        Text.Storable e.previousHash ∧ Text.Storable e.hash := by
  simp [Statement.Storable, statement, Statement.values, Entry.toRow, Value.Storable,
    Account.Storable, Entry.account, EntryKind.storable_name, and_assoc]

/-- What is sent for a drafted entry can be held when its description and the caller's metadata
can, if what the draft was made of can. -/
theorem Draft.storable_sealed_iff {tx : TxId} {d : Draft} (account : d.account.Storable)
    (transaction : Text.Storable d.transactionId) (reference : Text.Storable d.referenceId)
    (link : Text.Storable d.previousHash) (plain : d.metadata.reverts = none) :
    (Sql.statement (.createEntry tx d.sealed)).Storable ↔ Text.Storable d.description ∧
      ∀ text ∈ Json.memberTexts d.metadata.extra, Text.Storable text := by
  have hash : Text.Storable d.sealed.hash := Entry.not_mem_computeHash Text.isForeign_null _
  rw [Sql.storable_createEntry_iff, ← Metadata.storable_toJson_iff plain]
  exact ⟨fun ⟨_, _, _, description, metadata, _⟩ => ⟨description, metadata⟩,
    fun ⟨description, metadata⟩ =>
      ⟨account, transaction, reference, description, metadata, link, hash⟩⟩

/-! ### What programs send -/

namespace Exchange

/-- The hash of a tail that the store gives. -/
def link? : Exchange → Option String
  | ⟨.lastEntry _ _, some (.ok (some e))⟩ => some e.hash
  | _ => none

/-- A tail that the store gives has a hash that a database can hold. -/
def LinkStorable (x : Exchange) : Prop := ∀ hash ∈ x.link?, Text.Storable hash

instance (x : Exchange) : Decidable x.LinkStorable :=
  inferInstanceAs (Decidable (∀ hash ∈ x.link?, Text.Storable hash))

end Exchange

namespace Program

variable {α β ε : Type} {R : Request → Prop}

/-- The program makes only requests with the property and ends in `post`, whatever it is answered,
as long as the store gives tails with hashes that a database can hold. -/
def Sends (R : Request → Prop) (post : α → Prop) : Program α → Prop
  | .done value => post value
  | .ask request next => R request ∧ ∀ answer,
    Exchange.LinkStorable ⟨request, some answer⟩ → (next answer).Sends R post
  | .askInTime request next => R request ∧ ∀ answer,
    Exchange.LinkStorable ⟨request, answer⟩ → (next answer).Sends R post
  | .startTimer _ next => next.Sends R post
  | .clock next => ∀ time, (next time).Sends R post
  | .fresh next => ∀ id, (next id).Sends R post
  | .random next => ∀ bytes, (next bytes).Sends R post
  | .report _ next => next.Sends R post

namespace Sends

theorem bind {program : Program α} {next : α → Program β} {post : β → Prop}
    (sends : program.Sends R fun value => (next value).Sends R post) :
    (program.bind next).Sends R post := by
  induction program with
  | done value => exact sends
  | ask request rest ih => exact ⟨sends.1, fun answer given => ih answer (sends.2 answer given)⟩
  | askInTime request rest ih =>
    exact ⟨sends.1, fun answer given => ih answer (sends.2 answer given)⟩
  | startTimer limit rest ih => exact ih sends
  | clock rest ih => exact fun time => ih time (sends time)
  | fresh rest ih => exact fun id => ih id (sends id)
  | random rest ih => exact fun bytes => ih bytes (sends bytes)
  | report signal rest ih => exact ih sends

theorem mono {program : Program α} {post post' : α → Prop} (sends : program.Sends R post)
    (weaker : ∀ value, post value → post' value) : program.Sends R post' := by
  induction program with
  | done value => exact weaker value sends
  | ask request rest ih => exact ⟨sends.1, fun answer given => ih answer (sends.2 answer given)⟩
  | askInTime request rest ih =>
    exact ⟨sends.1, fun answer given => ih answer (sends.2 answer given)⟩
  | startTimer limit rest ih => exact ih sends
  | clock rest ih => exact fun time => ih time (sends time)
  | fresh rest ih => exact fun id => ih id (sends id)
  | random rest ih => exact fun bytes => ih bytes (sends bytes)
  | report signal rest ih => exact ih sends

/-- All requests that a program makes have the property, wherever it is dropped. -/
theorem of_exhibits {program : Program α} {post : α → Prop} {xs : List Exchange}
    {outcome : Option α} (sends : program.Sends R post) (exhibits : program.Exhibits xs outcome)
    (links : ∀ x ∈ xs, x.LinkStorable) : ∀ x ∈ xs, R x.request := by
  induction exhibits with
  | dropped program | done value => exact fun _ member => (List.not_mem_nil member).elim
  | waiting => exact fun x member => List.mem_singleton.mp member ▸ sends.1
  | ask answer _ ih | askInTime answer _ ih =>
    obtain ⟨given, later⟩ := List.forall_mem_cons.mp links
    intro x member
    rcases List.mem_cons.mp member with rfl | rest
    · exact sends.1
    · exact ih (sends.2 answer given) later x rest
  | startTimer _ ih | report _ ih => exact ih sends links
  | clock value _ ih | fresh value _ ih | random value _ ih => exact ih (sends value) links

end Sends

/-- Work that may fail makes only requests with the property, and tells something of the value that
it succeeds with. -/
def SendsOnly (R : Request → Prop) (tells : α → Prop) (work : ExceptT ε Program α) : Prop :=
  work.run.Sends R fun result => ∀ value, result = .ok value → tells value

namespace SendsOnly

variable {tells : α → Prop} {tells' : β → Prop}

theorem bind {first : ExceptT ε Program α} {next : α → ExceptT ε Program β}
    (sends : SendsOnly R tells first)
    (rest : ∀ value, tells value → SendsOnly R tells' (next value)) :
    SendsOnly R tells' (first >>= next) := by
  refine Sends.bind (Sends.mono sends fun result told => ?_)
  cases result with
  | error error => exact fun value same => by cases same
  | ok value => exact rest value (told value rfl)

theorem pure {value : α} (told : tells value) :
    SendsOnly R tells (Pure.pure value : ExceptT ε Program α) :=
  fun _ same => by cases same; exact told

theorem fail (error : ε) : SendsOnly R tells (throw error : ExceptT ε Program α) :=
  fun _ same => by cases same

/-- A request under the timer. -/
theorem ask {request : Request} (own : R request) :
    SendsOnly R (fun value => Exchange.LinkStorable ⟨request, some (.ok value)⟩)
      (Staged.ask request) := by
  refine ⟨own, fun answer given => ?_⟩
  rcases answer with _ | error | value
  · exact fun _ same => by cases same
  · exact fun _ same => by cases same
  · exact fun _ same => by cases same; exact given

theorem ofExcept (outcome : Except LedgerError α) :
    SendsOnly R (fun value => outcome = .ok value) (Staged.ofExcept outcome) := by
  cases outcome with
  | error error => exact fail _
  | ok value => exact pure rfl

theorem refuseTaken {refuse : LedgerError → ExceptT ε Program Unit}
    {organizationId referenceId : String} {found : Option Entry}
    (refuses : ∀ error, SendsOnly R (fun _ => True) (refuse error)) :
    SendsOnly R (fun _ => True) (Ledger.refuseTaken refuse organizationId referenceId found) := by
  cases found with
  | none => exact pure trivial
  | some taken => exact refuses _

/-- Work that is refused under a condition. -/
theorem refusing {condition : Prop} [Decidable condition] {error : LedgerError}
    {next : PUnit → Staged β} (rest : SendsOnly R tells' (next ())) :
    SendsOnly R tells' (if condition then Staged.fail error >>= next else next ()) := by
  split
  · exact fail (Interruption.failed error)
  · exact rest

theorem forM {γ : Type} {items : List γ} {work : γ → Staged Unit}
    (each : ∀ item, SendsOnly R (fun _ => True) (work item)) :
    SendsOnly R (fun _ => True) (items.forM work) := by
  induction items with
  | nil => exact pure trivial
  | cons item items ih => exact bind (each item) fun _ _ => ih

/-- A program that cannot fail, and what follows. -/
theorem bindLift {program : Program α} {next : α → ExceptT ε Program β}
    (sends : program.Sends R fun value => SendsOnly R tells' (next value)) :
    SendsOnly R tells' ((liftM program : ExceptT ε Program α) >>= next) :=
  Sends.bind (Sends.bind (Sends.mono sends fun _ rest => rest))

theorem settle {config : EngineConfig} {tx : TxId} (commits : R (.commit tx))
    (rolls : R (.rollback tx)) (result : Except Interruption α) :
    SendsOnly R (fun _ => True) (Attempt.settle config tx result) := by
  have discards (error : LedgerError) : SendsOnly R (fun _ => True)
      ((liftM (Attempt.discard tx) : Attempt Unit) >>= fun _ => (throw error : Attempt α)) := by
    refine .bindLift ⟨rolls, fun answer _ => ?_⟩
    cases answer <;> exact fun _ same => by cases same
  rcases result with (error | _) | value
  · exact discards error
  · exact discards _
  · refine ⟨commits, fun answer _ => ?_⟩
    cases answer <;> exact fun _ _ => trivial

/-- A transaction, if its start and its end have the property too. -/
theorem inTransaction {config : EngineConfig} {organizationId referenceId : String}
    {work : TxId → Staged α} (begins : R .beginTx) (commits : ∀ tx, R (.commit tx))
    (rolls : ∀ tx, R (.rollback tx)) (sends : ∀ tx, SendsOnly R (fun _ => True) (work tx)) :
    SendsOnly R (fun _ => True)
      (Attempt.inTransaction config organizationId referenceId work) := by
  refine ⟨begins, fun answer _ => ?_⟩
  rcases answer with _ | error | tx
  · exact fun _ _ => trivial
  · exact fun _ _ => trivial
  · refine bindLift (Sends.mono (sends tx) fun result _ => ?_)
    exact Sends.bind (Sends.mono (settle (commits tx) (rolls tx) result) fun _ _ _ _ => trivial)

end SendsOnly
end Program

/-! ### What is sent for a new entry -/

/-- Whether the database can hold what the request sends depends on `r`, and does so only where the
entry is added. -/
def EntryRequest.Governs (r : EntryRequest) (request : Request) : Prop :=
  (Sql.statement request).Storable ↔ (request.adds = true → r.Storable)

namespace Ledger

open Program

variable {r : EntryRequest} {tx : TxId}

theorem governs_of_texts {request : Request} (other : request.adds = false)
    (texts : ∀ text ∈ request.texts, Text.Storable text) : r.Governs request :=
  iff_of_true (Sql.storable_statement other texts) fun adds => by rw [other] at adds; cases adds

theorem governs_of_no_texts {request : Request} (other : request.adds = false)
    (none : request.texts = []) : r.Governs request :=
  governs_of_texts other fun _ member => by rw [none] at member; cases member

/-- The draft is made of what `r` asks for and of texts that the database can hold. -/
structure Drafts (r : EntryRequest) (d : Draft) : Prop where
  account : d.account = r.account
  transaction : Text.Storable d.transactionId
  reference : d.referenceId = r.referenceId
  description : d.description = r.description
  metadata : d.metadata.extra = r.metadata
  plain : d.metadata.reverts = none
  link : Text.Storable d.previousHash

/-- The identifiers of the request can be held. -/
structure Named (r : EntryRequest) : Prop where
  account : r.account.Storable
  reference : Text.Storable r.referenceId

theorem named_of_validateRequest (valid : validateRequest r = .ok ()) : Named r := by
  obtain ⟨_, organization, rest⟩ := eq_ok_of_bind valid
  obtain ⟨_, user, rest⟩ := eq_ok_of_bind rest
  obtain ⟨_, reference, -⟩ := eq_ok_of_bind rest
  exact ⟨⟨Text.storable_of_validateIdentifier organization,
    Text.storable_of_validateIdentifier user⟩, Text.storable_of_validateIdentifier reference⟩

theorem storable_linkAfter {tail : Option Entry}
    (known : ∀ e, tail = some e → Text.Storable e.hash) : Text.Storable (linkAfter tail) := by
  cases tail with
  | none => decide
  | some e => exact known e rfl

theorem sends_stageDraw {pools : List CreditPool} {time : Timestamp} (drawn : Allocation) :
    SendsOnly r.Governs (fun _ => True) (stageDraw tx pools time drawn) := by
  unfold stageDraw
  split
  · exact .fail _
  · exact Sends.mono (SendsOnly.ask (governs_of_no_texts rfl rfl)) fun _ _ _ _ => trivial

section

variable (named : Named r)

include named

theorem governs_of_account {request : Request} (other : request.adds = false)
    (texts : request.texts = [r.organizationId, r.userId]) : r.Governs request := by
  refine governs_of_texts other ?_
  rw [texts]
  exact List.forall_mem_cons.mpr
    ⟨named.account.1, List.forall_mem_singleton.mpr named.account.2⟩

theorem governs_of_reference {request : Request} (other : request.adds = false)
    (texts : request.texts = [r.organizationId, r.referenceId]) : r.Governs request := by
  refine governs_of_texts other ?_
  rw [texts]
  exact List.forall_mem_cons.mpr ⟨named.account.1, List.forall_mem_singleton.mpr named.reference⟩

theorem governs_createEntry {d : Draft} (drafts : Drafts r d) :
    r.Governs (.createEntry tx d.sealed) := by
  have storable : (Sql.statement (.createEntry tx d.sealed)).Storable ↔ _ :=
    d.storable_sealed_iff (drafts.account ▸ named.account) drafts.transaction
      (drafts.reference ▸ named.reference) drafts.link drafts.plain
  rw [drafts.description, drafts.metadata] at storable
  exact storable.trans ⟨fun holds _ => holds, fun holds => holds rfl⟩

theorem sends_openChain :
    SendsOnly r.Governs (fun tail => ∀ e, tail = some e → Text.Storable e.hash)
      (openChain tx r.account r.referenceId) := by
  refine .bind (.ask (governs_of_account named rfl rfl)) fun _ _ => ?_
  refine .bind (.ask (governs_of_reference named rfl rfl)) fun found _ => ?_
  refine .bind (.refuseTaken fun _ => .fail _) fun _ _ => ?_
  refine Sends.mono (SendsOnly.ask (governs_of_account named rfl rfl)) fun result told => ?_
  rintro _ rfl e rfl
  exact told _ rfl e.hash rfl

theorem sends_stageCredit {d : Draft} {balance : Option Balance} (drafts : Drafts r d) :
    SendsOnly r.Governs (fun _ => True) (stageCredit tx d balance) := by
  have account := drafts.account
  refine .bind (.ask (governs_createEntry named drafts)) fun _ _ => fun poolId => ?_
  refine SendsOnly.bind (.ask (governs_of_account named rfl ?_)) fun _ _ => ?_
  · simp [Request.texts, CreditPool.opened, account, EntryRequest.account]
  · cases balance with
    | some row =>
      refine .bind (.ofExcept _) fun row _ => ?_
      exact .bind (.ask (governs_of_no_texts rfl rfl)) fun _ _ => .pure trivial
    | none =>
      refine fun balanceId => SendsOnly.bind (.ask (governs_of_account named rfl ?_)) fun _ _ => ?_
      · simp [Request.texts, Balance.opened, account, EntryRequest.account]
      · exact .pure trivial

theorem sends_stageDebit {d : Draft} {balance : Option Balance} (drafts : Drafts r d) :
    SendsOnly r.Governs (fun _ => True) (stageDebit tx d balance) := by
  have account := drafts.account
  refine .bind (.ask (governs_of_account named rfl ?_)) fun pools _ => ?_
  · simp [Request.texts, account, EntryRequest.account]
  · refine .refusing ?_
    cases balance with
    | none => exact .fail _
    | some row =>
      refine .bind (.ofExcept _) fun allocations _ => ?_
      have drawn : Drafts r { d with
          metadata := { d.metadata with sources := allocations.map Allocation.source } } :=
        { drafts with }
      refine .bind (.ask (governs_createEntry named drawn)) fun _ _ => ?_
      refine .bind (.forM fun a => sends_stageDraw a) fun _ _ => .bind (.ofExcept _) fun row _ => ?_
      exact .bind (.ask (governs_of_no_texts rfl rfl)) fun _ _ => .pure trivial

theorem sends_stageAdd {transactionId : String} (drawn : Text.Storable transactionId) :
    SendsOnly r.Governs (fun _ => True) (stageAdd r transactionId tx) := by
  refine .bind (sends_openChain named) fun tail known => ?_
  refine .bind (.ask (governs_of_account named rfl rfl)) fun balance _ => fun id => ?_
  refine SendsOnly.bind (.ofExcept _) fun metadata taken => fun now => ?_
  obtain ⟨_, rfl⟩ := Metadata.ofCaller_eq_ok_iff.mp (eq_ok_of_mapError taken)
  have drafts : Drafts r {
      id := ⟨id⟩
      account := r.account
      kind := r.kind
      amount := r.amount
      transactionId := transactionId
      referenceId := r.referenceId
      description := r.description
      metadata := { extra := r.metadata }
      previousHash := linkAfter tail
      createdAt := nextTimestamp now tail } :=
    ⟨rfl, drawn, rfl, rfl, rfl, rfl, storable_linkAfter known⟩
  dsimp only
  split
  · exact sends_stageCredit named drafts
  · exact sends_stageDebit named drafts

end

theorem sends_newTransactionId :
    SendsOnly r.Governs Text.Storable Attempt.newTransactionId := by
  intro time bytes
  rcases bytes with reason | bytes
  · exact SendsOnly.fail (LedgerError.randomnessFailed reason)
  · exact SendsOnly.pure (not_mem_transactionId Text.isForeign_null time bytes)

theorem sends_findEntry {lookup : EntryLookup} {β : Type} {tells : β → Prop}
    {next : Option Entry → Attempt β} (looks : r.Governs (.findEntry lookup))
    (rest : ∀ found, SendsOnly r.Governs tells (next found)) :
    SendsOnly r.Governs tells (Attempt.ask (.findEntry lookup) >>= next) := by
  refine ⟨looks, fun answer _ => ?_⟩
  rcases answer with error | found
  · exact SendsOnly.fail (LedgerError.store error)
  · exact rest found

/-- Whatever the store answers, whether a database can hold what is sent for a new entry depends on
the description and the metadata that are asked for, and on nothing else. -/
theorem sends_tryAdd (config : EngineConfig) (r : EntryRequest) :
    SendsOnly r.Governs (fun _ => True) (tryAdd config r) := by
  cases valid : validateRequest r with
  | error violation =>
    unfold tryAdd
    rw [valid]
    exact SendsOnly.fail violation.toError
  | ok _ =>
    have named := named_of_validateRequest valid
    have looks : r.Governs (.findEntry (.byReference r.organizationId r.referenceId)) :=
      governs_of_reference named rfl rfl
    unfold tryAdd
    rw [valid]
    refine sends_findEntry looks fun found => ?_
    refine .bind (.refuseTaken fun _ => .fail _) fun _ _ => ?_
    refine .bind sends_newTransactionId fun transactionId drawn => ?_
    refine .bind (.inTransaction (governs_of_no_texts rfl rfl)
      (fun _ => governs_of_no_texts rfl rfl) (fun _ => governs_of_no_texts rfl rfl)
      fun tx => sends_stageAdd named drawn) fun _ _ => ?_
    refine sends_findEntry looks fun current => ?_
    cases current with
    | none => exact .fail _
    | some entry => exact .pure trivial

end Ledger

end PointLedger
