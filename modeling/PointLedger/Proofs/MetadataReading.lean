import PointLedger.Proofs.ReadBack

/-!
What reading metadata keeps. An object is read as the ledger's two keys and everything else, which
stays as it is; it is refused only when one of the two holds what cannot be read. Written again, it
differs from what was read in these two keys at most, and reading that changes nothing more.
-/

namespace PointLedger

/-! ### Records and lists -/

namespace Json

/-- A value gives the fields of a record: an object has one under each name, whatever else it holds,
and an array has just these in this order. -/
inductive Gives (names : List String) : Json → List Json → Prop where
  | object {members : Members} {values : List Json}
    (held : names.map members.get? = values.map some) : Gives names (.object members) values
  | array {values : List Json} (full : values.length = names.length) :
    Gives names (.array values) values

variable {α β γ : Type}

theorem asString?_eq_some_iff {value : Json} {text : String} :
    asString? value = some text ↔ value = .string text := by
  cases value <;> simp [asString?]

theorem asList?_eq_some_iff {item : Json → Option α} {value : Json} {read : List α} :
    asList? item value = some read ↔
      ∃ items, value = .array items ∧ List.Forall₂ (fun i a => item i = some a) items read := by
  cases value <;> simp [asList?, mapM_eq_some_iff]

theorem asOption?_eq_some_iff {decode : Json → Option α} {value : Json} {read : Option α} :
    asOption? decode value = some read ↔
      (value = .null ∧ read = none) ∨
        (value ≠ .null ∧ ∃ a, decode value = some a ∧ read = some a) := by
  cases value <;> simp [asOption?, Option.map_eq_some_iff, eq_comm (b := read)]

theorem Fields.defaulted_eq_some_iff {fields : Fields} {name : String} {default read : α}
    {decode : Json → Option α} :
    fields.defaulted name default decode = some read ↔
      (fields.find? name = none ∧ read = default) ∨
        ∃ value, fields.find? name = some value ∧ decode value = some read := by
  unfold defaulted
  cases fields.find? name <;> simp [eq_comm]

/-- The items of an array stand for the first of the fields. -/
theorem lookup_zip_names {names : List String} (distinct : names.Nodup) {items : List Json}
    (fits : items.length ≤ names.length) :
    names.map (fun name => List.lookup name (names.zip items)) =
      items.map some ++ List.replicate (names.length - items.length) none := by
  induction names generalizing items with
  | nil =>
    obtain rfl := List.length_eq_zero_iff.mp (Nat.le_zero.mp fits)
    rfl
  | cons name rest ih =>
    obtain ⟨new, distinct⟩ := List.nodup_cons.mp distinct
    cases items with
    | nil => simp [List.replicate_succ]
    | cons item items =>
      have others : rest.map (fun later => List.lookup later ((name, item) :: rest.zip items)) =
          rest.map fun later => List.lookup later (rest.zip items) := by
        refine List.map_congr_left fun later member => ?_
        have other : (later == name) = false :=
          beq_eq_false_iff_ne.mpr fun same => new (same ▸ member)
        rw [List.lookup_cons, other]
      rw [List.zip_cons_cons, List.map_cons, others, ih distinct (Nat.le_of_succ_le_succ fits)]
      simp

/-- An array has a value for every field only when it has no other items. -/
theorem lookup_zip_names_eq_iff {names : List String} (distinct : names.Nodup)
    {items values : List Json} (fits : items.length ≤ names.length) :
    names.map (fun name => List.lookup name (names.zip items)) = values.map some ↔
      items = values ∧ items.length = names.length := by
  rw [lookup_zip_names distinct fits]
  cases lacking : names.length - items.length with
  | zero =>
    have full : items.length = names.length := by omega
    simp [full, List.map_inj_right]
  | succ n =>
    refine iff_of_false (fun held => ?_) (by omega)
    have member : none ∈ values.map some := by simp [← held]
    simp at member

/-- The fields of a record are found exactly in a value that gives them. -/
theorem fields?_find?_iff {names : List String} (distinct : names.Nodup) {value : Json}
    {values : List Json} :
    (∃ fields, fields? names value = some fields ∧ names.map fields.find? = values.map some) ↔
      Gives names value values := by
  cases value with
  | object members =>
    constructor
    · rintro ⟨_, ⟨⟩, held⟩
      exact .object held
    · rintro ⟨held⟩
      exact ⟨_, rfl, held⟩
  | array items =>
    constructor
    · rintro ⟨fields, given, held⟩
      obtain ⟨fits, ⟨⟩⟩ := Option.ite_none_right_eq_some.mp given
      obtain ⟨rfl, full⟩ := (lookup_zip_names_eq_iff distinct fits).mp held
      exact .array full
    · intro gives
      cases gives with | array full =>
      have fits := Nat.le_of_eq full
      exact ⟨_, if_pos fits, (lookup_zip_names_eq_iff distinct fits).mpr ⟨rfl, full⟩⟩
  | _ =>
    refine iff_of_false (by simp [fields?]) ?_
    rintro ⟨⟩

/-- A record of two fields is read from any value that gives both. -/
theorem readPair_eq_some_iff {first second : String} (different : first ≠ second)
    {decode : Json → Option α} {decode' : Json → Option β} {build : α → β → γ} {value : Json}
    {read : γ} :
    (do
      let fields ← fields? [first, second] value
      let a ← fields.required first decode
      let b ← fields.required second decode'
      return build a b) = some read ↔
      ∃ u w a b, Gives [first, second] value [u, w] ∧ decode u = some a ∧ decode' w = some b ∧
        build a b = read := by
  have names : [first, second].Nodup := by simpa using different
  simp only [← fields?_find?_iff names, Fields.required, bind, Option.bind_eq_some_iff, pure,
    Option.some.injEq]
  constructor
  · rintro ⟨fields, given, a, ⟨u, here, reads⟩, b, ⟨w, here', reads'⟩, built⟩
    exact ⟨u, w, a, b, ⟨fields, given, by simp [here, here']⟩, reads, reads', built⟩
  · rintro ⟨u, w, a, b, ⟨fields, given, held⟩, reads, reads', built⟩
    simp only [List.map_cons, List.map_nil, List.cons.injEq, and_true] at held
    exact ⟨fields, given, a, ⟨u, held.1, reads⟩, b, ⟨w, held.2, reads'⟩, built⟩

end Json

/-! ### What the ledger's keys hold -/

theorem EntryId.ofJson?_eq_some_iff {value : Json} {id : EntryId} :
    ofJson? value = some id ↔ ∃ text, value = .string text ∧ ofText? text = some id := by
  simp [ofJson?, ofText?, Uuid.ofJson?, Option.bind_eq_some_iff, Json.asString?_eq_some_iff]

theorem Amount.ofJson?_eq_some_iff {value : Json} {a : Amount} :
    ofJson? value = some a ↔ value = .int a.val := by
  have exactly {n : Int} : value.asInt? = some n ↔ value = .int n := by
    unfold Json.asInt? Json.int
    split <;> simp_all
  simp [ofJson?, Option.bind_eq_some_iff, exactly, ofInt?_eq_some]

namespace AllocationSource

/-- A value spells a slice: it gives the id of the credit in an accepted form, and the amount. -/
def SpeltBy (source : AllocationSource) (value : Json) : Prop :=
  ∃ text, Json.Gives ["ledger_entry_id", "amount"] value
    [.string text, .int source.amount.val] ∧ EntryId.ofText? text = some source.entryId

theorem ofJson?_eq_some_iff {value : Json} {source : AllocationSource} :
    ofJson? value = some source ↔ source.SpeltBy value := by
  refine (Json.readPair_eq_some_iff (by decide)).trans ?_
  constructor
  · rintro ⟨u, w, id, amount, gives, reads, reads', rfl⟩
    obtain ⟨text, rfl, reads⟩ := EntryId.ofJson?_eq_some_iff.mp reads
    obtain rfl := Amount.ofJson?_eq_some_iff.mp reads'
    exact ⟨text, gives, reads⟩
  · rintro ⟨text, gives, reads⟩
    exact ⟨_, _, _, _, gives, EntryId.ofJson?_eq_some_iff.mpr ⟨text, rfl, reads⟩,
      Amount.ofJson?_eq_some_iff.mpr rfl, rfl⟩

end AllocationSource

namespace RevertLink

/-- A value spells a link: it gives the id of the entry in an accepted form, and the hash. -/
def SpeltBy (link : RevertLink) (value : Json) : Prop :=
  ∃ text, Json.Gives ["entry_id", "entry_hash"] value [.string text, .string link.entryHash] ∧
    EntryId.ofText? text = some link.entryId

theorem ofJson?_eq_some_iff {value : Json} {link : RevertLink} :
    ofJson? value = some link ↔ link.SpeltBy value := by
  refine (Json.readPair_eq_some_iff (by decide)).trans ?_
  constructor
  · rintro ⟨u, w, id, hash, gives, reads, reads', rfl⟩
    obtain ⟨text, rfl, reads⟩ := EntryId.ofJson?_eq_some_iff.mp reads
    obtain rfl := Json.asString?_eq_some_iff.mp reads'
    exact ⟨text, gives, reads⟩
  · rintro ⟨text, gives, reads⟩
    exact ⟨_, _, _, _, gives, EntryId.ofJson?_eq_some_iff.mpr ⟨text, rfl, reads⟩,
      Json.asString?_eq_some_iff.mpr rfl, rfl⟩

end RevertLink

namespace Metadata

/-- The key `sources` holds a list whose items spell these slices; without the key there are
none. -/
def SourcesFrom : Option Json → List AllocationSource → Prop
  | none, sources => sources = []
  | some value, sources => ∃ items, value = .array items ∧
      List.Forall₂ (fun item source => AllocationSource.SpeltBy source item) items sources

/-- The key `reverts` holds what spells this link; there is none without the key or under `null`. -/
def RevertsFrom : Option Json → Option RevertLink → Prop
  | none, link => link = none
  | some value, none => value = .null
  | some value, some link => link.SpeltBy value

/-- The metadata that an object holds: what its two keys of the ledger spell, and everything else
as it is. -/
structure ReadFrom (members : Json.Members) (m : Metadata) : Prop where
  sources : SourcesFrom (members.get? "sources") m.sources
  reverts : RevertsFrom (members.get? "reverts") m.reverts
  extra : m.extra = members.without reservedKeys

theorem readSources_iff {fields : Json.Fields} {read : List AllocationSource} :
    fields.defaulted "sources" [] (Json.asList? AllocationSource.ofJson?) = some read ↔
      SourcesFrom (fields.find? "sources") read := by
  rw [Json.Fields.defaulted_eq_some_iff]
  cases fields.find? "sources" <;>
    simp [SourcesFrom, Json.asList?_eq_some_iff, AllocationSource.ofJson?_eq_some_iff]

theorem readReverts_iff {fields : Json.Fields} {read : Option RevertLink} :
    fields.defaulted "reverts" none (Json.asOption? RevertLink.ofJson?) = some read ↔
      RevertsFrom (fields.find? "reverts") read := by
  have something {link : RevertLink} {value : Json} (spelt : link.SpeltBy value) :
      value ≠ .null := by
    rintro rfl
    obtain ⟨_, ⟨⟩, _⟩ := spelt
  rw [Json.Fields.defaulted_eq_some_iff]
  cases fields.find? "reverts" with
  | none => simp [RevertsFrom]
  | some value =>
    cases read with
    | none => simp [RevertsFrom, Json.asOption?_eq_some_iff]
    | some link =>
      simpa [RevertsFrom, Json.asOption?_eq_some_iff, RevertLink.ofJson?_eq_some_iff]
        using something

theorem ofJson?_object_iff {members : Json.Members} {m : Metadata} :
    ofJson? (.object members) = some m ↔ ReadFrom members m := by
  obtain ⟨sources, reverts, extra⟩ := m
  simp only [ofJson?, bind, pure, Option.bind_eq_some_iff, readSources_iff, readReverts_iff,
    Option.some.injEq, mk.injEq]
  constructor
  · rintro ⟨_, held, _, held', rfl, rfl, rfl⟩
    exact ⟨held, held', rfl⟩
  · rintro ⟨held, held', rfl⟩
    exact ⟨_, held, _, held', rfl, rfl, rfl⟩

/-- Metadata that was read has none of the ledger's keys among the caller's. -/
theorem ReadFrom.opened {members : Json.Members} {m : Metadata} (reads : ReadFrom members m) :
    m.Open := by
  intro key reserved
  rw [reads.extra]
  refine List.any_eq_false.mpr fun own member same => ?_
  have foreign := List.of_mem_filter member
  rw [eq_of_beq same, List.contains_iff_mem.mpr reserved] at foreign
  cases foreign

theorem opened_of_ofStored? {value : Json} {m : Metadata} (read : ofStored? value = some m) :
    m.Open := by
  cases value with
  | null =>
    obtain rfl := Option.some.inj read
    exact fun key _ => rfl
  | object members => exact (ofJson?_object_iff.mp read).opened
  | _ => cases read

/-- What is written for metadata: the ledger's keys where they hold something, and the caller's. -/
structure WrittenAs (m : Metadata) (out : Json.Members) : Prop where
  sources : out.get? "sources" =
    if m.sources.isEmpty then none else some (Json.list AllocationSource.toJson m.sources)
  reverts : out.get? "reverts" = m.reverts.map RevertLink.toJson
  extra : out.without reservedKeys = m.extra

theorem writtenAs_toJson {m : Metadata} (opened : m.Open) :
    ∃ out, m.toJson = .object out ∧ WrittenAs m out := by
  have sources : List.lookup "sources" m.extra = none := opened.lookup_eq_none (by decide)
  have reverts : List.lookup "reverts" m.extra = none := opened.lookup_eq_none (by decide)
  refine ⟨_, rfl, ?_, ?_, opened.without_append ?_⟩
  · cases m.sources <;> cases m.reverts <;> simp [Json.Members.get?, List.lookup_cons, sources]
  · cases m.sources <;> cases m.reverts <;> simp [Json.Members.get?, List.lookup_cons, reverts]
  · cases m.sources <;> cases m.reverts <;> simp [reservedKeys]

/-- What is written for metadata that was read is read as that metadata. -/
theorem ofStored?_toJson_of_read {value : Json} {m : Metadata} (read : ofStored? value = some m) :
    ofStored? m.toJson = some m :=
  ofStored?_toJson (opened_of_ofStored? read)

/-- A stored value as the ledger would store again what it has read from it. -/
def rewritten? (value : Json) : Option Json := (ofStored? value).map toJson

theorem rewritten?_idempotent (value : Json) :
    (rewritten? value).bind rewritten? = rewritten? value := by
  unfold rewritten?
  cases read : ofStored? value with
  | none => rfl
  | some m => simp [ofStored?_toJson_of_read read]

/-- What the key `sources` holds spells no list of slices. -/
def SourcesUnreadable (members : Json.Members) : Prop :=
  ∃ value, members.get? "sources" = some value ∧
    ¬ ∃ sources items, value = .array items ∧
      List.Forall₂ (fun item source => AllocationSource.SpeltBy source item) items sources

/-- What the key `reverts` holds is something, and spells no link. -/
def RevertsUnreadable (members : Json.Members) : Prop :=
  ∃ value, members.get? "reverts" = some value ∧ value ≠ .null ∧
    ¬ ∃ link : RevertLink, link.SpeltBy value

theorem sourcesUnreadable_iff {members : Json.Members} :
    SourcesUnreadable members ↔ ¬ ∃ sources, SourcesFrom (members.get? "sources") sources := by
  unfold SourcesUnreadable
  cases members.get? "sources" with
  | none => simp [SourcesFrom]
  | some value => simp [SourcesFrom]

theorem revertsUnreadable_iff {members : Json.Members} :
    RevertsUnreadable members ↔ ¬ ∃ reverts, RevertsFrom (members.get? "reverts") reverts := by
  unfold RevertsUnreadable
  cases members.get? "reverts" with
  | none => simp [RevertsFrom]
  | some value => simp [Option.exists, RevertsFrom]

/-- An object is refused only for what one of the ledger's keys holds. -/
theorem ofJson?_object_eq_none_iff {members : Json.Members} :
    ofJson? (.object members) = none ↔ SourcesUnreadable members ∨ RevertsUnreadable members := by
  rw [sourcesUnreadable_iff, revertsUnreadable_iff, ← not_and_or, Option.eq_none_iff_forall_ne_some]
  refine ⟨fun refused ⟨⟨sources, held⟩, reverts, held'⟩ => ?_, fun unread m read => ?_⟩
  · exact refused ⟨sources, reverts, _⟩ (ofJson?_object_iff.mpr ⟨held, held', rfl⟩)
  · have reads := ofJson?_object_iff.mp read
    exact unread ⟨⟨_, reads.sources⟩, _, reads.reverts⟩

/-- Exactly those objects are read in which the ledger's two keys hold what can be read, and with
everything else as it is. What is written for an object that was read differs from it in these two
keys at most, reading gives the same metadata again, and writing that changes nothing more. Besides
objects only `null` is read, as metadata that holds nothing. -/
theorem reading_keeps_the_rest :
    (∀ members m, ofStored? (.object members) = some m ↔ ReadFrom members m) ∧
      (∀ members m, ofStored? (.object members) = some m → ∃ out, m.toJson = .object out ∧
        WrittenAs m out ∧
        Json.Members.without out reservedKeys = Json.Members.without members reservedKeys) ∧
      (∀ value m, ofStored? value = some m → ofStored? m.toJson = some m) ∧
      (∀ value, (rewritten? value).bind rewritten? = rewritten? value) ∧
      (∀ members, ofStored? (.object members) = none ↔
        SourcesUnreadable members ∨ RevertsUnreadable members) ∧
      ofStored? .null = some {} ∧
      ∀ value, (∀ members, value ≠ .object members) → value ≠ .null → ofStored? value = none := by
  refine ⟨fun members m => ofJson?_object_iff, fun members m read => ?_,
    fun value m => ofStored?_toJson_of_read, rewritten?_idempotent,
    fun members => ofJson?_object_eq_none_iff, rfl, fun value other something => ?_⟩
  · obtain ⟨out, writes, written⟩ := writtenAs_toJson (opened_of_ofStored? read)
    exact ⟨out, writes, written, written.extra.trans (ofJson?_object_iff.mp read).extra⟩
  · cases value with
    | null => exact absurd rfl something
    | object members => exact absurd rfl (other members)
    | _ => rfl

/-- Slices as arrays, an id in braces, a link that is not there and a key of the caller. -/
example :
    rewritten? (.object [
        ("note", .array [.number (.decimal (.ofRatio false 1 10))]),
        ("reverts", .null),
        ("sources", .array [.array [
          .string "\x7b0190E4ED-2329-7329-8329-0000000000AA\x7d", .number (.integer 3)]])]) =
      some (.object [
        ("sources", .array [.object [
          ("ledger_entry_id", .string "0190e4ed-2329-7329-8329-0000000000aa"),
          ("amount", .number (.integer 3))]]),
        ("note", .array [.number (.decimal (.ofRatio false 1 10))])]) := by
  decide +kernel

end Metadata

end PointLedger
