import Mathlib.Data.List.Sort
import PointLedger.Proofs.Publication
import PointLedger.Proofs.UniqueRows
import PointLedger.Sql.Meaning

/-!
Both stores answer reads alike. A database whose tables are read as the rows of the books, in
whatever order it keeps them, gives for each query the rows that the store in memory filters, sorts
and cuts itself: the conditions of the query pick the same rows, and as rows are told apart by their
ids, its order leaves nothing open.
-/

namespace PointLedger

open Sql

/-! ### Tables and what they are read as -/

namespace Sql

variable {α β : Type} {read : Row → Option α} {rows found : List Row} {values : List α}
  {query : Select} {q : α → Bool} {le : α → α → Bool}

/-- Rows of a table are read as some values, each row as one of them. -/
def ReadAs (read : Row → Option α) (rows : List Row) (values : List α) : Prop :=
  (rows.map read).Perm (values.map some)

namespace ReadAs

theorem exists_of_mem (reads : ReadAs read rows values) {row : Row} (member : row ∈ rows) :
    ∃ v ∈ values, read row = some v := by
  have listed := reads.subset (List.mem_map_of_mem member)
  obtain ⟨v, here, same⟩ := List.mem_map.mp listed
  exact ⟨v, here, same.symm⟩

/-- Rows can be picked by what they hold or by what they are read as. -/
theorem filter (reads : ReadAs read rows values) {p : Row → Bool}
    (agree : ∀ {row v}, read row = some v → p row = q v) :
    ReadAs read (rows.filter p) (values.filter q) := by
  have picked : (rows.filter p).map read = (rows.map read).filter (·.any q) := by
    rw [List.filter_map]
    refine congrArg (List.map read) (List.filter_congr fun row member => ?_)
    obtain ⟨v, -, same⟩ := reads.exists_of_mem member
    simp [same, agree same]
  have listed : (values.filter q).map some = (values.map some).filter (·.any q) := by
    rw [List.filter_map]
    rfl
  rw [ReadAs, picked, listed]
  exact List.Perm.filter _ reads

/-- In whatever order the rows stand, they are read as the values in an order. -/
theorem exists_values (reads : ReadAs read rows values) {sorted : List Row}
    (perm : sorted.Perm rows) : ∃ vs : List α, sorted.map read = vs.map some ∧ vs.Perm values := by
  refine ⟨sorted.filterMap read, ?_, ?_⟩
  · rw [List.map_filterMap, ← List.filterMap_eq_map]
    refine List.filterMap_congr fun row member => ?_
    obtain ⟨v, -, same⟩ := reads.exists_of_mem (perm.subset member)
    simp [same]
  · have listed : (sorted.map read).Perm (values.map some) := (perm.map read).trans reads
    simpa [List.filterMap_map, Function.comp_def] using listed.filterMap id

end ReadAs

namespace Select

@[simp] theorem map_cut (query : Select) (f : α → β) (sorted : List α) :
    (query.cut sorted).map f = query.cut (sorted.map f) := by
  unfold cut
  split <;> simp [List.map_drop, List.map_take]

theorem head?_cut (one : query.limit = some 1) (start : query.offset = none) (sorted : List α) :
    (query.cut sorted).head? = sorted.head? := by
  rw [cut, one, start]
  exact List.head?_take

/-- In terms of what rows are read as, a query picks with `q` and sorts with `le`. -/
structure Reflects (query : Select) (read : Row → Option α) (q : α → Bool)
    (le : α → α → Bool) : Prop where
  picks : ∀ {row v}, read row = some v → query.accepts row = q v
  sorts : ∀ {r s v w}, read r = some v → read s = some w → (query.place r s).isLE = le v w
  trans : ∀ u v w, le u v = true → le v w = true → le u w = true
  total : ∀ v w, (le v w || le w v) = true

namespace Reflects

theorem exists_yields [Inhabited α] (reflects : query.Reflects read q le)
    (reads : ReadAs read rows values) : ∃ found, query.Yields rows found := by
  let key (row : Row) : α := (read row).getD default
  refine ⟨_, (rows.filter query.accepts).mergeSort fun r s => le (key r) (key s),
    List.mergeSort_perm _ _, ?_, rfl⟩
  have sorted := List.pairwise_mergeSort (fun r s t => reflects.trans (key r) (key s) (key t))
    (fun r s => reflects.total (key r) (key s)) (rows.filter query.accepts)
  refine sorted.imp_of_mem fun {r s} first second ordered => ?_
  have inTable {row : Row} (member : row ∈ (rows.filter query.accepts).mergeSort
      fun r s => le (key r) (key s)) : row ∈ rows :=
    (List.mem_filter.mp (List.mem_mergeSort.mp member)).1
  obtain ⟨v, -, reads_r⟩ := reads.exists_of_mem (inTable first)
  obtain ⟨w, -, reads_s⟩ := reads.exists_of_mem (inTable second)
  rw [reflects.sorts reads_r reads_s]
  simpa [key, reads_r, reads_s] using ordered

/-- If the order tells the picked values apart, a query lists them in one way only. -/
theorem map_of_yields (reflects : query.Reflects read q le) (reads : ReadAs read rows values)
    (antisymm : ∀ v w, v ∈ values.filter q → w ∈ values.filter q → le v w = true →
      le w v = true → v = w)
    (yields : query.Yields rows found) :
    found.map read = (query.cut ((values.filter q).mergeSort le)).map some := by
  obtain ⟨sorted, perm, ordered, rfl⟩ := yields
  obtain ⟨vs, same, perm'⟩ := (reads.filter reflects.picks).exists_values perm
  have ordered' : vs.Pairwise fun v w => le v w = true := by
    have lifted : (sorted.map read).Pairwise
        fun r s => ∀ v w, r = some v → s = some w → le v w = true :=
      List.pairwise_map.mpr (ordered.imp fun first v w reads_r reads_s =>
        reflects.sorts reads_r reads_s ▸ first)
    rw [same] at lifted
    exact (List.pairwise_map.mp lifted).imp fun first => first _ _ rfl rfl
  have one_way : vs = (values.filter q).mergeSort le :=
    List.Perm.eq_of_pairwise
      (fun v w first second => antisymm v w (perm'.subset first) (List.mem_mergeSort.mp second))
      ordered' (List.pairwise_mergeSort reflects.trans reflects.total _)
      (perm'.trans (List.mergeSort_perm _ _).symm)
  rw [map_cut, same, one_way, ← map_cut]

end Reflects
end Select

/-! ### Replies -/

theorem mapM_readable : ∀ {found : List Row} {vs : List α}, found.map read = vs.map some →
    found.mapM (readable read) = .ok vs
  | [], [], _ => rfl
  | row :: found, v :: vs, same => by
    obtain ⟨first, later⟩ := List.cons.inj same
    rw [List.mapM_cons, readable, first, mapM_readable later]
    rfl

theorem Reply.all_of_map {vs : List α} (same : found.map read = vs.map some) :
    (Reply.rows found).all read = .ok vs := mapM_readable same

theorem Reply.first_of_map {vs : List α} (same : found.map read = vs.map some) :
    (Reply.rows found).first read = .ok vs.head? := by
  cases found with
  | nil =>
    cases vs with
    | nil => rfl
    | cons v vs => cases same
  | cons row found =>
    cases vs with
    | nil => cases same
    | cons v vs =>
      rw [first]
      simp [rows?, readable, (List.cons.inj same).1]

namespace Database

variable {db : Database} {request : Request} {found : request.Answer}

/-- What a database answers to a query, when any rows that are read as the picked and sorted values
make that answer. -/
theorem answers_select [Inhabited α] (asks : statement request = .select query)
    (reads : ReadAs read (db.rows query.table.name) values) (reflects : query.Reflects read q le)
    (antisymm : ∀ v w, v ∈ values.filter q → w ∈ values.filter q → le v w = true →
      le w v = true → v = w)
    (makes : ∀ rows : List Row,
      rows.map read = (query.cut ((values.filter q).mergeSort le)).map some →
        ∀ next, answer next request (.rows rows) = .ok found) :
    db.Answers request (.ok found) := by
  rw [Answers, asks]
  obtain ⟨rows, yields⟩ := reflects.exists_yields reads
  refine ⟨⟨_, .select yields⟩, fun reply replies => ?_⟩
  cases replies with
  | select yields => exact makes _ (reflects.map_of_yields reads antisymm yields)

theorem answers_count [Inhabited α] (asks : statement request = .count query)
    (reads : ReadAs read (db.rows query.table.name) values) (reflects : query.Reflects read q le)
    (whole : query.limit = none ∧ query.offset = none)
    (makes : ∀ next, answer next request
      (.rows [[("num_items", .int (values.filter q).length)]]) = .ok found) :
    db.Answers request (.ok found) := by
  rw [Answers, asks]
  obtain ⟨rows, yields⟩ := reflects.exists_yields reads
  refine ⟨⟨_, .count yields⟩, fun reply replies => ?_⟩
  cases replies with
  | count yields =>
    rename_i rows
    obtain ⟨sorted, perm, -, rfl⟩ := yields
    obtain ⟨vs, same, perm'⟩ := (reads.filter reflects.picks).exists_values perm
    have length : (query.cut sorted).length = (values.filter q).length := by
      have counted := congrArg List.length same
      simp only [List.length_map] at counted
      rw [← perm'.length_eq, ← counted, Select.cut, whole.1, whole.2]
      rfl
    rw [length]
    exact makes

end Database
end Sql

/-! ### Columns -/

namespace Sql

variable {row : Row} {column : String}

namespace Row

theorem uuid?_eq_some {id : Uuid} :
    uuid? row column = some id ↔ get? row column = some (.uuid id) := by
  unfold uuid?
  split <;> simp_all

theorem text?_eq_some {value : String} :
    text? row column = some value ↔ get? row column = some (.text value) := by
  unfold text?
  split <;> simp_all

theorem time?_eq_some {time : Timestamp} :
    time? row column = some time ↔ get? row column = some (.time time) := by
  unfold time?
  split <;> simp_all

theorem amount?_eq_some {amount : Amount} :
    amount? row column = some amount ↔ get? row column = some (.int amount.val) := by
  unfold amount?
  split
  · simp_all [Amount.ofInt?_eq_some]
  · simp_all

end Row

namespace Condition

theorem accepts_iff {value asked : Value} {comparison : Comparison}
    (here : Row.get? row column = some value) :
    (⟨column, comparison, asked⟩ : Condition).accepts row = true ↔
      (value.compare? asked).any comparison.holds = true := by
  rw [accepts, here, Option.bind_some]

theorem accepts_uuid {id : Uuid} (here : Row.get? row column = some (.uuid id)) (asked : Uuid) :
    (⟨column, .equal, .uuid asked⟩ : Condition).accepts row = (id == asked) := by
  have same : id = asked ↔ id.value = asked.value := by
    cases id
    cases asked
    simp
  exact Bool.eq_iff_iff.mpr ((accepts_iff here).trans
    (by simp [Value.compare?, Comparison.holds, same]))

theorem accepts_text {text : String} (here : Row.get? row column = some (.text text))
    (asked : String) :
    (⟨column, .equal, .text asked⟩ : Condition).accepts row = (text == asked) :=
  Bool.eq_iff_iff.mpr ((accepts_iff here).trans
    (by simp [Value.compare?, Comparison.holds, Std.isEq_compare_eq_beq]))

theorem accepts_atLeast {time : Timestamp} (here : Row.get? row column = some (.time time))
    (asked : Timestamp) :
    (⟨column, .atLeast, .time asked⟩ : Condition).accepts row = decide (asked ≤ time) :=
  Bool.eq_iff_iff.mpr ((accepts_iff here).trans
    (by simp [Value.compare?, Comparison.holds, Timestamp.le_iff, Int.isGE_compare]))

theorem accepts_atMost {time : Timestamp} (here : Row.get? row column = some (.time time))
    (asked : Timestamp) :
    (⟨column, .atMost, .time asked⟩ : Condition).accepts row = decide (time ≤ asked) :=
  Bool.eq_iff_iff.mpr ((accepts_iff here).trans
    (by simp [Value.compare?, Comparison.holds, Timestamp.le_iff, Int.isLE_compare]))

theorem accepts_greater {n : Int} (here : Row.get? row column = some (.int n)) (asked : Int) :
    (⟨column, .greater, .int asked⟩ : Condition).accepts row = decide (asked < n) :=
  Bool.eq_iff_iff.mpr ((accepts_iff here).trans
    (by simp [Value.compare?, Comparison.holds, Int.compare_eq_gt]))

end Condition

theorem accepts_ofAccount (account : Account)
    (organization : Row.get? row "organization_id" = some (.text account.organizationId))
    (user : Row.get? row "user_id" = some (.text account.userId)) (asked : Account) :
    (ofAccount asked).all (·.accepts row) = (account == asked) := by
  have same : account = asked ↔
      account.organizationId = asked.organizationId ∧ account.userId = asked.userId := by
    cases account
    cases asked
    simp
  simp only [ofAccount, List.all_cons, List.all_nil, Bool.and_true,
    Condition.accepts_text organization, Condition.accepts_text user]
  exact Bool.eq_iff_iff.mpr (by simp [same])

/-- Rows in the order of time and id, in terms of these columns. -/
theorem Select.isLE_place_byTime {query : Select} {order : SortOrder}
    (ordered : query.order = byTime order) {r s : Row} {t u : Timestamp} {i j : Uuid}
    (time_r : Row.get? r "created_at" = some (.time t))
    (id_r : Row.get? r "id" = some (.uuid i))
    (time_s : Row.get? s "created_at" = some (.time u))
    (id_s : Row.get? s "id" = some (.uuid j)) :
    (query.place r s).isLE =
      match order with
      | .ascending => decide (t < u) || (decide (t ≤ u) && decide (i.value ≤ j.value))
      | .descending => decide (u < t) || (decide (u ≤ t) && decide (j.value ≤ i.value)) := by
  have ranked (t u : Timestamp) (i j : Uuid) :
      ((compare t.rank u.rank).then (compare i.value j.value)).isLE =
        (decide (t < u) || (decide (t ≤ u) && decide (i.value ≤ j.value))) := by
    refine Bool.eq_iff_iff.mpr ?_
    simp only [Ordering.isLE_then_iff_or, Int.compare_eq_lt, Int.compare_eq_eq, Nat.isLE_compare,
      Bool.or_eq_true, Bool.and_eq_true, decide_eq_true_eq, Timestamp.lt_iff, Timestamp.le_iff]
    omega
  cases order with
  | ascending =>
    simpa [Select.place, ordered, byTime, time_r, id_r, time_s, id_s, Value.place,
      Value.compare?, SortOrder.turn] using ranked t u i j
  | descending =>
    simpa [Select.place, ordered, byTime, time_r, id_r, time_s, id_s, Value.place,
      Value.compare?, SortOrder.turn, Int.compare_swap, Nat.compare_swap] using ranked u t j i

end Sql

theorem EntryKind.name_of_ofName? {name : String} {kind : EntryKind}
    (named : EntryKind.ofName? name = some kind) : kind.name = name := by
  unfold EntryKind.ofName? at named
  split at named
  · cases named
    simp_all [EntryKind.name]
  · split at named <;> cases named
    simp_all [EntryKind.name]

namespace Entry

/-- The entry that a row is read as, if its metadata can be decoded too. -/
def inRow? (row : Row) : Option Entry := (ofRow? row).bind Except.toOption

/-- What the columns of an entry's row hold that entries are found by. -/
structure Columns (e : Entry) (row : Row) : Prop where
  id : Row.get? row "id" = some (.uuid e.id.uuid)
  organization : Row.get? row "organization_id" = some (.text e.organizationId)
  user : Row.get? row "user_id" = some (.text e.userId)
  kind : Row.get? row "type" = some (.text e.kind.name)
  reference : Row.get? row "reference_id" = some (.text e.referenceId)
  createdAt : Row.get? row "created_at" = some (.time e.createdAt)

variable {row : Row} {e : Entry}

theorem ofRow?_of_inRow? (reads : inRow? row = some e) : ofRow? row = some (.ok e) := by
  obtain ⟨found, same, decoded⟩ := Option.bind_eq_some_iff.mp reads
  cases found with
  | error failure => cases decoded
  | ok found =>
    cases decoded
    exact same

theorem columns_of_inRow? (reads : inRow? row = some e) : e.Columns row := by
  have reads := ofRow?_of_inRow? reads
  unfold ofRow? at reads
  obtain ⟨stored, -, reads⟩ := Option.bind_eq_some_iff.mp reads
  obtain ⟨id, id_here, reads⟩ := Option.bind_eq_some_iff.mp reads
  obtain ⟨organization, organization_here, reads⟩ := Option.bind_eq_some_iff.mp reads
  obtain ⟨user, user_here, reads⟩ := Option.bind_eq_some_iff.mp reads
  obtain ⟨kind, kind_here, reads⟩ := Option.bind_eq_some_iff.mp reads
  obtain ⟨amount, -, reads⟩ := Option.bind_eq_some_iff.mp reads
  obtain ⟨transaction, -, reads⟩ := Option.bind_eq_some_iff.mp reads
  obtain ⟨reference, reference_here, reads⟩ := Option.bind_eq_some_iff.mp reads
  obtain ⟨description, -, reads⟩ := Option.bind_eq_some_iff.mp reads
  obtain ⟨previous, -, reads⟩ := Option.bind_eq_some_iff.mp reads
  obtain ⟨hash, -, reads⟩ := Option.bind_eq_some_iff.mp reads
  obtain ⟨time, time_here, reads⟩ := Option.bind_eq_some_iff.mp reads
  obtain ⟨name, name_here, named⟩ := Option.bind_eq_some_iff.mp kind_here
  cases decoded : Metadata.ofStored? stored with
  | none =>
    simp only [decoded] at reads
    cases reads
  | some metadata =>
    simp only [decoded] at reads
    cases reads
    exact {
      id := Row.uuid?_eq_some.mp id_here
      organization := Row.text?_eq_some.mp organization_here
      user := Row.text?_eq_some.mp user_here
      kind := EntryKind.name_of_ofName? named ▸ Row.text?_eq_some.mp name_here
      reference := Row.text?_eq_some.mp reference_here
      createdAt := Row.time?_eq_some.mp time_here }

/-- Entries in a direction. -/
def before : SortOrder → Entry → Entry → Bool
  | .ascending, v, w => v.le w
  | .descending, v, w => w.le v

theorem id_eq_of_le {v w : Entry} (first : v.le w = true) (second : w.le v = true) :
    v.id = w.id := by
  have same : v.id.uuid.value = w.id.uuid.value := by
    simp only [le, EntryId.le, Bool.or_eq_true, Bool.and_eq_true, decide_eq_true_eq,
      Timestamp.lt_iff, Timestamp.le_iff] at first second
    omega
  exact congrArg EntryId.mk (Uuid.eq_of_value same)

theorem eq_of_before {entries : List Entry} (distinct : (entries.map Entry.id).Nodup)
    {order : SortOrder} {v w : Entry} (here : v ∈ entries) (there : w ∈ entries)
    (first : before order v w = true) (second : before order w v = true) : v = w := by
  refine List.inj_on_of_nodup_map distinct here there ?_
  cases order with
  | ascending => exact id_eq_of_le first second
  | descending => exact id_eq_of_le second first

theorem before_trans {order : SortOrder} (u v w : Entry) (first : before order u v = true)
    (second : before order v w = true) : before order u w = true := by
  cases order with
  | ascending => exact le_trans u v w first second
  | descending => exact le_trans w v u second first

theorem before_total {order : SortOrder} (v w : Entry) :
    (before order v w || before order w v) = true := by
  cases order with
  | ascending => exact le_total v w
  | descending => exact le_total w v

/-- Sorting the other way is turning around, where no entries have one id. -/
theorem mergeSort_before {entries : List Entry} (distinct : (entries.map Entry.id).Nodup)
    (order : SortOrder) : entries.mergeSort (before order) = sort entries order := by
  cases order with
  | ascending => rfl
  | descending =>
    have sorted := List.pairwise_mergeSort le_trans le_total entries
    refine List.Perm.eq_of_pairwise
      (fun v w here there => eq_of_before distinct (List.mem_mergeSort.mp here)
        (List.mem_mergeSort.mp (List.mem_reverse.mp there)))
      (List.pairwise_mergeSort before_trans before_total entries)
      (List.pairwise_reverse.mpr sorted) ?_
    exact (List.mergeSort_perm _ _).trans
      ((List.reverse_perm _).trans (List.mergeSort_perm _ _)).symm

variable {query : Select}

theorem accepts_matching (reads : inRow? row = some e) {filter : EntryFilter}
    (conditions : query.conditions = (matching filter).conditions) :
    query.accepts row = filter.isMatch e := by
  have columns := columns_of_inRow? reads
  have account := accepts_ofAccount e.account columns.organization columns.user
  have kinds : ∀ kind : EntryKind, (e.kind.name == kind.name) = (e.kind == kind) := by
    cases e.kind <;> intro kind <;> cases kind <;> decide
  simp only [Select.accepts, conditions, matching, List.all_append, account, EntryFilter.isMatch]
  congr 1
  · congr 1
    · cases filter.kind with
      | none => rfl
      | some kind => simp [Condition.accepts_text columns.kind, kinds]
    · cases filter.earliest with
      | none => rfl
      | some time => simp [Condition.accepts_atLeast columns.createdAt]
  · cases filter.latest with
    | none => rfl
    | some time => simp [Condition.accepts_atMost columns.createdAt]

theorem accepts_lookingUp (reads : inRow? row = some e) (lookup : EntryLookup) :
    (lookingUp lookup).accepts row = lookup.isMatch e := by
  have columns := columns_of_inRow? reads
  cases lookup with
  | byId id =>
    have same : (e.id.uuid == id.uuid) = (e.id == id) := by
      refine Bool.eq_iff_iff.mpr ?_
      rcases e with ⟨⟨_⟩⟩
      cases id
      simp
    simpa [Select.accepts, lookingUp, EntryLookup.isMatch, Condition.accepts_uuid columns.id]
      using same
  | byReference organizationId referenceId =>
    simp [Select.accepts, lookingUp, EntryLookup.isMatch, hasReference,
      Condition.accepts_text columns.organization, Condition.accepts_text columns.reference]

theorem reflects_matching (filter : EntryFilter) {order : SortOrder}
    (conditions : query.conditions = (matching filter).conditions)
    (ordered : query.order = byTime order) :
    query.Reflects inRow? filter.isMatch (before order) where
  picks reads := accepts_matching reads conditions
  sorts reads_r reads_s := by
    have first := columns_of_inRow? reads_r
    have second := columns_of_inRow? reads_s
    rw [Select.isLE_place_byTime ordered first.createdAt first.id second.createdAt second.id]
    cases order <;> rfl
  trans := before_trans
  total := before_total

end Entry

/-- A query without an order leaves it open. -/
theorem Sql.Select.reflects_unordered {α : Type} {query : Select} {read : Row → Option α}
    {q : α → Bool} (unordered : query.order = [])
    (picks : ∀ {row v}, read row = some v → query.accepts row = q v) :
    query.Reflects read q fun _ _ => true where
  picks := picks
  sorts _ _ := by
    rw [place, unordered]
    rfl
  trans _ _ _ _ _ := rfl
  total _ _ := rfl

namespace CreditPool

/-- What the columns of a pool's row hold that pools are found by. -/
structure Columns (p : CreditPool) (row : Row) : Prop where
  id : Row.get? row "id" = some (.uuid p.id.uuid)
  organization : Row.get? row "organization_id" = some (.text p.organizationId)
  user : Row.get? row "user_id" = some (.text p.userId)
  remaining : Row.get? row "remaining" = some (.int p.remaining.val)
  createdAt : Row.get? row "created_at" = some (.time p.createdAt)

variable {row : Row} {p : CreditPool}

theorem columns_of_ofRow? (reads : ofRow? row = some p) : p.Columns row := by
  unfold ofRow? at reads
  obtain ⟨id, id_here, reads⟩ := Option.bind_eq_some_iff.mp reads
  obtain ⟨organization, organization_here, reads⟩ := Option.bind_eq_some_iff.mp reads
  obtain ⟨user, user_here, reads⟩ := Option.bind_eq_some_iff.mp reads
  obtain ⟨entry, -, reads⟩ := Option.bind_eq_some_iff.mp reads
  obtain ⟨remaining, remaining_here, reads⟩ := Option.bind_eq_some_iff.mp reads
  obtain ⟨time, time_here, reads⟩ := Option.bind_eq_some_iff.mp reads
  cases reads
  exact {
    id := Row.uuid?_eq_some.mp id_here
    organization := Row.text?_eq_some.mp organization_here
    user := Row.text?_eq_some.mp user_here
    remaining := Row.amount?_eq_some.mp remaining_here
    createdAt := Row.time?_eq_some.mp time_here }

theorem eq_of_le {pools : List CreditPool} (distinct : (pools.map CreditPool.id).Nodup)
    {p q : CreditPool} (here : p ∈ pools) (there : q ∈ pools) (first : p.le q = true)
    (second : q.le p = true) : p = q := by
  refine List.inj_on_of_nodup_map distinct here there ?_
  have same : p.id.uuid.value = q.id.uuid.value := by
    simp only [le, Bool.or_eq_true, Bool.and_eq_true, decide_eq_true_eq, Timestamp.lt_iff,
      Timestamp.le_iff] at first second
    omega
  rcases p with ⟨⟨⟨p, _⟩⟩⟩
  rcases q with ⟨⟨⟨q, _⟩⟩⟩
  simpa using same

theorem reflects_poolsOf (filter : PoolFilter) :
    (poolsOf filter).Reflects ofRow? filter.isMatch le where
  picks {row p} reads := by
    have columns := columns_of_ofRow? reads
    have account := accepts_ofAccount p.account columns.organization columns.user
    simp only [Select.accepts, poolsOf, List.all_append, account, PoolFilter.isMatch]
    congr 1
    cases filter.openOnly with
    | false => rfl
    | true =>
      simp [Condition.accepts_greater columns.remaining, isOpen, Amount.isPositive]
  sorts reads_r reads_s := by
    have first := columns_of_ofRow? reads_r
    have second := columns_of_ofRow? reads_s
    rw [Select.isLE_place_byTime rfl first.createdAt first.id second.createdAt second.id]
    rfl
  trans := le_trans
  total := le_total

end CreditPool

namespace Balance

variable {row : Row} {b : Balance}

theorem accepts_balanceOf (reads : ofRow? row = some b) (account : Account) :
    (balanceOf account).accepts row = (b.account == account) := by
  unfold ofRow? at reads
  obtain ⟨id, -, reads⟩ := Option.bind_eq_some_iff.mp reads
  obtain ⟨organization, organization_here, reads⟩ := Option.bind_eq_some_iff.mp reads
  obtain ⟨user, user_here, reads⟩ := Option.bind_eq_some_iff.mp reads
  obtain ⟨amount, -, reads⟩ := Option.bind_eq_some_iff.mp reads
  obtain ⟨created, -, reads⟩ := Option.bind_eq_some_iff.mp reads
  obtain ⟨updated, -, reads⟩ := Option.bind_eq_some_iff.mp reads
  cases reads
  exact accepts_ofAccount ⟨organization, user⟩
    (Row.text?_eq_some.mp organization_here) (Row.text?_eq_some.mp user_here) account

end Balance
/-! ### Answers of the database -/

/-- The tables hold the rows of the books. -/
structure Sql.Database.Mirrors (db : Database) (b : Books) : Prop where
  entries : ReadAs Entry.inRow? (db.rows entryTable.name) b.entries
  pools : ReadAs CreditPool.ofRow? (db.rows poolTable.name) b.pools
  balances : ReadAs Balance.ofRow? (db.rows balanceTable.name) b.balances

theorem CreditPool.ofRow?_toRow (p : CreditPool) : ofRow? p.toRow = some p := by
  have remaining : Row.amount? p.toRow "remaining" = some p.remaining :=
    Row.amount?_eq_some.mpr (by simp [toRow, Row.get?, List.lookup])
  have consumed : Row.time? p.toRow "consumed_at" = p.consumedAt := by
    cases at? : p.consumedAt <;> simp [toRow, Row.time?, Row.get?, List.lookup, at?]
  simp only [ofRow?, remaining, consumed]
  simp [toRow, Row.uuid?, Row.text?, Row.time?, Row.get?, List.lookup]

theorem Balance.ofRow?_toRow (b : Balance) : ofRow? b.toRow = some b := by
  have balance : Row.amount? b.toRow "balance" = some b.balance :=
    Row.amount?_eq_some.mpr (by simp [toRow, Row.get?, List.lookup])
  simp only [ofRow?, balance]
  simp [toRow, Row.uuid?, Row.text?, Row.time?, Row.get?, List.lookup]

/-- The row of an entry is read as that entry if its metadata can be read back. -/
theorem Entry.inRow?_toRow {e : Entry}
    (kept : Metadata.ofStored? e.metadata.toJson = some e.metadata) : inRow? e.toRow = some e := by
  have amount : Row.amount? e.toRow "amount" = some e.amount :=
    Row.amount?_eq_some.mpr (by simp [toRow, Row.get?, List.lookup])
  have kind : EntryKind.ofName? e.kind.name = some e.kind := by cases e.kind <;> rfl
  simp only [inRow?, ofRow?, amount]
  simp [toRow, Row.json?, Row.uuid?, Row.text?, Row.time?, Row.get?, List.lookup, kind, kept,
    Except.toOption]

/-- Ids and references tell rows apart, and every account has one balance row. -/
structure Books.Keyed (b : Books) : Prop extends b.Distinct where
  entryIds : (b.entries.map Entry.id).Nodup
  poolIds : (b.pools.map CreditPool.id).Nodup

/-- Tables hold the rows that were written to them. -/
theorem Sql.Database.mirrors_holding {b : Books}
    (kept : ∀ e ∈ b.entries, Metadata.ofStored? e.metadata.toJson = some e.metadata) :
    (holding b).Mirrors b where
  entries := by
    rw [ReadAs, show (holding b).rows entryTable.name = b.entries.map Entry.toRow from rfl,
      List.map_map]
    exact .of_eq (List.map_congr_left fun e member => Entry.inRow?_toRow (kept e member))
  pools := by
    rw [ReadAs, show (holding b).rows poolTable.name = b.pools.map CreditPool.toRow from rfl,
      List.map_map]
    exact .of_eq (List.map_congr_left fun p _ => p.ofRow?_toRow)
  balances := by
    rw [ReadAs, show (holding b).rows balanceTable.name = b.balances.map Balance.toRow from rfl,
      List.map_map]
    exact .of_eq (List.map_congr_left fun row _ => row.ofRow?_toRow)

namespace Sql

variable {rows : List Row} {found : List Entry}

theorem mergeSort_unordered {α : Type} (values : List α) :
    values.mergeSort (fun _ _ => true) = values :=
  List.mergeSort_of_pairwise (List.pairwise_of_forall fun _ _ => rfl)

theorem map_ofRow?_of_inRow? (same : rows.map Entry.inRow? = found.map some) :
    rows.map Entry.ofRow? = (found.map .ok).map some := by
  induction rows generalizing found with
  | nil =>
    cases found with
    | nil => rfl
    | cons e found => cases same
  | cons row rows ih =>
    cases found with
    | nil => cases same
    | cons e found =>
      obtain ⟨first, later⟩ := List.cons.inj same
      simp only [List.map_cons, Entry.ofRow?_of_inRow? first, ih later]

theorem answer_findEntries (same : rows.map Entry.inRow? = found.map some) (filter : EntryFilter)
    (next : TxId) : answer next (.findEntries filter) (.rows rows) = .ok found := by
  have decoded : ∀ found : List Entry,
      (found.map Except.ok : List (Except StoreError Entry)).mapM id = .ok found := by
    intro found
    induction found with
    | nil => rfl
    | cons e found ih =>
      rw [List.map_cons, List.mapM_cons, ih]
      rfl
  rw [answer, Reply.all_of_map (map_ofRow?_of_inRow? same), ok_bind, decoded]

theorem first_entry (same : rows.map Entry.inRow? = found.map some) :
    (do (← (Reply.rows rows).first Entry.ofRow?).mapM id) = Except.ok found.head? := by
  rw [Reply.first_of_map (map_ofRow?_of_inRow? same), ok_bind]
  cases found <;> rfl

theorem total_of_count {n : Nat} (small : n < 0x8000000000000000) :
    (Reply.rows [[("num_items", .int n)]]).total = .ok n := by
  have counted : Row.amount? [("num_items", .int n)] "num_items" = some ⟨n, by omega⟩ :=
    Row.amount?_eq_some.mpr rfl
  have same : [[("num_items", .int n)]].map (Row.amount? · "num_items") =
      [(⟨n, by omega⟩ : Amount)].map some := by
    rw [List.map_singleton, counted]
    rfl
  rw [Reply.total, Reply.first_of_map same]
  refine congrArg Except.ok ?_
  show ((n : Int) % 0x10000000000000000).toNat = n
  omega

namespace Database.Mirrors

variable {db : Database} {b : Books}

theorem findEntries (mirrors : db.Mirrors b) (keyed : b.Keyed) (filter : EntryFilter) :
    db.Answers (.findEntries filter) (.ok (b.findEntries filter)) := by
  have distinct : ((b.entries.filter filter.isMatch).map Entry.id).Nodup :=
    keyed.entryIds.sublist (List.filter_sublist.map _)
  refine answers_select rfl mirrors.entries (Entry.reflects_matching filter rfl rfl)
    (fun v w here there => Entry.eq_of_before distinct here there) fun rows same next => ?_
  rw [Entry.mergeSort_before distinct] at same
  refine (answer_findEntries same filter next).trans (congrArg Except.ok ?_)
  cases paged : filter.page <;>
    simp [Books.findEntries, EntryFilter.list, Select.cut, paged, PageRequest.slice]

/-- A count is a number of 64 bits with a sign. -/
theorem countEntries (mirrors : db.Mirrors b) (filter : EntryFilter)
    (small : b.countEntries filter < 0x8000000000000000) :
    db.Answers (.countEntries filter) (.ok (b.countEntries filter)) :=
  answers_count rfl mirrors.entries
    (Select.reflects_unordered rfl fun reads => Entry.accepts_matching reads rfl) ⟨rfl, rfl⟩
    fun _ => total_of_count small

theorem findEntry (mirrors : db.Mirrors b) (keyed : b.Keyed) (lookup : EntryLookup) :
    db.Answers (.findEntry lookup) (.ok (b.findEntry lookup)) := by
  refine answers_select rfl mirrors.entries
    (Select.reflects_unordered rfl fun reads => Entry.accepts_lookingUp reads lookup)
    (fun v w here there _ _ => ?_) fun rows same next => ?_
  · obtain ⟨member, asked⟩ := List.mem_filter.mp here
    obtain ⟨member', asked'⟩ := List.mem_filter.mp there
    cases lookup with
    | byId id =>
      exact List.inj_on_of_nodup_map keyed.entryIds member member'
        ((eq_of_beq asked).trans (eq_of_beq asked').symm)
    | byReference organizationId referenceId =>
      exact List.inj_on_of_nodup_map keyed.entries member member'
        ((Entry.hasReference_iff.mp asked).trans (Entry.hasReference_iff.mp asked').symm)
  · refine (first_entry same).trans (congrArg Except.ok ?_)
    rw [Select.head?_cut rfl rfl, mergeSort_unordered, List.head?_filter]
    rfl

theorem lastEntry (mirrors : db.Mirrors b) (keyed : b.Keyed) (tx : TxId) (account : Account) :
    db.Answers (.lastEntry tx account) (.ok (b.findEntries (.chain account)).getLast?) := by
  have distinct : ((b.entries.filter (EntryFilter.chain account).isMatch).map Entry.id).Nodup :=
    keyed.entryIds.sublist (List.filter_sublist.map _)
  refine answers_select rfl mirrors.entries
    (Entry.reflects_matching (.chain account) rfl rfl)
    (fun v w here there => Entry.eq_of_before distinct here there) fun rows same next => ?_
  rw [Entry.mergeSort_before distinct] at same
  refine (first_entry same).trans (congrArg Except.ok ?_)
  rw [Select.head?_cut rfl rfl, Entry.sort, List.head?_reverse]
  rfl

theorem findPools (mirrors : db.Mirrors b) (keyed : b.Keyed) (filter : PoolFilter) :
    db.Answers (.findPools filter) (.ok (b.findPools filter)) := by
  have distinct : ((b.pools.filter filter.isMatch).map CreditPool.id).Nodup :=
    keyed.poolIds.sublist (List.filter_sublist.map _)
  exact answers_select rfl mirrors.pools (CreditPool.reflects_poolsOf filter)
    (fun v w here there => CreditPool.eq_of_le distinct here there)
    fun rows same next => Reply.all_of_map same

theorem findBalance (mirrors : db.Mirrors b) (keyed : b.Keyed) (account : Account) :
    db.Answers (.findBalance account) (.ok (b.findBalance account)) := by
  refine answers_select rfl mirrors.balances
    (Select.reflects_unordered rfl fun reads => Balance.accepts_balanceOf reads account)
    (fun v w here there _ _ => ?_) fun rows same next => ?_
  · obtain ⟨member, own⟩ := List.mem_filter.mp here
    obtain ⟨member', own'⟩ := List.mem_filter.mp there
    exact List.inj_on_of_nodup_map keyed.balances member member'
      ((eq_of_beq own).trans (eq_of_beq own').symm)
  · refine (Reply.first_of_map same).trans (congrArg Except.ok ?_)
    rw [Select.head?_cut rfl rfl, mergeSort_unordered, List.head?_filter]
    rfl

end Database.Mirrors
/-- The locks that a query takes do not show in the reply. -/
theorem Database.replies_forUpdate {db : Database} {query : Select} {locks : Bool} {reply : Reply} :
    db.Replies (.select { query with forUpdate := locks }) reply ↔
      db.Replies (.select query) reply := by
  constructor <;>
  · intro replies
    cases replies with
    | select yields => exact .select yields

/-- Both stores answer a request, and with the same rows. -/
def Database.Agrees (db : Database) (m : Memory) (request : Request) : Prop :=
  ∃ found, (m.perform request).1 = some (.ok found) ∧ db.Answers request (.ok found)

/-- Both stores answer every read alike; those of a transaction that need a lock, for the locks that
the transaction has taken. -/
structure Database.ReadsAlike (db : Database) (m : Memory) (tx : TxId) (locks : List String) :
    Prop where
  findEntries : ∀ filter, db.Agrees m (.findEntries filter)
  countEntries : ∀ filter, m.books.countEntries filter < 0x8000000000000000 →
    db.Agrees m (.countEntries filter)
  findEntry : ∀ lookup, db.Agrees m (.findEntry lookup)
  findEntryIn : ∀ lookup, db.Agrees m (.findEntryIn tx lookup)
  lastEntry : ∀ account, account.lockKey ∈ locks → db.Agrees m (.lastEntry tx account)
  findPools : ∀ filter, db.Agrees m (.findPools filter)
  openPools : ∀ account, account.lockKey ∈ locks → db.Agrees m (.openPools tx account)
  findBalance : ∀ account, db.Agrees m (.findBalance account)
  balanceForUpdate : ∀ account, account.lockKey ∈ locks →
    db.Agrees m (.balanceForUpdate tx account)

end Sql

/-- The transaction has staged nothing. -/
def Transaction.Unstaged (t : Transaction) : Prop := ∃ locks, t = { locks := locks }

theorem Books.commit_unstaged (b : Books) (locks : List String) :
    b.commit { locks := locks } = .ok b := by
  have unchanged : b.pools.map ({ locks := locks } : Transaction).overlay = b.pools :=
    List.map_id b.pools
  simp [commit, unchanged]

theorem Memory.readIn_eq {α : Type} {m : Memory} {tx : TxId} {t : Transaction}
    (live : m.tx? tx = some t) (read : Transaction → Except StoreError α) :
    (m.readIn tx read).1 = some (read t) := by
  rw [readIn, live]

/-- A transaction that has staged nothing reads what is committed, and a database that holds the
committed rows answers every read of it, and every other read, as the store in memory does. -/
theorem Sql.Database.reads_alike {db : Database} {m : Memory} (mirrors : db.Mirrors m.books)
    (keyed : m.books.Keyed) {tx : TxId} {t : Transaction} (live : m.tx? tx = some t)
    (unstaged : t.Unstaged) : db.ReadsAlike m tx t.locks := by
  obtain ⟨locks, rfl⟩ := unstaged
  have committed := m.books.commit_unstaged locks
  constructor
  case findEntries => exact fun filter => ⟨_, rfl, mirrors.findEntries keyed filter⟩
  case countEntries => exact fun filter small => ⟨_, rfl, mirrors.countEntries filter small⟩
  case findEntry => exact fun lookup => ⟨_, rfl, mirrors.findEntry keyed lookup⟩
  case findPools => exact fun filter => ⟨_, rfl, mirrors.findPools keyed filter⟩
  case findBalance => exact fun account => ⟨_, rfl, mirrors.findBalance keyed account⟩
  case findEntryIn =>
    intro lookup
    have read := Transaction.findEntry_of_commit committed (fun e member => nomatch member) lookup
    exact ⟨_, (Memory.readIn_eq live _).trans (congrArg (some ∘ Except.ok) read),
      mirrors.findEntry keyed lookup⟩
  case lastEntry =>
    intro account own
    exact ⟨_, (Memory.readIn_eq live _).trans
      (congrArg some (Transaction.lastEntry_of_commit committed own)),
      mirrors.lastEntry keyed tx account⟩
  case openPools =>
    intro account own
    have keeps : ({ locks := locks } : Transaction).KeepsOrigins m.books :=
      ⟨fun u member => (nomatch member), fun u member => (nomatch member)⟩
    refine ⟨_, (Memory.readIn_eq live _).trans
      (congrArg some (Transaction.openPools_of_commit committed own keeps)), ?_⟩
    obtain ⟨⟨reply, replies⟩, answers⟩ := mirrors.findPools keyed ⟨account, true⟩
    exact ⟨⟨reply, replies_forUpdate.mpr replies⟩,
      fun reply replies => answers reply (replies_forUpdate.mp replies)⟩
  case balanceForUpdate =>
    intro account own
    refine ⟨_, (Memory.readIn_eq live _).trans (congrArg some
      (Transaction.balance_of_commit committed own ⟨List.nodup_nil, List.nodup_nil⟩)), ?_⟩
    obtain ⟨⟨reply, replies⟩, answers⟩ := mirrors.findBalance keyed account
    exact ⟨⟨reply, replies_forUpdate.mpr replies⟩,
      fun reply replies => answers reply (replies_forUpdate.mp replies)⟩

/-- Two entries of one time, and a transaction that has taken their account's lock. -/
theorem Sql.Database.reads_alike_entries_of_one_time :
    let ann : Account := ⟨"acme", "ann"⟩
    let entry (id : EntryId) (reference : String) : Entry :=
      { (default : Entry) with
        id := id, organizationId := "acme", userId := "ann", referenceId := reference }
    let pool (id : PoolId) (of : EntryId) : CreditPool := .opened id ann of .zero .epoch
    let m : Memory := {
      books := {
        entries := [entry ⟨.ofNat 2⟩ "second", entry ⟨.ofNat 1⟩ "first"]
        pools := [pool ⟨.ofNat 4⟩ ⟨.ofNat 2⟩, pool ⟨.ofNat 3⟩ ⟨.ofNat 1⟩]
        balances := [{ (default : Balance) with organizationId := "acme", userId := "ann" }] }
      live := [(⟨0⟩, { locks := [ann.lockKey] })] }
    (holding m.books).Mirrors m.books ∧ m.books.Keyed ∧
      m.tx? ⟨0⟩ = some { locks := [ann.lockKey] } ∧
      (holding m.books).ReadsAlike m ⟨0⟩ [ann.lockKey] := by
  intro ann entry pool m
  have mirrors : (holding m.books).Mirrors m.books := mirrors_holding (by decide +kernel)
  have keyed : m.books.Keyed :=
    ⟨⟨by decide +kernel, by decide +kernel⟩, by decide +kernel, by decide +kernel⟩
  exact ⟨mirrors, keyed, rfl, reads_alike mirrors keyed rfl ⟨_, rfl⟩⟩

end PointLedger
