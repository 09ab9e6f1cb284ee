import Mathlib.Algebra.Order.Floor.Div
import PointLedger.Engine.Inquiry
import PointLedger.Proofs.Delays
import PointLedger.Proofs.Publication

/-!
The pages of a listing. A page takes as many items as fit on it, behind those of the pages before,
so the pages put together are the listing as long as 32 bits can number them. Every page but the
last is full and there is nothing behind the last. The ledger lists the entries that a query selects
in the order of their times and ids, each one once, whatever the page size is.
-/

namespace PointLedger

/-! ### Pages of a list -/

namespace PageRequest

theorem toNat_page_clamped (request : PageRequest) (limit : UInt32) :
    (request.clamped limit).page.toNat = max request.page.toNat 1 :=
  UInt32.toNat_max _ _

theorem perPage_clamped_pos (request : PageRequest) (limit : UInt32) :
    0 < (request.clamped limit).perPage.toNat := by
  have clamps : (request.clamped limit).perPage.toNat =
      min (max request.perPage.toNat 1) (max limit.toNat 1) := by
    rw [clamped, UInt32.toNat_min, UInt32.toNat_max, UInt32.toNat_max]
    rfl
  omega

/-- The number of items before a page fits into 64 bits. -/
theorem offset_lt (request : PageRequest) : request.offset < UInt64.size := by
  have page := request.page.toNat_lt
  have perPage := request.perPage.toNat_lt
  calc request.offset ≤ (2 ^ 32 - 1) * (2 ^ 32 - 1) := Nat.mul_le_mul (by omega) (by omega)
    _ < UInt64.size := by decide

end PageRequest

/-- As many pages as the items fill, at least one and at most what 32 bits can count. -/
theorem PageResponse.toNat_pageCount {perPage : UInt32} (positive : 0 < perPage.toNat)
    (total : Nat) :
    (pageCount perPage total).toNat = max 1 (min (total ⌈/⌉ perPage.toNat) (UInt32.size - 1)) := by
  have nonzero : perPage ≠ 0 := by
    rintro rfl
    exact absurd positive (by decide)
  have size : UInt32.size = 4294967296 := rfl
  by_cases empty : total = 0
  · simp [pageCount, empty]
  · have some_page : 0 < total ⌈/⌉ perPage.toNat :=
      Nat.pos_of_ne_zero fun none => empty (by simpa using (ceilDiv_le_iff_le_mul positive).mp none.le)
    have counts : pageCount perPage total =
        if total ⌈/⌉ perPage.toNat < UInt32.size then UInt32.ofNat (total ⌈/⌉ perPage.toNat)
        else UInt32.ofNat (UInt32.size - 1) := by
      simp only [pageCount, empty, nonzero, or_self, ↓reduceIte, Nat.ceilDiv_eq_add_pred_div]
    rw [counts]
    split
    · rw [UInt32.toNat_ofNat_of_lt' ‹_›]
      omega
    · rw [UInt32.toNat_ofNat_of_lt' (by omega)]
      omega

section Pages

variable {α : Type}

/-- The slices of one width, put together. -/
theorem flatMap_slices (items : List α) (width count : Nat) :
    ((List.range count).flatMap fun i => (items.drop (i * width)).take width) =
      items.take (count * width) := by
  induction count with
  | zero => simp
  | succ count ih =>
    rw [List.range_succ, List.flatMap_append, ih, Nat.succ_mul, List.take_add]
    simp

/-- The pages `1` to `last` divide a list into parts of `perPage` items. -/
structure Paged (items : List α) (perPage last : UInt32) (pages : UInt32 → PageResponse α) :
    Prop where
  described : ∀ n, (pages n).pageMeta = ⟨max n 1, perPage, items.length, last⟩
  counted : last.toNat = max 1 (min (items.length ⌈/⌉ perPage.toNat) (UInt32.size - 1))
  /-- When 32 bits can number the pages, together they are the list. -/
  whole : items.length ⌈/⌉ perPage.toNat < UInt32.size →
    ((List.range last.toNat).flatMap fun i => (pages (UInt32.ofNat (i + 1))).data) = items
  full : ∀ n, 0 < n → n < last → (pages n).data.length = perPage.toNat
  later : ∀ n, last < n → (pages n).data = []
  /-- There is no page before the first. -/
  first : pages 0 = pages 1

/-- The slices that clamped requests take are the pages of a list. -/
theorem paged_slices (items : List α) (size limit : UInt32) :
    let request (n : UInt32) : PageRequest := PageRequest.clamped ⟨n, size⟩ limit
    let perPage := (request 1).perPage
    Paged items perPage (PageResponse.pageCount perPage items.length) fun n =>
      PageResponse.ofPage ((request n).slice items) (request n).page (request n).perPage
        items.length := by
  intro request perPage
  have positive : 0 < perPage.toNat := PageRequest.perPage_clamped_pos _ _
  have counted := PageResponse.toNat_pageCount positive items.length
  have size : UInt32.size = 4294967296 := rfl
  have enough (n : Nat) :
      items.length ⌈/⌉ perPage.toNat ≤ n ↔ items.length ≤ n * perPage.toNat := by
    rw [ceilDiv_le_iff_le_mul positive, Nat.mul_comm]
  have data (n : UInt32) : (request n).slice items =
      (items.drop ((n.toNat - 1) * perPage.toNat)).take perPage.toNat := by
    have page : (request n).page.toNat = max n.toNat 1 := PageRequest.toNat_page_clamped _ _
    rw [PageRequest.slice, PageRequest.offset, page, ← Nat.sub_max_sub_right, Nat.max_zero]
    rfl
  constructor
  case described => exact fun n => rfl
  case counted => exact counted
  case first => rfl
  case whole =>
    intro few
    calc _ = (List.range (PageResponse.pageCount perPage items.length).toNat).flatMap
          fun i => (items.drop (i * perPage.toNat)).take perPage.toNat := by
          refine List.flatMap_congr fun i member => ?_
          have below := List.mem_range.mp member
          rw [PageResponse.ofPage, data, UInt32.toNat_ofNat_of_lt' (by omega), Nat.add_sub_cancel]
      _ = items := by
          rw [flatMap_slices, List.take_of_length_le]
          exact (enough _).mp (by omega)
  case full =>
    intro n numbered before
    have first : 0 < n.toNat := UInt32.lt_iff_toNat_lt.mp numbered
    rw [UInt32.lt_iff_toNat_lt, counted] at before
    have unfinished : ¬ items.length ≤ n.toNat * perPage.toNat :=
      (enough n.toNat).not.mp (by omega)
    have next : n.toNat = n.toNat - 1 + 1 := by omega
    rw [next, Nat.succ_mul] at unfinished
    rw [PageResponse.ofPage, data, List.length_take, List.length_drop]
    omega
  case later =>
    intro n behind
    rw [UInt32.lt_iff_toNat_lt, counted] at behind
    have small := n.toNat_lt
    have finished := (enough (n.toNat - 1)).mp (by omega)
    rw [PageResponse.ofPage, data, List.drop_eq_nil_of_le finished, List.take_nil]

end Pages

/-! ### The entries that a query selects -/

/-- The query is for the entry, on one page or another. -/
def EntryQuery.Selects (q : EntryQuery) (e : Entry) : Prop :=
  e.account = q.account ∧ (∀ kind ∈ q.kind, e.kind = kind) ∧
    (∀ time ∈ q.earliest, time ≤ e.createdAt) ∧ ∀ time ∈ q.latest, e.createdAt ≤ time

instance EntryQuery.decidableSelects (q : EntryQuery) (e : Entry) : Decidable (q.Selects e) :=
  inferInstanceAs (Decidable (_ ∧ _ ∧ _ ∧ _))

theorem EntryQuery.isMatch_iff (q : EntryQuery) (page : Option PageRequest) (e : Entry) :
    EntryFilter.isMatch ⟨q.account, q.kind, q.earliest, q.latest, q.order, page⟩ e = true ↔
      q.Selects e := by
  simp [EntryFilter.isMatch, Selects, Option.all_eq_true, and_assoc]

/-- The entry is older than the other one or, at one time, has the smaller id. -/
def Entry.Precedes (e e' : Entry) : Prop :=
  e.createdAt < e'.createdAt ∨ e.createdAt = e'.createdAt ∧ e.id.uuid.value < e'.id.uuid.value

/-- The entry is listed before the other one. -/
def SortOrder.Lists : SortOrder → Entry → Entry → Prop
  | .ascending, e, e' => e.Precedes e'
  | .descending, e, e' => e'.Precedes e

namespace Entry

variable {entries : List Entry}

theorem precedes_of_le {e e' : Entry} (sorted : e.le e' = true) (other : e.id ≠ e'.id) :
    e.Precedes e' :=
  Timestamp.lt_or_eq_of_sorted sorted fun same =>
    other (congrArg EntryId.mk (Uuid.eq_of_value same))

/-- Entries with distinct ids are sorted one after the other. -/
theorem pairwise_sort (distinct : (entries.map (·.id)).Nodup) (order : SortOrder) :
    (sort entries order).Pairwise order.Lists := by
  have ascending := (pairwise_mergeSort_of_nodup le_trans le_total distinct).imp fun pair =>
    precedes_of_le pair.1 pair.2
  cases order with
  | ascending => exact ascending
  | descending => exact List.pairwise_reverse.mpr ascending

theorem sort_perm (entries : List Entry) (order : SortOrder) : (sort entries order).Perm entries := by
  cases order with
  | ascending => exact List.mergeSort_perm entries le
  | descending => exact (List.reverse_perm _).trans (List.mergeSort_perm entries le)

end Entry

/-- What a query for entries lists, on all pages together. -/
def Books.listing (b : Books) (q : EntryQuery) : List Entry :=
  Entry.sort (b.entries.filter (q.Selects ·)) q.order

/-! ### What the ledger shows -/

namespace World

variable {w : World} {config : EngineConfig} {q : EntryQuery}

/-- The ledger shows the page of the listing that the query is for, with its size clamped. -/
theorem run_listEntries (late : FaultRule.OnlyDelay w.faults) (valid : validateQuery q = .ok ()) :
    let page := q.page.clamped config.maxPageSize
    let listing := w.memory.books.listing q
    (w.run (Ledger.listEntries config q)).1 =
      .ok (PageResponse.ofPage (page.slice listing) page.page page.perPage listing.length) := by
  intro page listing
  let filter : EntryFilter := ⟨q.account, q.kind, q.earliest, q.latest, q.order, some page⟩
  have matched : w.memory.books.entries.filter filter.isMatch =
      w.memory.books.entries.filter (q.Selects ·) :=
    List.filter_congr fun e _ => Bool.eq_iff_iff.mpr (by simpa using q.isMatch_iff (some page) e)
  have counts : w.memory.perform (.countEntries filter) =
      (some (.ok listing.length), w.memory) := by
    have total : listing.length = (w.memory.books.entries.filter filter.isMatch).length := by
      rw [matched]
      exact (Entry.sort_perm _ _).length_eq
    rw [total]
    rfl
  have finds : w.memory.perform (.findEntries filter) =
      (some (.ok (page.slice listing)), w.memory) := by
    have data : listing = Entry.sort (w.memory.books.entries.filter filter.isMatch) q.order := by
      rw [matched]
      rfl
    rw [data]
    rfl
  -- the second question meets the memory that the first one left as it was
  obtain ⟨w', late', same, counted⟩ := run_ask_of_onlyDelay late counts
  obtain ⟨w'', -, -, found⟩ := run_ask_of_onlyDelay late' (same ▸ finds)
  unfold Ledger.listEntries
  rw [valid]
  exact (congrArg Prod.fst (counted _)).trans (congrArg Prod.fst (found _))

end World

/-- In a store whose entries have distinct ids a valid query lists the entries that it selects, each
one once, in the order of their times and ids, and its pages are the parts of this listing in the
clamped size, whatever the number and the size of the page asked for. The descending listing is the
ascending one turned around. The number of items before a page always fits into 64 bits. -/
theorem World.pages_partition {w : World} (late : FaultRule.OnlyDelay w.faults)
    (distinct : (w.memory.books.entries.map (·.id)).Nodup) (config : EngineConfig) {q : EntryQuery}
    (valid : validateQuery q = .ok ()) :
    ∃ listing : SortOrder → List Entry,
      listing .descending = (listing .ascending).reverse ∧
      (∀ order, (listing order).Perm (w.memory.books.entries.filter (q.Selects ·)) ∧
        (listing order).Pairwise order.Lists ∧
        ∃ last pages,
          Paged (listing order) (q.page.clamped config.maxPageSize).perPage last pages ∧
          ∀ n, (w.run (Ledger.listEntries config
            { q with order := order, page := ⟨n, q.page.perPage⟩ })).1 = .ok (pages n)) ∧
      ∀ request : PageRequest, request.offset < UInt64.size := by
  refine ⟨fun order => w.memory.books.listing { q with order := order }, rfl, fun order => ?_,
    PageRequest.offset_lt⟩
  have ids : ((w.memory.books.entries.filter (q.Selects ·)).map (·.id)).Nodup :=
    distinct.sublist (List.filter_sublist.map _)
  exact ⟨Entry.sort_perm _ order, Entry.pairwise_sort ids order, _, _,
    paged_slices _ q.page.perPage config.maxPageSize, fun n => run_listEntries late valid⟩

theorem World.pages_partition_last_page_short :
    let entry (n : Nat) (user : String) : Entry := {
      id := ⟨Uuid.ofNat n⟩, organizationId := "acme", userId := user, kind := .credit
      amount := ⟨10, by decide⟩, transactionId := "", referenceId := "", description := ""
      metadata := default, previousHash := "", hash := "", createdAt := Timestamp.epoch }
    let source : Source := ⟨fun _ => Timestamp.epoch, Uuid.ofNat, fun _ => .ok default⟩
    let w : World := { source := source, memory := { books := { entries :=
      [entry 4 "ann", entry 1 "ann", entry 2 "bob", entry 3 "ann"] } } }
    let config : EngineConfig := { (default : EngineConfig) with maxPageSize := 2 }
    let q : EntryQuery := {
      account := ⟨"acme", "ann"⟩, earliest := some Timestamp.epoch, page := ⟨0, 1000⟩ }
    ((q.page.clamped config.maxPageSize).perPage = 2 ∧
      (w.memory.books.entries.filter (q.Selects ·)).length = 3) ∧
    ∃ listing : SortOrder → List Entry,
      listing .descending = (listing .ascending).reverse ∧
      (∀ order, (listing order).Perm (w.memory.books.entries.filter (q.Selects ·)) ∧
        (listing order).Pairwise order.Lists ∧
        ∃ last pages,
          Paged (listing order) (q.page.clamped config.maxPageSize).perPage last pages ∧
          ∀ n, (w.run (Ledger.listEntries config
            { q with order := order, page := ⟨n, q.page.perPage⟩ })).1 = .ok (pages n)) ∧
      ∀ request : PageRequest, request.offset < UInt64.size := by
  intro entry source w config q
  have late : FaultRule.OnlyDelay w.faults := nofun
  have distinct : (w.memory.books.entries.map (·.id)).Nodup := by decide
  exact ⟨by decide +kernel, World.pages_partition late distinct config (by decide +kernel)⟩

end PointLedger
