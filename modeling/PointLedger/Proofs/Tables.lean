import PointLedger.Table

/-!
Looking up rows in tables. After a row is put in, its key finds the new row and every other key
finds what it found before. A table never gets two rows with one key, and one that is sorted stays
so.
-/

namespace PointLedger

variable {α κ : Type} [BEq κ] [LawfulBEq κ]

theorem find?_upsert (key : α → κ) (after : α → Bool) (row : α) (k : κ) (rows : List α) :
    (upsert (fun r => key r == key row) after row rows).find? (fun r => key r == k) =
      if key row == k then some row else rows.find? (fun r => key r == k) := by
  induction rows with
  | nil => by_cases asked : key row == k <;> simp [upsert, asked]
  | cons r rest ih =>
    unfold upsert
    by_cases same : key r == key row
    · have same : key r = key row := eq_of_beq same
      by_cases asked : key row == k <;> simp [same, asked]
    · by_cases later : after r
      · by_cases asked : key row == k <;> simp [same, later, asked]
      · simp only [same, later, Bool.false_eq_true, ↓reduceIte, List.find?_cons, ih]
        by_cases own : key r == k
        · have own : key r = k := eq_of_beq own
          have other : (key row == k) = false := by
            rw [beq_eq_false_iff_ne]
            rintro rfl
            simp [own] at same
          simp [own, other]
        · simp [own]

/-- A key that no row has finds nothing. -/
theorem find?_eq_none_of_not_mem {key : α → κ} {k : κ} {rows : List α} (new : k ∉ rows.map key) :
    rows.find? (fun r => key r == k) = none :=
  List.find?_eq_none.mpr fun r member same => new (List.mem_map.mpr ⟨r, member, eq_of_beq same⟩)

/-- Of rows with distinct keys that are put in one after the other each one is found. -/
theorem find?_foldl_upsert (key : α → κ) (after : α → α → Bool) (k : κ) {puts : List α}
    (distinct : (puts.map key).Nodup) (rows : List α) :
    (puts.foldl (fun rows row => upsert (fun r => key r == key row) (after row) row rows)
        rows).find? (fun r => key r == k) =
      (puts.find? (fun r => key r == k)).or (rows.find? (fun r => key r == k)) := by
  induction puts generalizing rows with
  | nil => rfl
  | cons row rest ih =>
    obtain ⟨new, distinct⟩ := List.nodup_cons.mp distinct
    rw [List.foldl_cons, ih distinct, find?_upsert, List.find?_cons]
    by_cases asked : key row = k
    · subst asked
      simp [find?_eq_none_of_not_mem new]
    · have other : (key row == k) = false := by simpa using asked
      simp [other]

/-- Of rows with distinct keys each one is found under its key. -/
theorem find?_of_mem_of_nodup (key : α → κ) {rows : List α} (distinct : (rows.map key).Nodup)
    {row : α} (member : row ∈ rows) : rows.find? (fun r => key r == key row) = some row := by
  induction rows with
  | nil => cases member
  | cons first rest ih =>
    obtain ⟨new, distinct⟩ := List.nodup_cons.mp distinct
    rcases List.mem_cons.mp member with rfl | later
    · simp
    · have other : (key first == key row) = false :=
        beq_eq_false_iff_ne.mpr fun same => new (same ▸ List.mem_map_of_mem later)
      rw [List.find?_cons, other]
      exact ih distinct later

/-- Where no two rows have one key, the rows with a key are the one that is found under it. -/
theorem filter_key_of_nodup {key : α → κ} {rows : List α} (distinct : (rows.map key).Nodup)
    (k : κ) :
    rows.filter (fun r => key r == k) = (rows.find? fun r => key r == k).toList := by
  induction rows with
  | nil => rfl
  | cons first rest ih =>
    obtain ⟨new, distinct⟩ := List.nodup_cons.mp distinct
    rw [List.filter_cons, List.find?_cons, ih distinct]
    by_cases asked : key first = k
    · subst asked
      simp [find?_eq_none_of_not_mem new]
    · have other : (key first == k) = false := by simpa using asked
      simp [other]

/-- Where no two rows have one key and what is made of a row keeps its key, what is made under a key
is what is made of the row that is found under it. -/
theorem filter_key_filterMap {β : Type} {key : α → κ} {key' : β → κ} {rows : List α}
    {f : α → Option β} (distinct : (rows.map key).Nodup)
    (kept : ∀ a b, f a = some b → key' b = key a) (k : κ) :
    (rows.filterMap f).filter (fun b => key' b == k) =
      ((rows.find? fun r => key r == k).bind f).toList := by
  have pushed : (fun a => (f a).filter fun b => key' b == k) =
      fun a => if key a == k then f a else none := by
    funext a
    cases made : f a with
    | none => simp
    | some b => rw [Option.filter_some, kept a b made]
  rw [List.filter_filterMap, pushed, ← List.filterMap_filter, filter_key_of_nodup distinct]
  cases rows.find? fun r => key r == k <;> rfl

theorem mem_of_mem_upsert {same after : α → Bool} {row r : α} {rows : List α}
    (member : r ∈ upsert same after row rows) : r = row ∨ r ∈ rows := by
  induction rows with
  | nil => exact .inl (List.mem_singleton.mp member)
  | cons first rest ih =>
    unfold upsert at member
    split at member
    · rcases List.mem_cons.mp member with rfl | old
      · exact .inl rfl
      · exact .inr (List.mem_cons_of_mem _ old)
    · split at member
      · exact List.mem_cons.mp member
      · rcases List.mem_cons.mp member with rfl | old
        · exact .inr List.mem_cons_self
        · rcases ih old with new | old
          · exact .inl new
          · exact .inr (List.mem_cons_of_mem _ old)

/-- A row that is put in by its rank leaves a sorted table sorted. -/
theorem pairwise_upsert (rank : α → Nat) {same after : α → Bool} {row : α} {rows : List α}
    (same_iff : ∀ r, same r = true ↔ rank r = rank row)
    (after_iff : ∀ r, after r = true ↔ rank row < rank r)
    (sorted : rows.Pairwise fun r s => rank r < rank s) :
    (upsert same after row rows).Pairwise fun r s => rank r < rank s := by
  induction rows with
  | nil => exact List.pairwise_singleton _ _
  | cons first rest ih =>
    obtain ⟨least, sorted'⟩ := List.pairwise_cons.mp sorted
    unfold upsert
    split
    · rename_i replaced
      rw [same_iff] at replaced
      exact List.pairwise_cons.mpr ⟨fun r member => replaced ▸ least r member, sorted'⟩
    · rename_i other
      rw [same_iff] at other
      split
      · rename_i before
        rw [after_iff] at before
        refine List.pairwise_cons.mpr ⟨fun r member => ?_, sorted⟩
        rcases List.mem_cons.mp member with rfl | later
        · exact before
        · exact Nat.lt_trans before (least r later)
      · rename_i behind
        rw [after_iff] at behind
        refine List.pairwise_cons.mpr ⟨fun r member => ?_, ih sorted'⟩
        rcases mem_of_mem_upsert member with rfl | later
        · omega
        · exact least r later

/-- A value that the new row shares with the rows in whose place it may stand is not lost. -/
theorem map_upsert_of_mem {β : Type} {same : α → Bool} {row : α} {rows : List α} (f : α → β)
    (present : ∃ r ∈ rows, same r) (kept : ∀ r ∈ rows, same r → f r = f row) :
    (upsert same (fun _ => false) row rows).map f = rows.map f := by
  induction rows with
  | nil => simp at present
  | cons first rest ih =>
    unfold upsert
    split
    · rename_i replaced
      rw [List.map_cons, List.map_cons, kept first List.mem_cons_self replaced]
    · rename_i other
      obtain ⟨r, member, found⟩ := present
      have member : r ∈ rest := by
        refine (List.mem_cons.mp member).resolve_left ?_
        rintro rfl
        exact other found
      exact congrArg (f first :: ·)
        (ih ⟨r, member, found⟩ fun r member => kept r (List.mem_cons_of_mem _ member))

/-- Putting a row in place of the row with its key leaves the keys without repetition. -/
theorem nodup_map_upsert {key : α → κ} {row : α} {rows : List α} (distinct : (rows.map key).Nodup) :
    ((upsert (fun r => key r == key row) (fun _ => false) row rows).map key).Nodup := by
  induction rows with
  | nil => simp [upsert]
  | cons first rest ih =>
    obtain ⟨fresh, distinct⟩ := List.nodup_cons.mp distinct
    unfold upsert
    split
    · rename_i same
      rw [List.map_cons, ← eq_of_beq same]
      exact List.nodup_cons.mpr ⟨fresh, distinct⟩
    · rename_i other
      refine List.nodup_cons.mpr ⟨?_, ih distinct⟩
      intro member
      obtain ⟨r, member, same⟩ := List.mem_map.mp member
      rcases mem_of_mem_upsert member with rfl | old
      · exact other (beq_iff_eq.mpr same.symm)
      · exact fresh (List.mem_map.mpr ⟨r, old, same⟩)

/-- A row that takes no other one's place comes last. -/
theorem upsert_of_absent {same : α → Bool} {row : α} {rows : List α}
    (absent : ∀ r ∈ rows, same r = false) :
    upsert same (fun _ => false) row rows = rows ++ [row] := by
  induction rows with
  | nil => rfl
  | cons first rest ih =>
    obtain ⟨other, later⟩ := List.forall_mem_cons.mp absent
    simp [upsert, other, ih later]

/-- Where no two rows have one key, a row takes the place of every row with its key. -/
theorem upsert_eq_map {key : α → κ} {row : α} {rows : List α} (distinct : (rows.map key).Nodup)
    (present : ∃ r ∈ rows, key r = key row) :
    upsert (fun r => key r == key row) (fun _ => false) row rows =
      rows.map fun r => if key r == key row then row else r := by
  induction rows with
  | nil => simp at present
  | cons first rest ih =>
    obtain ⟨single, distinct⟩ := List.nodup_cons.mp distinct
    by_cases same : key first = key row
    · have others : ∀ r ∈ rest, (if key r == key row then row else r) = r := by
        intro r member
        have other : key r ≠ key row := fun taken =>
          single (List.mem_map.mpr ⟨r, member, taken.trans same.symm⟩)
        simp [other]
      simp [upsert, same, List.map_congr_left others]
    · obtain ⟨r, member, taken⟩ := present
      have later : r ∈ rest :=
        (List.mem_cons.mp member).resolve_left fun this => same (this ▸ taken)
      have other : (key first == key row) = false := beq_eq_false_iff_ne.mpr same
      simp [upsert, other, ih distinct ⟨r, later, taken⟩]

end PointLedger
