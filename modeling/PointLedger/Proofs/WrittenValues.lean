import PointLedger.Proofs.Numerals

/-!
The text of a JSON value is read as the value. Strings and integers are always read back. A
floating-point number need not be, because its reader rounds more than once, so those that a value
holds have to be among the ones that are. Keys must be apart from each other, and readers limit how
many containers may stand inside each other. Entries write nothing else that could be lost: the text
of an entry is read as its JSON form if the values under the caller's keys are read back.
-/

namespace PointLedger

namespace Json

variable {strict : Bool} {cs rest after : List Char}

/-! ### Strings -/

/-- Four hexadecimal digits are read as their number. -/
theorem unit_digits {n : Nat} (small : n < 16 ^ 4) :
    unit (Text.digits 16 4 n ++ rest) = .ok (n, rest) := by
  obtain ⟨ds, spells, value⟩ := Text.spells_digits 16 (by decide)
    (fun _ => Text.hexDigit?_digitChar) 4 n
  have size := Text.length_digits 16 4 n
  rw [Nat.mod_eq_of_lt small] at value
  generalize Text.digits 16 4 n = cs at spells size
  match spells with
  | .cons first (.cons second (.cons third (.cons fourth .nil))) =>
    simp only [unit, List.cons_append, List.nil_append, first, second, third, fourth, value]

/-- An escape below the surrogates stands for its character. -/
theorem codePoint_digits {n : Nat} (small : n < 0xD800) :
    codePoint strict (Text.digits 16 4 n ++ rest) = .ok (Char.ofNat n, rest) := by
  have high : ¬ (0xD800 ≤ n ∧ n ≤ 0xDBFF) := by omega
  have low : ¬ (0xDC00 ≤ n ∧ n ≤ 0xDFFF) := by omega
  rw [codePoint, unit_digits (by omega), ok_bind]
  simp only [if_neg high, if_neg low]

section
variable {fuel : Nat} {read : List Char}

theorem stringTail_plain {c : Char} (quote : c ≠ '"') (backslash : c ≠ '\\')
    (plain : 0x20 ≤ c.toNat) :
    stringTail strict (fuel + 1) read (c :: rest) = stringTail strict fuel (c :: read) rest := by
  have above : ¬ c.toNat < 0x20 := Nat.not_lt.mpr plain
  simp only [stringTail, if_neg quote, if_neg backslash, if_neg above]

theorem stringTail_unitEscape {c : Char} (small : c.toNat < 0xD800) :
    stringTail strict (fuel + 1) read (unitEscape c.toNat ++ rest) =
      stringTail strict fuel (c :: read) rest := by
  rw [unitEscape, List.cons_append, List.cons_append, stringTail, if_neg (by decide),
    if_pos rfl]
  simp only [if_true, codePoint_digits small, ok_bind, Char.ofNat_toNat]

/-- Whatever a character is escaped as, its reader spends one step on it. -/
theorem stringTail_escapeNeeded (c : Char) :
    stringTail strict (fuel + 1) read (escapeNeeded c ++ rest) =
      stringTail strict fuel (c :: read) rest := by
  unfold escapeNeeded
  split_ifs with quote backslash plain b f n r t
  · subst quote
    rfl
  · subst backslash
    rfl
  · exact stringTail_plain quote backslash plain
  · subst b
    rfl
  · subst f
    rfl
  · subst n
    rfl
  · subst r
    rfl
  · subst t
    rfl
  · exact stringTail_unitEscape (by omega)

theorem stringTail_flatMap {cs : List Char} (enough : cs.length < fuel) :
    stringTail strict fuel read (cs.flatMap escapeNeeded ++ '"' :: rest) =
      .ok (String.ofList (read.reverse ++ cs), rest) := by
  induction cs generalizing fuel read with
  | nil =>
    cases fuel with
    | zero => cases enough
    | succ fuel =>
      rw [List.append_nil]
      rfl
  | cons c cs ih =>
    cases fuel with
    | zero => cases enough
    | succ fuel =>
      rw [List.flatMap_cons, List.append_assoc, stringTail_escapeNeeded,
        ih (Nat.lt_of_succ_lt_succ enough), List.reverse_cons, List.append_assoc]
      rfl

end

/-- So the steps last as long as there are characters. -/
theorem escapeNeeded_ne_nil (c : Char) : escapeNeeded c ≠ [] := by
  unfold escapeNeeded unitEscape
  split_ifs <;> simp

/-- A string is read back from its text. -/
theorem stringBody_escaped (s : String) :
    stringBody strict (s.toList.flatMap escapeNeeded ++ '"' :: rest) = .ok (s, rest) := by
  have grows (cs : List Char) : cs.length ≤ (cs.flatMap escapeNeeded).length := by
    induction cs with
    | nil => exact Nat.le_refl 0
    | cons c cs ih =>
      have some := List.length_pos_iff.mpr (escapeNeeded_ne_nil c)
      rw [List.flatMap_cons, List.length_append, List.length_cons]
      omega
  have enough : s.toList.length <
      (s.toList.flatMap escapeNeeded ++ '"' :: rest).length + 1 := by
    rw [List.length_append]
    exact Nat.lt_succ_of_le (Nat.le_add_right_of_le (grows s.toList))
  rw [stringBody, stringTail_flatMap enough, List.reverse_nil, List.nil_append,
    String.ofList_toList]

/-! ### Values -/

/-- The character is no blank between tokens. -/
abbrev Solid (c : Char) : Prop := c ≠ ' ' ∧ c ≠ '\n' ∧ c ≠ '\t' ∧ c ≠ '\r'

theorem skipBlanks_cons {c : Char} (solid : Solid c) : skipBlanks (c :: cs) = c :: cs := by
  obtain ⟨blank, feed, tab, carriage⟩ := solid
  simp [skipBlanks, blank, feed, tab, carriage]

/-- A value whose text is read as the value, when at most so many containers may stand inside each
other. -/
structure ReadsBack (depth : Nat) (v : Json) : Prop where
  starts : ∃ c tail, v.chars escapeNeeded = c :: tail ∧ Solid c ∧ c ≠ ']'
  reads : ∀ {after}, Follows after →
    value true depth (v.chars escapeNeeded ++ after) = .ok (v, after)

namespace ReadsBack

variable {depth : Nat}

theorem null : ReadsBack depth .null := by
  refine ⟨⟨'n', "ull".toList, rfl, by decide, by decide⟩, fun {after} _ => ?_⟩
  have text : chars escapeNeeded .null ++ after = 'n' :: ("ull".toList ++ after) := rfl
  rw [text, value, skipBlanks_cons (by decide)]
  rfl

theorem bool (b : Bool) : ReadsBack depth (.bool b) := by
  cases b with
  | true =>
    refine ⟨⟨'t', "rue".toList, rfl, by decide, by decide⟩, fun {after} _ => ?_⟩
    have text : chars escapeNeeded (.bool true) ++ after = 't' :: ("rue".toList ++ after) := rfl
    rw [text, value, skipBlanks_cons (by decide)]
    rfl
  | false =>
    refine ⟨⟨'f', "alse".toList, rfl, by decide, by decide⟩, fun {after} _ => ?_⟩
    have text : chars escapeNeeded (.bool false) ++ after = 'f' :: ("alse".toList ++ after) := rfl
    rw [text, value, skipBlanks_cons (by decide)]
    rfl

theorem string (s : String) : ReadsBack depth (.string s) := by
  refine ⟨⟨'"', _, rfl, by decide, by decide⟩, fun {after} _ => ?_⟩
  have text : chars escapeNeeded (.string s) ++ after =
      '"' :: (s.toList.flatMap escapeNeeded ++ '"' :: after) := by
    simp [chars, quoted]
  rw [text, value, skipBlanks_cons (by decide)]
  simp [stringBody_escaped]

/-- What a number starts with, nothing else starts with. -/
theorem ne_of_start {c d : Char} (start : c = '-' ∨ (Text.digit? c).isSome = true)
    (other : d ≠ '-' ∧ (Text.digit? d).isSome = false) : c ≠ d := by
  rintro rfl
  rcases start with minus | digit
  · exact other.1 minus
  · rw [other.2] at digit
    cases digit

theorem number {n : Number} (same : numeral true n.chars = .ok (n, [])) :
    ReadsBack depth (.number n) := by
  obtain ⟨c, tail, text, start⟩ := head_of_numeral same
  have solid : Solid c := by
    refine ⟨?_, ?_, ?_, ?_⟩ <;> exact ne_of_start start (by decide)
  refine ⟨⟨c, tail, text, solid, ne_of_start start (by decide)⟩, fun {after} follows => ?_⟩
  have read := stops_numeral follows same
  rw [chars, text, List.cons_append, value, skipBlanks_cons solid]
  rw [text, List.cons_append] at read
  simp (disch := first | exact ne_of_start start (by decide) | exact start) only
    [if_neg, if_pos, read, ok_bind, List.nil_append]

end ReadsBack

/-! ### Containers -/

section
variable {α : Type} {item : Reader α} {v : α} {read : List α} {c d : Char} {fuel : Nat}

/-- The last item of an array. -/
theorem items_last (solid : Solid c) (inside : c ≠ ']')
    (taken : item (c :: cs) = .ok (v, ']' :: rest)) :
    items item (fuel + 1) read (c :: cs) = .ok (read.reverse ++ [v], rest) := by
  rw [items, skipBlanks_cons solid]
  split
  · rename_i closed
    exact absurd (List.cons.inj closed).1 inside
  · rw [taken, ok_bind]
    simp only [skipBlanks_cons (c := ']') (by decide), List.reverse_cons]

/-- An item with another one after it. What follows the comma has to start an item, because a comma
before the closing bracket is refused. -/
theorem items_next (solid : Solid c) (inside : c ≠ ']')
    (taken : item (c :: cs) = .ok (v, ',' :: d :: rest)) (solid' : Solid d) (inside' : d ≠ ']') :
    items item (fuel + 1) read (c :: cs) = items item fuel (v :: read) (d :: rest) := by
  rw [items, skipBlanks_cons solid]
  split
  · rename_i closed
    exact absurd (List.cons.inj closed).1 inside
  · rw [taken, ok_bind]
    simp only [skipBlanks_cons (c := ',') (by decide), skipBlanks_cons solid']
    split
    · rename_i closed
      exact absurd (List.cons.inj closed).1 inside'
    · rfl

end

namespace ReadsBack

variable {depth fuel : Nat}

theorem items {vs read : List Json} (each : ∀ v ∈ vs, ReadsBack depth v) (nonempty : vs ≠ [])
    (enough : vs.length ≤ fuel) :
    Json.items (value true depth) fuel read (itemChars escapeNeeded vs ++ ']' :: rest) =
      .ok (read.reverse ++ vs, rest) := by
  induction vs generalizing fuel read with
  | nil => exact absurd rfl nonempty
  | cons v vs ih =>
    obtain ⟨⟨c, tail, text, solid, inside⟩, reads⟩ := each v List.mem_cons_self
    obtain _ | fuel := fuel
    · cases enough
    cases vs with
    | nil =>
      have taken := reads (show Follows (']' :: rest) from follows_bracket)
      rw [itemChars]
      rw [text, List.cons_append] at taken ⊢
      exact items_last solid inside taken
    | cons w vs =>
      have later := fun v member => each v (List.mem_cons_of_mem _ member)
      obtain ⟨⟨d, tail', text', solid', inside'⟩, -⟩ := later w List.mem_cons_self
      obtain ⟨more, begun⟩ :
          ∃ more, itemChars escapeNeeded (w :: vs) ++ ']' :: rest = d :: more := by
        cases vs <;> simp [itemChars, text']
      have taken := reads
        (show Follows (',' :: (itemChars escapeNeeded (w :: vs) ++ ']' :: rest)) from follows_comma)
      have left : Json.items (value true depth) fuel (v :: read)
          (itemChars escapeNeeded (w :: vs) ++ ']' :: rest) =
            .ok ((v :: read).reverse ++ w :: vs, rest) :=
        ih later (List.cons_ne_nil _ _) (Nat.le_of_succ_le_succ enough)
      rw [itemChars, List.append_assoc, List.cons_append]
      rw [begun] at taken left ⊢
      rw [text, List.cons_append] at taken ⊢
      rw [items_next solid inside taken solid' inside', left, List.reverse_cons, List.append_assoc]
      rfl

end ReadsBack

theorem key_quoted (name : String) :
    key strict (quoted escapeNeeded name ++ ':' :: rest) = .ok (name, rest) := by
  rw [quoted, List.cons_append, List.append_assoc, key, skipBlanks_cons (by decide)]
  simp only [List.cons_append, List.nil_append, stringBody_escaped, ok_bind, expect,
    skipBlanks_cons (c := ':') (by decide), if_true]

section
variable {σ : Type} {member : σ → String → Reader σ} {state state' : σ} {name : String}
variable {first : Bool} {fuel : Nat}

/-- The last member of an object. -/
theorem members_last (taken : member state name cs = .ok (state', '}' :: rest)) :
    members strict member (fuel + 1) first state (quoted escapeNeeded name ++ ':' :: cs) =
      .ok (state', rest) := by
  have begun : key strict (quoted escapeNeeded name ++ ':' :: cs) = .ok (name, cs) :=
    key_quoted name
  rw [quoted, List.cons_append] at begun ⊢
  rw [members, skipBlanks_cons (by decide)]
  split
  · rename_i closed
    exact absurd (List.cons.inj closed).1 (by decide)
  · simp only [begun, ok_bind, taken, skipBlanks_cons (c := '}') (by decide)]

/-- A member with another one after it. -/
theorem members_next (taken : member state name cs = .ok (state', ',' :: rest)) :
    members strict member (fuel + 1) first state (quoted escapeNeeded name ++ ':' :: cs) =
      members strict member fuel false state' rest := by
  have begun : key strict (quoted escapeNeeded name ++ ':' :: cs) = .ok (name, cs) :=
    key_quoted name
  rw [quoted, List.cons_append] at begun ⊢
  rw [members, skipBlanks_cons (by decide)]
  split
  · rename_i closed
    exact absurd (List.cons.inj closed).1 (by decide)
  · simp only [begun, ok_bind, taken, skipBlanks_cons (c := ',') (by decide)]

end

theorem Members.set_of_absent {members : Members} {key : String} {value : Json}
    (absent : members.has key = false) : members.set key value = members ++ [(key, value)] := by
  rw [set, if_neg (by simp [absent])]

/-- The commas alone give a reader of items enough steps. -/
theorem length_itemChars (vs : List Json) :
    vs.length ≤ (itemChars escapeNeeded vs).length + 1 := by
  induction vs with
  | nil => exact Nat.zero_le _
  | cons v vs ih =>
    cases vs with
    | nil => exact Nat.le_add_left 1 _
    | cons w vs =>
      simp only [itemChars, List.length_append, List.length_cons] at ih ⊢
      omega

theorem length_memberChars (ms : Members) :
    ms.length ≤ (memberChars escapeNeeded ms).length + 1 := by
  induction ms with
  | nil => exact Nat.zero_le _
  | cons m ms ih =>
    cases ms with
    | nil => exact Nat.le_add_left 1 _
    | cons m' ms =>
      simp only [memberChars, List.length_append, List.length_cons] at ih ⊢
      omega

namespace ReadsBack

variable {depth fuel : Nat} {first : Bool}

theorem members {ms read : Members} (each : ∀ m ∈ ms, ReadsBack depth m.2)
    (once : ((read ++ ms).map Prod.fst).Nodup) (nonempty : ms ≠ []) (enough : ms.length ≤ fuel) :
    Json.members true (setMember (value true depth)) fuel first read
        (memberChars escapeNeeded ms ++ '}' :: rest) = .ok (read ++ ms, rest) := by
  induction ms generalizing fuel first read with
  | nil => exact absurd rfl nonempty
  | cons m ms ih =>
    obtain ⟨name, v⟩ := m
    have absent : read.has name = false := by
      rw [List.map_append, List.nodup_append] at once
      refine List.any_eq_false.mpr fun m member same => ?_
      exact once.2.2 m.1 (List.mem_map_of_mem member) name List.mem_cons_self (beq_iff_eq.mp same)
    have held := each _ List.mem_cons_self
    have taken {after} (follows : Follows after) : setMember (value true depth) read name
        (v.chars escapeNeeded ++ after) = .ok (read ++ [(name, v)], after) := by
      rw [setMember, held.reads follows, ok_bind]
      exact congrArg (fun set => Except.ok (set, after)) (Members.set_of_absent absent)
    obtain _ | fuel := fuel
    · cases enough
    cases ms with
    | nil =>
      rw [memberChars, List.append_assoc, List.cons_append]
      exact members_last (taken follows_brace)
    | cons m' ms =>
      have later := fun m member => each m (List.mem_cons_of_mem _ member)
      rw [memberChars, List.append_assoc, List.cons_append, List.append_assoc, List.cons_append,
        members_next (taken follows_comma), ih later (by simpa using once) (List.cons_ne_nil _ _)
          (Nat.le_of_succ_le_succ enough)]
      simp

theorem array {vs : List Json} (each : ∀ v ∈ vs, ReadsBack depth v) :
    ReadsBack (depth + 1) (.array vs) := by
  refine ⟨⟨'[', _, rfl, by decide, by decide⟩, fun {after} _ => ?_⟩
  have text : chars escapeNeeded (.array vs) ++ after =
      '[' :: (itemChars escapeNeeded vs ++ ']' :: after) := by simp [chars]
  have enough : vs.length ≤ (itemChars escapeNeeded vs ++ ']' :: after).length + 1 := by
    have commas := length_itemChars vs
    rw [List.length_append]
    omega
  have read : Json.items (value true depth) ((itemChars escapeNeeded vs ++ ']' :: after).length + 1)
      [] (itemChars escapeNeeded vs ++ ']' :: after) = .ok (vs, after) := by
    by_cases empty : vs = []
    · rw [empty]
      rfl
    · exact items each empty enough
  rw [text, value, skipBlanks_cons (by decide)]
  simp +decide only [if_false, if_true, read, ok_bind]

theorem object {ms : Members} (once : (ms.map Prod.fst).Nodup)
    (each : ∀ m ∈ ms, ReadsBack depth m.2) : ReadsBack (depth + 1) (.object ms) := by
  refine ⟨⟨'{', _, rfl, by decide, by decide⟩, fun {after} _ => ?_⟩
  have text : chars escapeNeeded (.object ms) ++ after =
      '{' :: (memberChars escapeNeeded ms ++ '}' :: after) := by simp [chars]
  have enough : ms.length ≤ (memberChars escapeNeeded ms ++ '}' :: after).length + 1 := by
    have commas := length_memberChars ms
    rw [List.length_append]
    omega
  have read : Json.members true (setMember (value true depth))
      ((memberChars escapeNeeded ms ++ '}' :: after).length + 1) true []
      (memberChars escapeNeeded ms ++ '}' :: after) = .ok (ms, after) := by
    by_cases empty : ms = []
    · rw [empty]
      rfl
    · exact members each once empty enough
  rw [text, value, skipBlanks_cons (by decide)]
  simp +decide only [if_false, if_true, read, ok_bind]

end ReadsBack

/-- A value whose text is read back: with the keys of each object apart from each other, integers of
64 bits, floating-point numbers that are read back from their own texts, and at most so many
containers inside each other. -/
inductive Legible : Nat → Json → Prop where
  | null {depth : Nat} : Legible depth .null
  | bool {depth : Nat} (b : Bool) : Legible depth (.bool b)
  | integer {depth : Nat} {n : Int} (inRange : InRange n) : Legible depth (.number (.integer n))
  | decimal {depth : Nat} {x : Double}
      (same : numeral true x.chars = .ok (.decimal x, [])) : Legible depth (.number (.decimal x))
  | string {depth : Nat} (s : String) : Legible depth (.string s)
  | array {depth : Nat} {items : List Json} (each : ∀ item ∈ items, Legible depth item) :
      Legible (depth + 1) (.array items)
  | object {depth : Nat} {members : Members} (once : (members.map Prod.fst).Nodup)
      (each : ∀ member ∈ members, Legible depth member.2) : Legible (depth + 1) (.object members)

theorem Legible.readsBack {depth : Nat} {v : Json} (legible : Legible depth v) :
    ReadsBack depth v := by
  induction legible with
  | null => exact .null
  | bool b => exact .bool b
  | integer inRange => exact .number (numeral_integer inRange)
  | decimal same => exact .number same
  | string s => exact .string s
  | array _ ih => exact .array ih
  | object once _ ih => exact .object once ih

/-- The text of a value is read as the value. -/
theorem parse?_text {v : Json} (legible : Legible maxDepth v) : parse? v.text = some v := by
  have read := legible.readsBack.reads (show Follows [] from trivial)
  rw [List.append_nil] at read
  rw [parse?, text, String.toList_ofList, read]
  rfl

end Json

/-! ### Entries -/

open Json

theorem Amount.legible_toJson (a : Amount) {depth : Nat} : Legible depth a.toJson :=
  .integer ⟨a.inRange.1, Int.lt_trans a.inRange.2 (by decide)⟩

theorem EntryId.legible_toJson (id : EntryId) {depth : Nat} : Legible depth id.toJson :=
  .string id.uuid.text

theorem AllocationSource.legible_toJson (source : AllocationSource) {depth : Nat} :
    Legible (depth + 1) source.toJson := by
  refine .object (by simp) fun member held => ?_
  simp only [List.mem_cons, List.not_mem_nil, or_false] at held
  rcases held with rfl | rfl
  · exact source.entryId.legible_toJson
  · exact source.amount.legible_toJson

theorem RevertLink.legible_toJson (link : RevertLink) {depth : Nat} :
    Legible (depth + 1) link.toJson := by
  refine .object (by simp) fun member held => ?_
  simp only [List.mem_cons, List.not_mem_nil, or_false] at held
  rcases held with rfl | rfl
  · exact link.entryId.legible_toJson
  · exact .string link.entryHash

namespace Metadata

variable {m : Metadata} {depth : Nat}

/-- The ledger's keys are apart from the caller's, so the object has each of them once. The deepest
value that the ledger writes is a list of objects. -/
theorem Open.legible_object (opened : m.Open) (extra : Legible (depth + 3) (.object m.extra))
    {ledgers : Members} (reserved : ∀ member ∈ ledgers, member.1 ∈ reservedKeys)
    (once : (ledgers.map Prod.fst).Nodup)
    (each : ∀ member ∈ ledgers, Legible (depth + 2) member.2) :
    Legible (depth + 3) (.object (ledgers ++ m.extra)) := by
  cases extra with
  | object once' each' =>
    refine .object ?_ fun member held => ?_
    · rw [List.map_append, List.nodup_append]
      refine ⟨once, once', fun key own key' foreign same => ?_⟩
      obtain ⟨member, held, rfl⟩ := List.mem_map.mp own
      obtain ⟨member', held', rfl⟩ := List.mem_map.mp foreign
      have other := List.any_eq_false.mp (opened _ (reserved member held)) member' held'
      exact other (beq_iff_eq.mpr same.symm)
    · rcases List.mem_append.mp held with own | foreign
      · exact each member own
      · exact each' member foreign

theorem legible_toJson (opened : m.Open) (extra : Legible (depth + 3) (.object m.extra)) :
    Legible (depth + 3) m.toJson := by
  have sources : Legible (depth + 2) (list AllocationSource.toJson m.sources) := by
    refine .array fun item held => ?_
    obtain ⟨source, -, rfl⟩ := List.mem_map.mp held
    exact source.legible_toJson
  rcases m with ⟨_ | ⟨source, others⟩, _ | link, extra'⟩
  all_goals
    refine opened.legible_object extra ?_ ?_ ?_
    all_goals simp [reservedKeys, sources, RevertLink.legible_toJson]

end Metadata

/-- The text of an entry is read back when the values under the caller's keys are. -/
theorem Entry.legible_toJson {e : Entry} (opened : e.metadata.Open) {depth : Nat}
    (extra : Legible (depth + 3) (.object e.metadata.extra)) : Legible (depth + 4) e.toJson := by
  have metadata := e.metadata.legible_toJson opened extra
  refine .object (by simp) fun member held => ?_
  simp only [List.mem_cons, List.not_mem_nil, or_false] at held
  rcases held with rfl | rfl | rfl | rfl | rfl | rfl | rfl | rfl | rfl | rfl | rfl | rfl
  all_goals first
    | exact metadata
    | exact .string _
    | exact e.amount.legible_toJson

end PointLedger
