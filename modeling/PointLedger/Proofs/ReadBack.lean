import Mathlib.Algebra.Group.Nat.Defs
import Mathlib.Data.List.Forall2
import PointLedger.Proofs.ShownTimes

/-!
What is written can be read back. A reader that meets a written form followed by something else
gives the value and what follows; of the whole text of an identifier it gives the identifier, and of
that of a time the time that it shows. An entry is read back from its JSON form as it is shown,
whatever the caller's keys hold, as long as none of them is a key of the ledger.
-/

namespace PointLedger

/-- Reading goes on with what was read. -/
theorem some_bind {α β : Type} (a : α) (next : α → Option β) : (some a >>= next) = next a := rfl

/-- A list is read as what its items are read as, one by one. -/
theorem mapM_eq_some_iff {α β : Type} {read : α → Option β} {items : List α} {values : List β} :
    items.mapM read = some values ↔ List.Forall₂ (fun i v => read i = some v) items values := by
  induction items generalizing values with
  | nil => cases values <;> simp
  | cons item rest ih => cases values <;> simp [Option.bind_eq_some_iff, ih]

/-! ### Digits -/

namespace Text

variable {read : Char → Option Nat} {cs rest : List Char} {ds : List Nat}

/-- The characters stand for these digits. -/
abbrev Spells (read : Char → Option Nat) : List Char → List Nat → Prop :=
  List.Forall₂ fun c d => read c = some d

theorem ofDigits_concat (base : Nat) (ds : List Nat) (d : Nat) :
    ofDigits base (ds ++ [d]) = ofDigits base ds * base + d := by
  simp [ofDigits]

/-- The last digits of a number. -/
theorem spells_digits (base : Nat) (positive : 0 < base)
    (reads : ∀ d < base, read (digitChar d) = some d) (width n : Nat) :
    ∃ ds, Spells read (digits base width n) ds ∧ ofDigits base ds = n % base ^ width := by
  induction width generalizing n with
  | zero => exact ⟨[], .nil, by simp [ofDigits, Nat.mod_one]⟩
  | succ width ih =>
    obtain ⟨ds, spells, value⟩ := ih (n / base)
    refine ⟨ds ++ [n % base], List.rel_append spells (.cons (reads _ (Nat.mod_lt _ positive)) .nil),
      ?_⟩
    rw [ofDigits_concat, value, Nat.pow_succ', Nat.mod_mul, Nat.mul_comm, Nat.add_comm]

theorem digit?_digitChar {d : Nat} (small : d < 10) : digit? (digitChar d) = some d := by
  have all : ∀ i : Fin 10, digit? (digitChar i) = some i.val := by decide
  exact all ⟨d, small⟩

theorem hexDigit?_digitChar {d : Nat} (small : d < 16) : hexDigit? (digitChar d) = some d := by
  have all : ∀ i : Fin 16, hexDigit? (digitChar i) = some i.val := by decide
  exact all ⟨d, small⟩

theorem digit?_of_isDigit {c : Char} (digit : c.isDigit = true) :
    digit? c = some (c.toNat - '0'.toNat) := by
  simp only [Char.isDigit, Bool.and_eq_true, decide_eq_true_eq] at digit
  exact if_pos digit

/-- A numeral without leading zeros, or with some. -/
theorem spells_padded (width n : Nat) :
    ∃ ds, Spells digit? (padded width n) ds ∧ ofDigits 10 ds = n := by
  have spelled {cs : List Char} (digits : ∀ c ∈ cs, c.isDigit = true) :
      Spells digit? cs (cs.map fun c => c.toNat - '0'.toNat) := by
    induction cs with
    | nil => exact .nil
    | cons c cs ih =>
      exact .cons (digit?_of_isDigit (digits c (by simp))) (ih fun c m => digits c (by simp [m]))
  have value {cs : List Char} (n : Nat) :
      (cs.map fun c => c.toNat - '0'.toNat).foldl (fun n d => n * 10 + d) n =
        Nat.ofDigitChars 10 cs n := by
    induction cs generalizing n with
    | nil => rfl
    | cons c cs ih => rw [List.map_cons, List.foldl_cons, ih, Nat.ofDigitChars_cons, Nat.mul_comm]
  refine ⟨_, spelled fun c member => ?_, (value 0).trans ?_⟩
  · rcases List.mem_append.mp member with zero | digit
    · rw [List.eq_of_mem_replicate zero]
      rfl
    · exact Nat.isDigit_of_mem_toDigits (by decide) (by decide) digit
  · simp [padded, Nat.ofDigitChars_append, Nat.ofDigitChars_replicate_zero,
      Nat.ofDigitChars_ten_toDigits]

/-- A reader of digits takes all of them when it may, and stops before what is no digit. -/
theorem takeDigits_of_spells (spells : Spells digit? cs ds) (limit : Nat)
    (fits : cs.length ≤ limit)
    (stops : limit = cs.length ∨ ∀ c ∈ rest.head?, digit? c = none) :
    takeDigits limit (cs ++ rest) = (ds, rest) := by
  induction spells generalizing limit with
  | nil =>
    cases limit with
    | zero => rfl
    | succ limit =>
      have stop := stops.resolve_left (by simp)
      cases rest with
      | nil => rfl
      | cons c rest => simp [takeDigits, stop c rfl]
  | @cons c d cs ds first spells ih =>
    cases limit with
    | zero => simp at fits
    | succ limit =>
      have fits : cs.length ≤ limit := by simpa using fits
      have stops : limit = cs.length ∨ ∀ c ∈ rest.head?, digit? c = none := by simpa using stops
      simp [takeDigits, first, ih limit fits stops]

theorem dropBlanks_cons {c : Char} (plain : isBlank c = false) : dropBlanks (c :: cs) = c :: cs := by
  simp [dropBlanks, plain]

/-- No digit is blank. -/
theorem dropBlanks_of_spells (spells : Spells digit? cs ds) (nonempty : cs ≠ []) :
    dropBlanks (cs ++ rest) = cs ++ rest := by
  cases spells with
  | nil => exact absurd rfl nonempty
  | @cons c d cs ds first spells =>
    have bounds : '0' ≤ c ∧ c ≤ '9' := by
      by_contra other
      rw [digit?, if_neg other] at first
      cases first
    have plain : isBlank c = false := by
      have low : 48 ≤ c.toNat := bounds.1
      have high : c.toNat ≤ 57 := bounds.2
      simp [isBlank]
      omega
    exact dropBlanks_cons plain

end Text

/-! ### Identifiers -/

namespace Uuid

/-- A group of digits, the hyphen after it and what follows. -/
theorem group_of_drop {cs group rest : List Char} {start count : Nat}
    (here : cs.drop start = group ++ '-' :: rest) (size : group.length = count) :
    (cs.drop start).take count = group ∧ (cs.drop (start + count)).head? = some '-' ∧
      cs.drop (start + count + 1) = rest := by
  refine ⟨by rw [here, List.take_left' size], ?_, ?_⟩
  · rw [← List.drop_drop, here, List.drop_left' size]
    rfl
  · rw [Nat.add_assoc, ← List.drop_drop, here, ← List.drop_drop, List.drop_left' size]
    rfl

/-- The hyphenated form is read as its digits. -/
theorem ofHyphenated?_groups {a b c d e : List Char} (ha : a.length = 8) (hb : b.length = 4)
    (hc : c.length = 4) (hd : d.length = 4) (he : e.length = 12) :
    ofHyphenated? (a ++ '-' :: (b ++ '-' :: (c ++ '-' :: (d ++ '-' :: e)))) =
      ofHex? (a ++ b ++ c ++ d ++ e) := by
  generalize written : a ++ '-' :: (b ++ '-' :: (c ++ '-' :: (d ++ '-' :: e))) = cs
  have size : cs.length = 36 := by
    rw [← written]
    simp only [List.length_append, List.length_cons, ha, hb, hc, hd, he]
  have start : cs.drop 0 = a ++ '-' :: (b ++ '-' :: (c ++ '-' :: (d ++ '-' :: e))) := written.symm
  obtain ⟨first, mark₁, start⟩ := group_of_drop start ha
  obtain ⟨second, mark₂, start⟩ := group_of_drop start hb
  obtain ⟨third, mark₃, start⟩ := group_of_drop start hc
  obtain ⟨fourth, mark₄, last⟩ := group_of_drop start hd
  unfold ofHyphenated?
  rw [if_pos ⟨size, mark₁, mark₂, mark₃, mark₄⟩]
  rw [List.drop_zero] at first
  exact congrArg ofHex? (congrArg₂ (· ++ ·) (by rw [first, second, third, fourth]) last)

theorem ofHyphenated?_chars (id : Uuid) :
    ofHyphenated? id.chars = ofHex? (Text.digits 16 32 id.value) := by
  have size := Text.length_digits 16 32 id.value
  have groups (start count : Nat) :
      ((Text.digits 16 32 id.value).drop start).take count ++
        (Text.digits 16 32 id.value).drop (start + count) =
      (Text.digits 16 32 id.value).drop start := by
    rw [← List.drop_drop, List.take_append_drop]
  refine (ofHyphenated?_groups ?_ ?_ ?_ ?_ ?_).trans (congrArg ofHex? ?_)
  iterate 5 simp [size]
  simp only [List.append_assoc]
  rw [groups 16 4, groups 12 4, groups 8 4, List.take_append_drop]

theorem ofText?_text (id : Uuid) : ofText? id.text = some id := by
  obtain ⟨ds, spells, value⟩ := Text.spells_digits 16 (by decide)
    (fun _ => Text.hexDigit?_digitChar) 32 id.value
  have size := Text.length_digits 16 32 id.value
  have count : ds.length = 32 := spells.length_eq ▸ size
  have length : id.chars.length = 36 := by simp [chars, size]
  have small : id.value % 16 ^ 32 = id.value := Nat.mod_eq_of_lt id.lt
  have read : ofHex? (Text.digits 16 32 id.value) = some (ofNat id.value) := by
    rw [small] at value
    simp [ofHex?, mapM_eq_some_iff.mpr spells, count, value]
  have same : ofNat id.value = id := by
    cases id with
    | mk value lt => exact Uuid.mk.injEq .. ▸ Nat.mod_eq_of_lt lt
  rw [ofText?, text, String.toList_ofList, length, ofHyphenated?_chars, read, same]
  rfl

end Uuid

/-! ### Times -/

namespace Timestamp

open Text

variable {cs rest : List Char} {ds : List Nat}

theorem readNumber_of_spells (spells : Spells digit? cs ds) (nonempty : cs ≠ []) {limit : Nat}
    (fits : cs.length ≤ limit)
    (stops : limit = cs.length ∨ ∀ c ∈ rest.head?, digit? c = none) :
    readNumber limit (cs ++ rest) = some (ofDigits 10 ds, rest) := by
  rw [readNumber, dropBlanks_of_spells spells nonempty, takeDigits_of_spells spells limit fits stops]
  cases spells with
  | nil => exact absurd rfl nonempty
  | cons => rfl

theorem readNumber_digits {width n : Nat} (positive : 0 < width) (small : n < 10 ^ width) :
    readNumber width (digits 10 width n ++ rest) = some (n, rest) := by
  obtain ⟨ds, spells, value⟩ := spells_digits 10 (by decide)
    (fun _ => digit?_digitChar) width n
  have size := length_digits 10 width n
  have nonempty : digits 10 width n ≠ [] := by
    intro none
    rw [none] at size
    exact absurd size.symm (Nat.ne_of_gt positive)
  rw [readNumber_of_spells spells nonempty (Nat.le_of_eq size) (.inl size.symm), value,
    Nat.mod_eq_of_lt small]

theorem readNumber_twoDigits {n : Nat} (small : n < 100) :
    readNumber 2 (twoDigits n ++ rest) = some (n, rest) :=
  readNumber_digits (by decide) small

/-- A year ends before what is no digit. -/
theorem readYear_yearChars (year : Int) (stop : ∀ c ∈ rest.head?, digit? c = none) :
    readYear (yearChars year ++ rest) = some (year, rest) := by
  have signed : ∃ d ds, takeDigits (padded 4 year.natAbs ++ rest).length
      (padded 4 year.natAbs ++ rest) = (d :: ds, rest) ∧ ofDigits 10 (d :: ds) = year.natAbs := by
    obtain ⟨ds, spells, value⟩ := spells_padded 4 year.natAbs
    have taken := takeDigits_of_spells spells (padded 4 year.natAbs ++ rest).length
      (by simp) (.inr stop)
    cases ds with
    | nil =>
      have size := spells.length_eq
      simp [padded] at size
    | cons d ds => exact ⟨d, ds, taken, value⟩
  obtain ⟨d, ds, taken, value⟩ := signed
  unfold yearChars
  split
  · rename_i plain
    have read : readNumber 4 (digits 10 4 year.toNat ++ rest) = some (year.toNat, rest) :=
      readNumber_digits (by decide) (by omega)
    have digit : digit? (digitChar (year.toNat / 10 / 10 / 10 % 10)) =
        some (year.toNat / 10 / 10 / 10 % 10) := digit?_digitChar (Nat.mod_lt _ (by decide))
    have begun : dropBlanks (digits 10 4 year.toNat ++ rest) = digits 10 4 year.toNat ++ rest := by
      obtain ⟨ds, spells, -⟩ := spells_digits 10 (by decide)
        (fun _ => digit?_digitChar) 4 year.toNat
      exact dropBlanks_of_spells spells (List.cons_ne_nil _ _)
    unfold readYear
    rw [begun]
    split
    · rename_i sign
      rw [(List.cons.inj sign).1] at digit
      cases (show digit? '-' = none by decide).symm.trans digit
    · rename_i sign
      rw [(List.cons.inj sign).1] at digit
      cases (show digit? '+' = none by decide).symm.trans digit
    · rw [read]
      simp [Int.toNat_of_nonneg plain.1]
  · split
    · rename_i before
      rw [List.cons_append, readYear, dropBlanks_cons (by decide)]
      simp only [taken, value, Option.some.injEq, Prod.mk.injEq, and_true]
      omega
    · rename_i after
      rw [List.cons_append, readYear, dropBlanks_cons (by decide)]
      simp only [taken, value, Option.some.injEq, Prod.mk.injEq, and_true]
      omega

theorem readMark_cons {mark : Char} (plain : isBlank mark = false) :
    readMark mark (mark :: rest) = some rest := by
  simp [readMark, dropBlanks_cons plain]

theorem readFraction_digits {width n : Nat} (positive : 0 < width) (short : width ≤ 9)
    (small : n < 10 ^ width) :
    readFraction ('.' :: (digits 10 width n ++ ['Z'])) = some (n * Nat.pow 10 (9 - width), ['Z']) := by
  obtain ⟨ds, spells, value⟩ := spells_digits 10 (by decide)
    (fun _ => digit?_digitChar) width n
  have size := length_digits 10 width n
  have count : ds.length = width := spells.length_eq ▸ size
  have taken : takeDigits 9 (digits 10 width n ++ ['Z']) = (ds, ['Z']) :=
    takeDigits_of_spells spells 9 (Nat.le_trans (Nat.le_of_eq size) short) (.inr (by simp; decide))
  rw [Nat.mod_eq_of_lt small] at value
  simp only [readFraction, taken]
  cases ds with
  | nil => exact absurd count.symm (Nat.ne_of_gt positive)
  | cons d ds =>
    simp only [value, count]
    rfl

theorem readFraction_fractionChars (t : Timestamp) :
    readFraction (t.fractionChars ++ ['Z']) = some (t.writtenNano, ['Z']) := by
  have small : t.writtenNano < 1000000000 := Nat.mod_lt _ (by decide)
  unfold fractionChars
  dsimp only
  split
  · rename_i whole
    rw [whole]
    rfl
  · split
    · rw [List.cons_append, readFraction_digits (by decide) (by decide) (by omega)]
      simp only [Nat.reduceSub, Option.some.injEq, Prod.mk.injEq, and_true]
      show t.writtenNano / 1000000 * 1000000 = t.writtenNano
      omega
    · split
      · rw [List.cons_append, readFraction_digits (by decide) (by decide) (by omega)]
        simp only [Nat.reduceSub, Option.some.injEq, Prod.mk.injEq, and_true]
        show t.writtenNano / 1000 * 1000 = t.writtenNano
        omega
      · rw [List.cons_append, readFraction_digits (by decide) (by decide) (by omega)]
        simp

/-- A time in UTC is where its own clock puts it. -/
theorem ofLocal?_self (t : Timestamp) :
    ofLocal? t.date t.hour t.minute t.second t.nano 0 = some t := by
  obtain ⟨hour, minute, -, -⟩ := t.valid
  have early : ¬ ((t.hour : Int) * 60 + t.minute - 0 < 0) := by omega
  have late : ¬ ((t.hour : Int) * 60 + t.minute - 0 ≥ 1440) := by omega
  have minutes : (((t.hour : Int) * 60 + t.minute - 0) % 1440).toNat = t.hour * 60 + t.minute := by
    omega
  have hours : (t.hour * 60 + t.minute) / 60 = t.hour := by omega
  have rest : (t.hour * 60 + t.minute) % 60 = t.minute := by omega
  unfold ofLocal?
  rw [if_pos (by decide)]
  simp only [if_neg early, if_neg late, minutes, hours, rest]
  exact dif_pos t.valid

/-- What is written is read as the time that it shows. -/
theorem ofText?_text (t : Timestamp) : ofText? t.text = some t.shown := by
  obtain ⟨hour, minute, second, nano⟩ := t.valid
  obtain ⟨-, ⟨-, month⟩, ⟨-, day⟩⟩ := t.date.valid
  have short : daysInMonth t.date.year t.date.month ≤ 31 := by
    unfold daysInMonth
    repeat' split
    all_goals omega
  have written : t.writtenSecond < 100 := by
    unfold writtenSecond
    omega
  have date : Date.of? t.date.year t.date.month t.date.day = some t.date := dif_pos t.date.valid
  unfold ofText? text
  rw [String.toList_ofList]
  simp only [dateChars, timeChars, List.append_assoc, List.cons_append]
  rw [readYear_yearChars t.date.year (by simp; decide)]
  have offset : readOffset (dropBlanks ['Z']) = some (0, []) := by decide
  simp (disch := first | decide | omega) only [some_bind, true_or, if_true, readMark_cons,
    readNumber_twoDigits, readFraction_fractionChars, offset, date, ofClock?_written, ofLocal?_self]
  rfl

end Timestamp

/-! ### JSON forms -/

@[simp] theorem EntryId.ofJson?_toJson (id : EntryId) : ofJson? id.toJson = some id := by
  simp [ofJson?, toJson, Uuid.ofJson?, Uuid.toJson, Json.asString?, Uuid.ofText?_text]

@[simp] theorem EntryKind.ofJson?_toJson (kind : EntryKind) : ofJson? kind.toJson = some kind := by
  cases kind <;> rfl

@[simp] theorem Amount.ofJson?_toJson (a : Amount) : ofJson? a.toJson = some a :=
  ofInt?_eq_some.mpr rfl

@[simp] theorem Timestamp.ofJson?_toJson (t : Timestamp) : ofJson? t.toJson = some t.shown :=
  t.ofText?_text

@[simp] theorem AllocationSource.ofJson?_toJson (source : AllocationSource) :
    ofJson? source.toJson = some source := by
  simp [ofJson?, toJson, Json.fields?, Json.Fields.required, Json.Members.get?, List.lookup_cons]

@[simp] theorem RevertLink.ofJson?_toJson (link : RevertLink) : ofJson? link.toJson = some link := by
  simp [ofJson?, toJson, Json.fields?, Json.Fields.required, Json.Members.get?, List.lookup_cons,
    Json.asString?]

theorem Json.asList?_list {α : Type} {encode : α → Json} {decode : Json → Option α}
    (reads : ∀ value, decode (encode value) = some value) (values : List α) :
    asList? decode (list encode values) = some values :=
  mapM_eq_some_iff.mpr
    (List.forall₂_map_left_iff.mpr (List.forall₂_same.mpr fun value _ => reads value))

namespace Metadata

/-- None of the caller's keys is a key of the ledger. -/
def Open (m : Metadata) : Prop := ∀ key ∈ reservedKeys, Json.Members.has m.extra key = false

instance (m : Metadata) : Decidable m.Open :=
  inferInstanceAs (Decidable (∀ key ∈ reservedKeys, Json.Members.has m.extra key = false))

theorem Open.lookup_eq_none {m : Metadata} (opened : m.Open) {key : String}
    (reserved : key ∈ reservedKeys) : List.lookup key m.extra = none := by
  refine List.lookup_eq_none_iff.mpr fun own member => ?_
  have other : (own.1 == key) ≠ true := List.any_eq_false.mp (opened key reserved) own member
  exact bne_iff_ne.mpr fun same => other (beq_iff_eq.mpr same.symm)

/-- The caller's keys are what is left without the ledger's. -/
theorem Open.filter_eq {m : Metadata} (opened : m.Open) :
    m.extra.filter (fun own => !reservedKeys.contains own.1) = m.extra := by
  refine List.filter_eq_self.mpr fun own member => ?_
  cases reserved : reservedKeys.contains own.1 with
  | false => rfl
  | true =>
    have other := List.any_eq_false.mp (opened own.1 (List.contains_iff_mem.mp reserved)) own member
    exact absurd (beq_self_eq_true own.1) other

theorem Open.without_append {m : Metadata} (opened : m.Open) {ledgers : Json.Members}
    (reserved : ∀ member ∈ ledgers, member.1 ∈ reservedKeys) :
    Json.Members.without (ledgers ++ m.extra) reservedKeys = m.extra := by
  rw [Json.Members.without, List.filter_append, opened.filter_eq, List.filter_eq_nil_iff.mpr,
    List.nil_append]
  exact fun member held => by simpa using reserved member held

/-- An object of the ledger's keys and the caller's is read by looking up the ledger's. -/
theorem Open.ofJson?_object {m : Metadata} (opened : m.Open) (ledgers : Json.Members)
    (reserved : ∀ member ∈ ledgers, member.1 ∈ reservedKeys)
    (sources : Json.Fields.defaulted ⟨Json.Members.get? (ledgers ++ m.extra), true⟩ "sources" []
      (Json.asList? AllocationSource.ofJson?) = some m.sources)
    (reverts : Json.Fields.defaulted ⟨Json.Members.get? (ledgers ++ m.extra), true⟩ "reverts" none
      (Json.asOption? RevertLink.ofJson?) = some m.reverts) :
    ofJson? (.object (ledgers ++ m.extra)) = some m := by
  simp only [ofJson?, sources, reverts, opened.without_append reserved, some_bind]
  rfl

theorem ofJson?_toJson {m : Metadata} (opened : m.Open) : ofJson? m.toJson = some m := by
  have sources : List.lookup "sources" m.extra = none := opened.lookup_eq_none (by decide)
  have reverts : List.lookup "reverts" m.extra = none := opened.lookup_eq_none (by decide)
  have listed := Json.asList?_list AllocationSource.ofJson?_toJson m.sources
  have linked (link : RevertLink) :
      Json.asOption? RevertLink.ofJson? link.toJson = some (some link) := by
    have object : Json.asOption? RevertLink.ofJson? link.toJson =
        (RevertLink.ofJson? link.toJson).map some := rfl
    rw [object, link.ofJson?_toJson]
    rfl
  obtain ⟨_ | ⟨source, others⟩, _ | link, extra⟩ := m
  · refine opened.ofJson?_object [] (by simp) ?_ ?_
    all_goals simp [Json.Fields.defaulted, Json.Members.get?, sources, reverts]
  · refine opened.ofJson?_object [("reverts", link.toJson)] (by simp [reservedKeys]) ?_ ?_
    all_goals simp [Json.Fields.defaulted, Json.Members.get?, List.lookup_cons, sources, linked]
  · refine opened.ofJson?_object
      [("sources", Json.list AllocationSource.toJson (source :: others))]
      (by simp [reservedKeys]) ?_ ?_
    all_goals simp [Json.Fields.defaulted, Json.Members.get?, List.lookup_cons, listed, reverts]
  · refine opened.ofJson?_object
      [("sources", Json.list AllocationSource.toJson (source :: others)),
        ("reverts", link.toJson)] (by simp [reservedKeys]) ?_ ?_
    all_goals simp [Json.Fields.defaulted, Json.Members.get?, List.lookup_cons, listed, linked]

theorem ofStored?_toJson {m : Metadata} (opened : m.Open) : ofStored? m.toJson = some m :=
  ofJson?_toJson opened

end Metadata

theorem Entry.ofJson?_toJson {e : Entry} (opened : e.metadata.Open) :
    ofJson? e.toJson = some e.shown := by
  have metadata := Metadata.ofJson?_toJson opened
  simp only [ofJson?, toJson, Json.fields?, some_bind, Json.Fields.required, Json.Members.get?,
    List.lookup_cons, String.reduceBEq, beq_self_eq_true, Option.bind_some, Json.asString?,
    metadata, EntryId.ofJson?_toJson, EntryKind.ofJson?_toJson, Amount.ofJson?_toJson,
    Timestamp.ofJson?_toJson]
  rfl

end PointLedger
