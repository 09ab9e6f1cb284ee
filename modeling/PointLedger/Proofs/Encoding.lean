import Mathlib
import PointLedger.Entry.Encoding
import PointLedger.Proofs.ShownTimes

/-!
The canonical encoding can be read in one way only. Numerals, times and ids are told apart by their
text and hold no bar. With no bar in the texts of an entry either, apart from its description, the
two bars before the description and the seven after it can be found by counting from both ends. Of
the time the encoding tells what is shown of it: a leap second in the middle of a minute cannot be
told from the second after it.
-/

namespace PointLedger

/-! ### Digits -/

namespace Text

theorem digitChar_inj {m n : Nat} (small : m < 16) (small' : n < 16)
    (same : digitChar m = digitChar n) : m = n := by
  have all : ∀ i j : Fin 16, digitChar i = digitChar j → i = j := by decide
  exact congrArg Fin.val (all ⟨m, small⟩ ⟨n, small'⟩ same)

/-- The character stands in no numeral, time or id that the ledger writes. -/
def isForeign (c : Char) : Bool :=
  !(c.isAlphanum || c == '-' || c == '+' || c == ':' || c == '.')

theorem ne_of_isForeign {c d : Char} (foreign : isForeign c = true) (own : isForeign d = false) :
    c ≠ d := by
  rintro rfl
  rw [foreign] at own
  cases own

theorem ne_digitChar {c : Char} (foreign : isForeign c = true) {n : Nat} (small : n < 16) :
    c ≠ digitChar n := by
  have all : ∀ i : Fin 16, isForeign (digitChar i) = false := by decide
  exact ne_of_isForeign foreign (all ⟨n, small⟩)

theorem digits_inj {base width m n : Nat} (positive : 0 < base) (base_le : base ≤ 16)
    (small : m < base ^ width) (small' : n < base ^ width)
    (same : digits base width m = digits base width n) : m = n := by
  induction width generalizing m n with
  | zero =>
    rw [Nat.pow_zero] at small small'
    omega
  | succ width ih =>
    obtain ⟨front, last⟩ := List.append_inj' same rfl
    have quotient : m / base = n / base := by
      rw [Nat.pow_succ, Nat.mul_comm] at small small'
      exact ih (Nat.div_lt_of_lt_mul small) (Nat.div_lt_of_lt_mul small') front
    have rest : m % base = n % base := by
      have below := Nat.mod_lt m positive
      have below' := Nat.mod_lt n positive
      exact digitChar_inj (by omega) (by omega) (List.singleton_inj.mp last)
    rw [← Nat.div_add_mod m base, ← Nat.div_add_mod n base, quotient, rest]

theorem not_mem_digits {c : Char} (foreign : isForeign c = true) {base : Nat}
    (positive : 0 < base) (base_le : base ≤ 16) {width : Nat} (n : Nat) :
    c ∉ digits base width n := by
  induction width generalizing n with
  | zero => exact List.not_mem_nil
  | succ width ih =>
    have below := Nat.mod_lt n positive
    have last := ne_digitChar foreign (n := n % base) (by omega)
    simp [digits, ih, last]

/-- Leading zeros do not count. -/
theorem padded_inj {width m n : Nat} (same : padded width m = padded width n) : m = n := by
  have value : ∀ n, Nat.ofDigitChars 10 (padded width n) 0 = n := by
    intro n
    simp [padded, Nat.ofDigitChars_append, Nat.ofDigitChars_replicate_zero,
      Nat.ofDigitChars_ten_toDigits]
  rw [← value m, ← value n, same]

theorem toDigits_inj {m n : Nat} (same : Nat.toDigits 10 m = Nat.toDigits 10 n) : m = n := by
  rw [← Nat.ofDigitChars_ten_toDigits (n := m), same, Nat.ofDigitChars_ten_toDigits]

/-- A numeral has no other characters than digits. -/
theorem not_mem_toDigits {c : Char} (other : c.isDigit = false) (n : Nat) :
    c ∉ Nat.toDigits 10 n := by
  intro member
  have digit := Nat.isDigit_of_mem_toDigits (by decide) (by decide) member
  rw [other] at digit
  cases digit

/-- A minus sign and a numeral below zero, a numeral otherwise. -/
theorem toList_toString (n : Int) : (toString n).toList =
    if 0 ≤ n then Nat.toDigits 10 n.toNat else '-' :: Nat.toDigits 10 (-n).toNat := by
  rw [Int.toString_eq_repr, Int.repr_eq_if]
  split <;> simp [Nat.repr_eq_ofList_toDigits]

theorem isDigit_of_isForeign {c : Char} (foreign : isForeign c = true) : c.isDigit = false := by
  cases digit : c.isDigit with
  | false => rfl
  | true => simp [isForeign, Char.isAlphanum, digit] at foreign

theorem not_mem_padded {c : Char} (foreign : isForeign c = true) (width n : Nat) :
    c ∉ padded width n := by
  have zero : c ≠ '0' := ne_of_isForeign foreign (by decide)
  simp [padded, not_mem_toDigits (isDigit_of_isForeign foreign), zero]

end Text

/-! ### Amounts -/

namespace Amount

theorem toList_toString (a : Amount) : (toString a).toList =
    if 0 ≤ a.val then Nat.toDigits 10 a.val.toNat else '-' :: Nat.toDigits 10 (-a.val).toNat :=
  Text.toList_toString a.val

theorem toString_inj {a b : Amount} (same : toString a = toString b) : a = b := by
  have chars := congrArg String.toList same
  rw [toList_toString, toList_toString] at chars
  have unsigned : ∀ m n, Nat.toDigits 10 m ≠ '-' :: Nat.toDigits 10 n := by
    intro m n signed
    exact Text.not_mem_toDigits (c := '-') rfl m (signed ▸ List.mem_cons_self)
  by_cases nonneg : 0 ≤ a.val <;> by_cases nonneg' : 0 ≤ b.val
  · rw [if_pos nonneg, if_pos nonneg'] at chars
    have value := Text.toDigits_inj chars
    exact Amount.ext (by omega)
  · rw [if_pos nonneg, if_neg nonneg'] at chars
    exact absurd chars (unsigned _ _)
  · rw [if_neg nonneg, if_pos nonneg'] at chars
    exact absurd chars.symm (unsigned _ _)
  · rw [if_neg nonneg, if_neg nonneg'] at chars
    have value := Text.toDigits_inj (List.cons.inj chars).2
    exact Amount.ext (by omega)

theorem not_mem_toString {c : Char} (foreign : Text.isForeign c = true) (a : Amount) :
    c ∉ (toString a).toList := by
  have sign : c ≠ '-' := Text.ne_of_isForeign foreign (by decide)
  rw [toList_toString]
  split <;> simp [Text.not_mem_toDigits (Text.isDigit_of_isForeign foreign), sign]

end Amount

/-! ### Times -/

/-- A year is four digits, or a sign and a numeral. -/
theorem yearChars_inj {year year' : Int} (same : yearChars year = yearChars year') :
    year = year' := by
  have unsigned : ∀ {n : Nat} {sign : Char} {cs : List Char}, sign = '-' ∨ sign = '+' →
      Text.digits 10 4 n ≠ sign :: cs := by
    intro n sign cs signed begun
    have digit : sign = Text.digitChar (n / 10 / 10 / 10 % 10) :=
      (List.cons.inj begun).1.symm
    have none : ∀ i : Fin 10, Text.digitChar i ≠ '-' ∧ Text.digitChar i ≠ '+' := by decide
    have here := none ⟨n / 10 / 10 / 10 % 10, Nat.mod_lt _ (by decide)⟩
    rcases signed with rfl | rfl
    · exact here.1 digit.symm
    · exact here.2 digit.symm
  unfold yearChars at same
  by_cases plain : 0 ≤ year ∧ year ≤ 9999 <;> by_cases plain' : 0 ≤ year' ∧ year' ≤ 9999
  · rw [if_pos plain, if_pos plain'] at same
    have value := Text.digits_inj (by decide) (by decide) (by omega) (by omega) same
    omega
  · rw [if_pos plain, if_neg plain'] at same
    split at same
    · exact absurd same (unsigned (.inl rfl))
    · exact absurd same (unsigned (.inr rfl))
  · rw [if_neg plain, if_pos plain'] at same
    split at same
    · exact absurd same.symm (unsigned (.inl rfl))
    · exact absurd same.symm (unsigned (.inr rfl))
  · rw [if_neg plain, if_neg plain'] at same
    by_cases before : year < 0 <;> by_cases before' : year' < 0
    · rw [if_pos before, if_pos before'] at same
      have value := Text.padded_inj (List.cons.inj same).2
      omega
    · rw [if_pos before, if_neg before'] at same
      exact absurd (List.cons.inj same).1 (by decide)
    · rw [if_neg before, if_pos before'] at same
      exact absurd (List.cons.inj same).1 (by decide)
    · rw [if_neg before, if_neg before'] at same
      have value := Text.padded_inj (List.cons.inj same).2
      omega

theorem not_mem_yearChars {c : Char} (foreign : Text.isForeign c = true) (year : Int) :
    c ∉ yearChars year := by
  have minus : c ≠ '-' := Text.ne_of_isForeign foreign (by decide)
  have plus : c ≠ '+' := Text.ne_of_isForeign foreign (by decide)
  unfold yearChars
  split
  · exact Text.not_mem_digits foreign (by decide) (by decide) _
  · split <;> simp [Text.not_mem_padded foreign, minus, plus]

theorem twoDigits_inj {m n : Nat} (small : m < 100) (small' : n < 100)
    (same : twoDigits m = twoDigits n) : m = n :=
  Text.digits_inj (by decide) (by decide) small small' same

theorem length_twoDigits (n : Nat) : (twoDigits n).length = 2 := Text.length_digits 10 2 n

theorem not_mem_twoDigits {c : Char} (foreign : Text.isForeign c = true) (n : Nat) :
    c ∉ twoDigits n :=
  Text.not_mem_digits foreign (by decide) (by decide) n

namespace Timestamp

variable {s t : Timestamp}

theorem date_eq_of_dateChars (same : s.dateChars = t.dateChars) : s.date = t.date := by
  have month := s.date.valid.2.1.2
  have month' := t.date.valid.2.1.2
  have small : ∀ d : Date, d.day < 100 := by
    intro d
    have day := d.valid.2.2.2
    have most := daysInMonth_le d.year d.month
    omega
  obtain ⟨years, rest⟩ := List.append_inj' same (by simp [length_twoDigits])
  obtain ⟨months, days⟩ := List.append_inj (List.cons.inj rest).2 (by simp [length_twoDigits])
  have year := yearChars_inj years
  have month := twoDigits_inj (by omega) (by omega) months
  have day := twoDigits_inj (small _) (small _) (List.cons.inj days).2
  cases hs : s.date
  cases ht : t.date
  simp only [hs, ht] at year month day
  subst year month day
  rfl

theorem clock_eq_of_timeChars (same : s.timeChars = t.timeChars) :
    s.hour = t.hour ∧ s.minute = t.minute ∧ s.writtenSecond = t.writtenSecond := by
  obtain ⟨hour, minute, -, -⟩ := s.valid
  obtain ⟨hour', minute', -, -⟩ := t.valid
  have small (u : Timestamp) : u.writtenSecond < 100 := by
    obtain ⟨-, -, second, nano⟩ := u.valid
    unfold writtenSecond
    omega
  obtain ⟨hours, rest⟩ := List.append_inj same (by simp [length_twoDigits])
  obtain ⟨minutes, seconds⟩ := List.append_inj (List.cons.inj rest).2 (by simp [length_twoDigits])
  exact ⟨twoDigits_inj (by omega) (by omega) hours, twoDigits_inj (by omega) (by omega) minutes,
    twoDigits_inj (small s) (small t) (List.cons.inj seconds).2⟩

theorem length_timeChars (t : Timestamp) : t.timeChars.length = 8 := by
  simp [timeChars, length_twoDigits]

theorem shown_eq_of_hashed (same : s.hashed = t.hashed) :
    s.shown.truncate = t.shown.truncate := by
  obtain ⟨dates, rest⟩ := List.append_inj' (String.ofList_injective same)
    (by simp [length_timeChars, Text.length_digits])
  obtain ⟨times, rest⟩ := List.append_inj (List.cons.inj rest).2 (by simp [length_timeChars])
  obtain ⟨micros, -⟩ := List.append_inj (List.cons.inj rest).2 (by simp [Text.length_digits])
  have date := date_eq_of_dateChars dates
  obtain ⟨hour, minute, second⟩ := clock_eq_of_timeChars times
  have small (u : Timestamp) : u.writtenNano / 1000 < 10 ^ 6 := by
    have fraction : u.writtenNano < 1000000000 := Nat.mod_lt _ (by decide)
    omega
  have micro : s.writtenNano / 1000 = t.writtenNano / 1000 :=
    Text.digits_inj (by decide) (by decide) (small s) (small t) micros
  rw [truncate_shown, truncate_shown]
  exact shown_truncate_eq date hour minute second micro

/-- The hashed form shows nothing finer than the microsecond. -/
theorem hashed_of_truncate (same : s.truncate = t.truncate) : s.hashed = t.hashed := by
  rw [← hashed_truncate s, same, hashed_truncate]

/-- The hashed form tells what is shown of a time, down to the microsecond, and nothing else. -/
theorem hashed_eq_iff : s.hashed = t.hashed ↔ s.shown.truncate = t.shown.truncate := by
  refine ⟨shown_eq_of_hashed, fun same => ?_⟩
  rw [← hashed_shown s, hashed_of_truncate same, hashed_shown]

theorem not_mem_hashed {c : Char} (foreign : Text.isForeign c = true) (t : Timestamp) :
    c ∉ t.hashed.toList := by
  have micros : c ∉ Text.digits 10 6 (t.writtenNano / 1000) :=
    Text.not_mem_digits foreign (by decide) (by decide) _
  have marks : c ≠ '-' ∧ c ≠ 'T' ∧ c ≠ ':' ∧ c ≠ '.' ∧ c ≠ 'Z' := by
    refine ⟨?_, ?_, ?_, ?_, ?_⟩ <;> exact Text.ne_of_isForeign foreign (by decide)
  simp [hashed, dateChars, timeChars, not_mem_yearChars foreign, not_mem_twoDigits foreign, micros,
    marks]

end Timestamp

/-! ### Ids -/

namespace Uuid

/-- Lists that agree in a group of places and after it agree from that group on. -/
theorem drop_eq_of_group {cs cs' : List Char} {start count : Nat}
    (group : (cs.drop start).take count = (cs'.drop start).take count)
    (rest : cs.drop (start + count) = cs'.drop (start + count)) :
    cs.drop start = cs'.drop start := by
  rw [← List.take_append_drop count (cs.drop start), List.drop_drop, group, rest,
    ← List.drop_drop, List.take_append_drop]

/-- The text of an id is its digits with hyphens between the groups. -/
theorem digits_eq_of_chars {i j : Uuid} (same : i.chars = j.chars) :
    Text.digits 16 32 i.value = Text.digits 16 32 j.value := by
  have size : ∀ start count (n : Nat),
      (((Text.digits 16 32 n).drop start).take count).length = min count (32 - start) := by
    simp [Text.length_digits]
  obtain ⟨first, rest⟩ := List.append_inj same (by simp [Text.length_digits])
  obtain ⟨second, rest⟩ := List.append_inj (List.cons.inj rest).2 (by simp only [size])
  obtain ⟨third, rest⟩ := List.append_inj (List.cons.inj rest).2 (by simp only [size])
  obtain ⟨fourth, rest⟩ := List.append_inj (List.cons.inj rest).2 (by simp only [size])
  have fifth := (List.cons.inj rest).2
  have groups := drop_eq_of_group second (drop_eq_of_group third (drop_eq_of_group fourth fifth))
  rw [← List.take_append_drop 8 (Text.digits 16 32 i.value), first, groups,
    List.take_append_drop]

theorem text_inj {i j : Uuid} (same : i.text = j.text) : i = j := by
  have digits := digits_eq_of_chars (String.ofList_injective same)
  have value := Text.digits_inj (by decide) (by decide) (by simpa using i.lt) (by simpa using j.lt)
    digits
  cases i
  cases j
  simp only at value
  subst value
  rfl

theorem not_mem_text {c : Char} (foreign : Text.isForeign c = true) (i : Uuid) :
    c ∉ i.text.toList := by
  have digits : c ∉ Text.digits 16 32 i.value :=
    Text.not_mem_digits foreign (by decide) (by decide) _
  have taken : ∀ start count, c ∉ ((Text.digits 16 32 i.value).drop start).take count :=
    fun start count member => digits (List.mem_of_mem_drop (List.mem_of_mem_take member))
  have last : c ∉ (Text.digits 16 32 i.value).drop 20 := fun member =>
    digits (List.mem_of_mem_drop member)
  have first := taken 0 8
  rw [List.drop_zero] at first
  have hyphen : c ≠ '-' := Text.ne_of_isForeign foreign (by decide)
  simp [text, chars, first, taken, last, hyphen]

end Uuid

/-! ### Fields between bars -/

/-- A text is cut in one way at the first mark. -/
theorem append_cons_inj_of_unmarked {α : Type} {mark : α} {first first' rest rest' : List α}
    (unmarked : mark ∉ first) (unmarked' : mark ∉ first')
    (same : first ++ mark :: rest = first' ++ mark :: rest') : first = first' ∧ rest = rest' := by
  induction first generalizing first' with
  | nil =>
    cases first' with
    | nil => exact ⟨rfl, (List.cons.inj same).2⟩
    | cons c cs =>
      rw [(List.cons.inj same).1] at unmarked'
      exact absurd List.mem_cons_self unmarked'
  | cons c cs ih =>
    cases first' with
    | nil =>
      rw [← (List.cons.inj same).1] at unmarked
      exact absurd List.mem_cons_self unmarked
    | cons c' cs' =>
      obtain ⟨rfl, after⟩ := List.cons.inj same
      rw [List.mem_cons, not_or] at unmarked unmarked'
      obtain ⟨rfl, rests⟩ := ih unmarked.2 unmarked'.2 after
      exact ⟨rfl, rests⟩

/-- A text is cut in one way at the last mark. -/
theorem append_cons_inj_of_unmarked' {α : Type} {mark : α} {last last' rest rest' : List α}
    (unmarked : mark ∉ last) (unmarked' : mark ∉ last')
    (same : rest ++ mark :: last = rest' ++ mark :: last') : rest = rest' ∧ last = last' := by
  have reversed : last.reverse ++ mark :: rest.reverse =
      last'.reverse ++ mark :: rest'.reverse := by
    simpa using congrArg List.reverse same
  obtain ⟨lasts, rests⟩ :=
    append_cons_inj_of_unmarked (by simpa using unmarked) (by simpa using unmarked') reversed
  exact ⟨List.reverse_inj.mp rests, List.reverse_inj.mp lasts⟩

section Joining

variable {α : Type} {mark : α}

theorem intercalate_concat {pieces : List (List α)} (nonempty : pieces ≠ []) (last : List α) :
    [mark].intercalate (pieces ++ [last]) = [mark].intercalate pieces ++ mark :: last := by
  induction pieces with
  | nil => exact absurd rfl nonempty
  | cons piece pieces ih =>
    cases pieces with
    | nil => simp [List.intercalate_cons_of_ne_nil]
    | cons next rest =>
      rw [List.cons_append, List.intercalate_cons_of_ne_nil (by simp), ih (List.cons_ne_nil _ _),
        List.intercalate_cons_of_ne_nil (List.cons_ne_nil next rest)]
      simp

/-- With no mark in the pieces after it, the first piece ends at the mark that leaves just their
number. -/
theorem intercalate_cons_inj {free free' : List α} {back back' : List (List α)}
    (unmarked : ∀ piece ∈ back, mark ∉ piece) (unmarked' : ∀ piece ∈ back', mark ∉ piece)
    (lengths : back.length = back'.length)
    (same : [mark].intercalate (free :: back) = [mark].intercalate (free' :: back')) :
    free = free' ∧ back = back' := by
  induction back using List.reverseRecOn generalizing back' with
  | nil =>
    obtain rfl := List.length_eq_zero_iff.mp lengths.symm
    simp only [List.intercalate_singleton] at same
    exact ⟨same, rfl⟩
  | append_singleton back last ih =>
    rcases List.eq_nil_or_concat back' with rfl | ⟨back', last', rfl⟩
    · simp at lengths
    rw [List.concat_eq_append] at unmarked' lengths same ⊢
    rw [← List.cons_append, ← List.cons_append, intercalate_concat (List.cons_ne_nil _ _),
      intercalate_concat (List.cons_ne_nil _ _)] at same
    obtain ⟨before, lasts⟩ := append_cons_inj_of_unmarked' (unmarked last (by simp))
      (unmarked' last' (by simp)) same
    obtain ⟨frees, backs⟩ := ih (fun piece member => unmarked piece (by simp [member]))
      (fun piece member => unmarked' piece (by simp [member])) (by simpa using lengths) before
    exact ⟨frees, by rw [backs, lasts]⟩

/-- Pieces with marks between them are told apart by their places, if at most one place may hold
marks of its own. -/
theorem intercalate_inj {front front' back back' : List (List α)} {free free' : List α}
    (unmarked : ∀ piece ∈ front ++ back, mark ∉ piece)
    (unmarked' : ∀ piece ∈ front' ++ back', mark ∉ piece)
    (fronts : front.length = front'.length) (backs : back.length = back'.length)
    (same : [mark].intercalate (front ++ free :: back) =
      [mark].intercalate (front' ++ free' :: back')) :
    front = front' ∧ free = free' ∧ back = back' := by
  induction front generalizing front' with
  | nil =>
    obtain rfl := List.length_eq_zero_iff.mp fronts.symm
    exact ⟨rfl, intercalate_cons_inj unmarked unmarked' backs same⟩
  | cons first front ih =>
    cases front' with
    | nil => simp at fronts
    | cons first' front' =>
      simp only [List.cons_append, List.forall_mem_cons] at unmarked unmarked'
      rw [List.cons_append, List.cons_append, List.intercalate_cons_of_ne_nil (by simp),
        List.intercalate_cons_of_ne_nil (by simp), List.append_assoc, List.append_assoc] at same
      obtain ⟨rfl, after⟩ := append_cons_inj_of_unmarked unmarked.1 unmarked'.1 same
      obtain ⟨rfl, others⟩ :=
        ih unmarked.2 unmarked'.2 (Nat.succ.inj fronts) after
      exact ⟨rfl, others⟩

end Joining

/-! ### Entries -/

namespace Entry

/-- No text of the entry holds a bar, apart from its description. -/
structure Unbarred (e : Entry) : Prop where
  organizationId : '|' ∉ e.organizationId.toList
  userId : '|' ∉ e.userId.toList
  referenceId : '|' ∉ e.referenceId.toList
  transactionId : '|' ∉ e.transactionId.toList
  previousHash : '|' ∉ e.previousHash.toList

/-- The entries agree on all hashed fields, on the time down to the microsecond. -/
structure HashedAlike (e e' : Entry) : Prop where
  amount : e.amount = e'.amount
  createdAt : e.createdAt.truncate = e'.createdAt.truncate
  description : e.description = e'.description
  id : e.id = e'.id
  organizationId : e.organizationId = e'.organizationId
  previousHash : e.previousHash = e'.previousHash
  referenceId : e.referenceId = e'.referenceId
  transactionId : e.transactionId = e'.transactionId
  kind : e.kind = e'.kind
  userId : e.userId = e'.userId

theorem encoding_shown (e : Entry) : e.shown.encoding = e.encoding := by
  simp only [encoding, hashedFields, shown, Timestamp.hashed_shown]

/-- A hashed field as it is written. -/
def written (field : String × String) : List Char := (field.1 ++ "=" ++ field.2).toList

theorem bar_not_mem_written {name value : String} (plain : '|' ∉ name.toList)
    (unbarred : '|' ∉ value.toList) : '|' ∉ written (name, value) := by
  simp [written, plain, unbarred]

theorem written_inj {name value value' : String}
    (same : written (name, value) = written (name, value')) : value = value' := by
  unfold written at same
  exact (String.append_right_inj _).mp (String.toList_injective same)

/-- The pieces of the encoding before the description. -/
def leading (e : Entry) : List (List Char) := (e.hashedFields.take 2).map written

/-- The pieces of the encoding after the description. -/
def trailing (e : Entry) : List (List Char) := (e.hashedFields.drop 3).map written

theorem toList_encoding (e : Entry) : e.encoding.toList =
    ['|'].intercalate (e.leading ++ written ("description", e.description) :: e.trailing) := by
  rw [encoding, String.toList_intercalate, List.map_map]
  rfl

theorem bar_not_mem_name (kind : EntryKind) : '|' ∉ kind.name.toList := by
  cases kind <;> decide

theorem name_inj {kind kind' : EntryKind} (same : kind.name = kind'.name) : kind = kind' := by
  cases kind <;> cases kind' <;> first | rfl | exact absurd same (by decide)

/-- Only the description can bring bars of its own into the encoding. -/
theorem Unbarred.pieces {e : Entry} (unbarred : e.Unbarred) :
    ∀ piece ∈ e.leading ++ e.trailing, '|' ∉ piece := by
  obtain ⟨organizationId, userId, referenceId, transactionId, previousHash⟩ := unbarred
  intro piece member
  simp only [leading, trailing, hashedFields, List.take_succ_cons, List.take_zero,
    List.drop_succ_cons, List.drop_zero, List.map_cons, List.map_nil, List.cons_append,
    List.nil_append, List.mem_cons, List.not_mem_nil, or_false] at member
  rcases member with own | own | own | own | own | own | own | own | own <;> rw [own]
  · exact bar_not_mem_written (by decide) (e.amount.not_mem_toString (by decide))
  · exact bar_not_mem_written (by decide) (e.createdAt.not_mem_hashed (by decide))
  · exact bar_not_mem_written (by decide) (e.id.uuid.not_mem_text (by decide))
  · exact bar_not_mem_written (by decide) organizationId
  · exact bar_not_mem_written (by decide) previousHash
  · exact bar_not_mem_written (by decide) referenceId
  · exact bar_not_mem_written (by decide) transactionId
  · exact bar_not_mem_written (by decide) (bar_not_mem_name e.kind)
  · exact bar_not_mem_written (by decide) userId

/-- The encoding tells entries apart by all hashed fields, whatever their descriptions are. -/
theorem alike_of_encoding {e e' : Entry} (unbarred : e.Unbarred) (unbarred' : e'.Unbarred)
    (same : e.encoding = e'.encoding) : e.shown.HashedAlike e'.shown := by
  have pieces := congrArg String.toList same
  rw [toList_encoding, toList_encoding] at pieces
  obtain ⟨leads, descriptions, trails⟩ :=
    intercalate_inj unbarred.pieces unbarred'.pieces (by simp [leading, hashedFields])
      (by simp [trailing, hashedFields]) pieces
  simp only [leading, hashedFields, List.take_succ_cons, List.take_zero, List.map_cons,
    List.map_nil, List.cons.injEq, and_true] at leads
  simp only [trailing, hashedFields, List.drop_succ_cons, List.drop_zero, List.map_cons,
    List.map_nil, List.cons.injEq, and_true] at trails
  obtain ⟨amounts, times⟩ := leads
  obtain ⟨ids, organizations, previous, references, transactions, kinds, users⟩ := trails
  exact {
    amount := Amount.toString_inj (written_inj amounts)
    createdAt := Timestamp.hashed_eq_iff.mp (written_inj times)
    description := written_inj descriptions
    id := congrArg EntryId.mk (Uuid.text_inj (written_inj ids))
    organizationId := written_inj organizations
    previousHash := written_inj previous
    referenceId := written_inj references
    transactionId := written_inj transactions
    kind := name_inj (written_inj kinds)
    userId := written_inj users }

theorem HashedAlike.encoding {e e' : Entry} (alike : e.HashedAlike e') :
    e.encoding = e'.encoding := by
  have fields : e.hashedFields = e'.hashedFields := by
    simp only [hashedFields, alike.amount, Timestamp.hashed_of_truncate alike.createdAt,
      alike.description, alike.id, alike.organizationId, alike.previousHash, alike.referenceId,
      alike.transactionId, alike.kind, alike.userId]
  rw [Entry.encoding, Entry.encoding, fields]

theorem encoding_of_shown {e e' : Entry} (alike : e.shown.HashedAlike e'.shown) :
    e.encoding = e'.encoding := by
  rw [← encoding_shown e, alike.encoding, encoding_shown]

/-- Entries with no bar outside their descriptions have one encoding exactly when they agree on all
ten hashed fields, on what is shown of the time down to the microsecond. The descriptions may hold
anything, even text that looks like other fields. Where leap seconds stand at the end of a minute
only, the times themselves agree. -/
theorem encoding_eq_iff_alike {e e' : Entry} (unbarred : e.Unbarred) (unbarred' : e'.Unbarred) :
    (e.encoding = e'.encoding ↔ e.shown.HashedAlike e'.shown) ∧
    (e.createdAt.Legible → e'.createdAt.Legible →
      (e.encoding = e'.encoding ↔ e.HashedAlike e')) := by
  have shows : e.encoding = e'.encoding ↔ e.shown.HashedAlike e'.shown :=
    ⟨alike_of_encoding unbarred unbarred', encoding_of_shown⟩
  refine ⟨shows, fun legible legible' => ?_⟩
  rw [shows, shown_eq_self_iff.mpr legible, shown_eq_self_iff.mpr legible']

theorem encoding_eq_iff_alike_leap_second :
    let time (nano : Nat) (small : nano < 2000000000) : Timestamp :=
      ⟨⟨-1, 12, 31, by decide⟩, 23, 59, 59, nano, ⟨by decide, by decide, by decide, small⟩⟩
    let e : Entry := {
      id := ⟨Uuid.ofNat 1⟩, organizationId := "acme", userId := "ann", kind := .debit
      amount := ⟨-0x8000000000000000, by decide⟩, transactionId := "", referenceId := "first"
      description := "a|id=b|type=CREDIT|user_id=bob", metadata := default
      previousHash := genesisHash, hash := "", createdAt := time 1999999999 (by decide) }
    let e' : Entry := { e with hash := "other", createdAt := time 1999999000 (by decide) }
    e ≠ e' ∧ e.Unbarred ∧ e'.Unbarred ∧ e.createdAt.Legible ∧ e'.createdAt.Legible ∧
      e.HashedAlike e' ∧ (e.encoding = e'.encoding ↔ e.shown.HashedAlike e'.shown) ∧
      (e.encoding = e'.encoding ↔ e.HashedAlike e') := by
  intro time e e'
  have unbarred : e.Unbarred := by constructor <;> decide
  have unbarred' : e'.Unbarred := ⟨unbarred.organizationId, unbarred.userId,
    unbarred.referenceId, unbarred.transactionId, unbarred.previousHash⟩
  have legible : e.createdAt.Legible := by decide
  have legible' : e'.createdAt.Legible := by decide
  have alike : e.HashedAlike e' := ⟨rfl, by decide, rfl, rfl, rfl, rfl, rfl, rfl, rfl, rfl⟩
  have different : e ≠ e' := fun same => absurd (congrArg Entry.hash same) (by decide)
  obtain ⟨shows, tells⟩ := encoding_eq_iff_alike unbarred unbarred'
  exact ⟨different, unbarred, unbarred', legible, legible', alike, shows, tells legible legible'⟩

/-- A leap second that follows noon and 30 seconds has the encoding of the ordinary second after. -/
theorem encoding_eq_hidden_leap_second :
    let e : Entry := {
      id := ⟨Uuid.ofNat 1⟩, organizationId := "acme", userId := "ann", kind := .credit
      amount := ⟨10, by decide⟩, transactionId := "20250101-00000A", referenceId := "first"
      description := "", metadata := default, previousHash := genesisHash, hash := ""
      createdAt := ⟨⟨2025, 1, 1, by decide⟩, 12, 0, 30, 1500000000, by decide⟩ }
    let e' : Entry := { e with
      createdAt := ⟨⟨2025, 1, 1, by decide⟩, 12, 0, 31, 500000000, by decide⟩ }
    e.Unbarred ∧ e'.Unbarred ∧ e.encoding = e'.encoding ∧ ¬ e.HashedAlike e' := by
  intro e e'
  have unbarred : e.Unbarred := by constructor <;> decide
  have time : e.createdAt.shown = e'.createdAt := by decide
  have shown : e.shown = e' := by rw [Entry.shown, time]
  refine ⟨unbarred, ⟨unbarred.organizationId, unbarred.userId, unbarred.referenceId,
    unbarred.transactionId, unbarred.previousHash⟩, ?_, fun alike => ?_⟩
  · rw [← shown, encoding_shown]
  · exact absurd alike.createdAt (by decide)

end Entry

/-! ### Sealed entries -/

/-- The hash is not among the fields that are hashed. -/
theorem Entry.computeHash_rehash (e : Entry) : e.rehash.computeHash = e.computeHash := by
  have same : e.rehash.hashedFields = e.hashedFields := by
    simp only [hashedFields, rehash]
  simp only [computeHash, encoding, same]

theorem Entry.hash_rehash (e : Entry) : e.rehash.hash = e.computeHash := by
  rw [rehash]

/-- A sealed entry carries the hash that belongs to its fields. -/
theorem Draft.computeHash_sealed (d : Draft) : d.sealed.computeHash = d.sealed.hash := by
  obtain ⟨e, finished⟩ : ∃ e : Entry, d.sealed = e.rehash := ⟨_, rfl⟩
  rw [finished, Entry.computeHash_rehash, Entry.hash_rehash]

end PointLedger
