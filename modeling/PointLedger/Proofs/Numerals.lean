import PointLedger.Json.Printer
import PointLedger.Json.Reader
import PointLedger.Proofs.Encoding
import PointLedger.Proofs.Outcome
import PointLedger.Proofs.ReadBack

/-!
Numbers in JSON text. A number ends before what can follow a value: a comma, a closing bracket or
brace, or nothing. An integer of 64 bits is read back from its text.
-/

namespace PointLedger

namespace Json

variable {strict : Bool} {cs rest after : List Char}

/-- What can follow a value in a text. -/
def Follows : List Char → Prop
  | [] => True
  | c :: _ => c = ',' ∨ c = ']' ∨ c = '}'

theorem follows_comma : Follows (',' :: rest) := .inl rfl
theorem follows_bracket : Follows (']' :: rest) := .inr (.inl rfl)
theorem follows_brace : Follows ('}' :: rest) := .inr (.inr rfl)

/-- A reader takes no part of what follows a value. -/
def Stops {α : Type} (read : Reader α) : Prop :=
  ∀ {cs value rest after}, Follows after → read cs = .ok (value, rest) →
    read (cs ++ after) = .ok (value, rest ++ after)

/-- A mark that cannot follow a value comes first only if it came first before. -/
theorem head?_append_ne (follows : Follows after) {c : Char} (plain : ¬ Follows [c])
    (other : cs.head? ≠ some c) : (cs ++ after).head? ≠ some c := by
  cases cs with
  | cons d cs => exact other
  | nil =>
    intro same
    obtain ⟨after, rfl⟩ := List.head?_eq_some_iff.mp same
    exact plain follows

/-! ### The parts of a number -/

theorem spanDigits_append (follows : Follows after) :
    spanDigits (cs ++ after) = ((spanDigits cs).1, (spanDigits cs).2 ++ after) := by
  induction cs with
  | nil =>
    cases after with
    | nil => rfl
    | cons c after =>
      rcases follows with rfl | rfl | rfl
      all_goals rfl
  | cons c cs ih =>
    obtain ⟨taken, left⟩ := Prod.mk.inj ih
    cases digit : (Text.digit? c).isSome with
    | false => simp [spanDigits, digit]
    | true =>
      simp only [spanDigits, List.cons_append, digit, List.takeWhile_cons_of_pos,
        List.dropWhile_cons_of_pos] at taken left ⊢
      rw [taken, left]

/-- Whole digits are a zero alone, or do not start with zero. -/
theorem wholeDigits_eq_ok_iff {ds : List Char} :
    wholeDigits cs = .ok (ds, rest) ↔
      spanDigits cs = (ds, rest) ∧ ds ≠ [] ∧ (ds.head? = some '0' → ds = ['0']) := by
  unfold wholeDigits
  generalize spanDigits cs = span
  split
  · exact ⟨nofun, fun ⟨same, nonempty, _⟩ => absurd (Prod.mk.inj same).1.symm nonempty⟩
  · refine ⟨nofun, fun ⟨same, _, alone⟩ => ?_⟩
    cases same
    exact absurd (alone rfl) (by simp)
  · rename_i nonempty short
    constructor
    · intro taken
      cases taken
      refine ⟨rfl, nonempty, fun zero => ?_⟩
      obtain ⟨more, rfl⟩ := List.head?_eq_some_iff.mp zero
      cases more with
      | nil => rfl
      | cons c more => exact (short c more rfl).elim
    · rintro ⟨same, -⟩
      cases same
      rfl

theorem stops_wholeDigits : Stops wholeDigits := by
  intro cs value rest after follows taken
  rw [wholeDigits_eq_ok_iff] at taken ⊢
  rw [spanDigits_append follows, taken.1]
  exact ⟨rfl, taken.2⟩

theorem fractionDigits_cons {ds : List Char} :
    fractionDigits ('.' :: cs) = .ok (ds, rest) ↔ spanDigits cs = (ds, rest) ∧ ds ≠ [] := by
  rw [fractionDigits]
  generalize spanDigits cs = span
  split
  · exact ⟨nofun, fun ⟨same, nonempty⟩ => absurd (Prod.mk.inj same).1.symm nonempty⟩
  · rename_i nonempty
    constructor
    · intro taken
      cases taken
      exact ⟨rfl, nonempty⟩
    · rintro ⟨same, -⟩
      cases same
      rfl

theorem fractionDigits_of_ne (none : cs.head? ≠ some '.') : fractionDigits cs = .ok ([], cs) := by
  unfold fractionDigits
  split
  · exact absurd rfl none
  · rfl

theorem stops_fractionDigits : Stops fractionDigits := by
  intro cs value rest after follows taken
  by_cases point : cs.head? = some '.'
  · obtain ⟨cs, rfl⟩ := List.head?_eq_some_iff.mp point
    rw [List.cons_append]
    rw [fractionDigits_cons] at taken ⊢
    rw [spanDigits_append follows, taken.1]
    exact ⟨rfl, taken.2⟩
  · rw [fractionDigits_of_ne point] at taken
    cases taken
    exact fractionDigits_of_ne (head?_append_ne follows (by simp [Follows]) point)

theorem minusSign_of_ne (plain : cs.head? ≠ some '-') : minusSign cs = (false, cs) := by
  unfold minusSign
  split
  · exact absurd rfl plain
  · rfl

theorem minusSign_append (follows : Follows after) :
    minusSign (cs ++ after) = ((minusSign cs).1, (minusSign cs).2 ++ after) := by
  by_cases minus : cs.head? = some '-'
  · obtain ⟨cs, rfl⟩ := List.head?_eq_some_iff.mp minus
    rfl
  · rw [minusSign_of_ne minus,
      minusSign_of_ne (head?_append_ne follows (by simp [Follows]) minus)]

theorem exponentSign_of_ne (plain : cs.head? ≠ some '+') : exponentSign cs = minusSign cs := by
  unfold exponentSign
  split
  · exact absurd rfl plain
  · rfl

theorem exponentSign_append (follows : Follows after) :
    exponentSign (cs ++ after) = ((exponentSign cs).1, (exponentSign cs).2 ++ after) := by
  by_cases plus : cs.head? = some '+'
  · obtain ⟨cs, rfl⟩ := List.head?_eq_some_iff.mp plus
    rfl
  · rw [exponentSign_of_ne plus,
      exponentSign_of_ne (head?_append_ne follows (by simp [Follows]) plus),
      minusSign_append follows]

theorem stops_exponent : Stops exponent := by
  intro cs value rest after follows taken
  cases cs with
  | nil =>
    cases taken
    cases after with
    | nil => rfl
    | cons c after =>
      rcases follows with rfl | rfl | rfl
      all_goals rfl
  | cons c cs =>
    by_cases mark : c = 'e' ∨ c = 'E'
    · simp only [exponent, List.cons_append, if_pos mark] at taken ⊢
      rw [exponentSign_append follows]
      generalize exponentSign cs = sign at taken ⊢
      simp only [spanDigits_append follows]
      generalize spanDigits sign.2 = span at taken ⊢
      obtain ⟨_ | ⟨d, ds⟩, tail⟩ := span
      · cases taken
      · cases taken
        rfl
    · simp only [exponent, List.cons_append, if_neg mark] at taken ⊢
      cases taken
      rfl

theorem stops_numeral : Stops (numeral strict) := by
  intro cs value rest after follows taken
  unfold numeral at taken ⊢
  rw [minusSign_append follows]
  generalize minusSign cs = sign at taken ⊢
  obtain ⟨⟨whole, cs₁⟩, first, taken⟩ := eq_ok_of_bind taken
  obtain ⟨⟨fraction, cs₂⟩, second, taken⟩ := eq_ok_of_bind taken
  obtain ⟨⟨power, cs₃⟩, third, taken⟩ := eq_ok_of_bind taken
  obtain ⟨number, made, taken⟩ := eq_ok_of_bind taken
  cases taken
  simp only [stops_wholeDigits follows first, stops_fractionDigits follows second,
    stops_exponent follows third, made, ok_bind]

/-! ### Integers -/

/-- A numeral starts with a zero only when it writes zero. -/
theorem toDigits_of_head?_eq_zero (n : Nat) (zero : (Nat.toDigits 10 n).head? = some '0') :
    Nat.toDigits 10 n = ['0'] := by
  induction n using Nat.strongRecOn with
  | ind n ih =>
    by_cases short : n < 10
    · rw [Nat.toDigits_of_lt_base short] at zero ⊢
      exact congrArg (· :: []) (Option.some.inj zero)
    · have long : 10 ≤ n := Nat.le_of_not_lt short
      rw [Nat.toDigits_of_base_le (by decide) long,
        List.head?_append_of_ne_nil _ Nat.toDigits_ne_nil] at zero
      have front := ih (n / 10) (by omega) zero
      have none : n / 10 = 0 := Text.toDigits_inj (front.trans (Nat.toDigits_zero 10).symm)
      omega

theorem wholeDigits_toDigits (n : Nat) :
    wholeDigits (Nat.toDigits 10 n) = .ok (Nat.toDigits 10 n, []) := by
  have digits : ∀ c ∈ Nat.toDigits 10 n, (Text.digit? c).isSome = true := fun c member => by
    rw [Text.digit?_of_isDigit (Nat.isDigit_of_mem_toDigits (by decide) (by decide) member)]
    rfl
  refine wholeDigits_eq_ok_iff.mpr ⟨?_, Nat.toDigits_ne_nil, toDigits_of_head?_eq_zero n⟩
  exact Prod.ext (List.takeWhile_eq_self_iff.mpr digits) (List.dropWhile_eq_nil_iff.mpr digits)

theorem natOfDigits_toDigits (n : Nat) : natOfDigits (Nat.toDigits 10 n) = n := by
  obtain ⟨ds, spells, value⟩ := Text.spells_padded 0 n
  have plain : Text.padded 0 n = Nat.toDigits 10 n := by simp [Text.padded]
  have read {cs : List Char} {ds : List Nat} (spells : Text.Spells Text.digit? cs ds) :
      cs.filterMap Text.digit? = ds := by
    induction spells with
    | nil => rfl
    | cons first _ ih => rw [List.filterMap_cons_some first, ih]
  rw [natOfDigits, ← plain, read spells, value]

/-- The integers of a JSON value: those that fit in 64 bits, with or without a sign. -/
def InRange (n : Int) : Prop := -0x8000000000000000 ≤ n ∧ n < 0x10000000000000000

theorem numberOf_whole (negative : Bool) {whole : List Char}
    (exact : if negative then 0 < natOfDigits whole ∧ natOfDigits whole ≤ 0x8000000000000000
      else natOfDigits whole < UInt64.size) :
    numberOf strict negative whole [] none =
      .ok (.integer (if negative then -(natOfDigits whole : Int) else natOfDigits whole)) := by
  unfold numberOf
  exact if_pos ⟨rfl, rfl, exact⟩

/-- An integer is read back from its text. -/
theorem numeral_integer {n : Int} (inRange : InRange n) :
    numeral strict (Number.integer n).chars = .ok (.integer n, []) := by
  obtain ⟨low, high⟩ := inRange
  have noFraction : fractionDigits [] = .ok ([], []) := rfl
  have noExponent : exponent [] = .ok (none, []) := rfl
  rw [Number.chars, Text.toList_toString]
  split
  · rename_i nonneg
    have plain : (Nat.toDigits 10 n.toNat).head? ≠ some '-' := fun minus =>
      Text.not_mem_toDigits (c := '-') rfl _ (List.mem_of_head? minus)
    have small : natOfDigits (Nat.toDigits 10 n.toNat) < UInt64.size := by
      rw [natOfDigits_toDigits]
      show n.toNat < 0x10000000000000000
      omega
    have made : numberOf strict false (Nat.toDigits 10 n.toNat) [] none = .ok (.integer n) := by
      rw [numberOf_whole false small, natOfDigits_toDigits, if_neg (by decide),
        Int.toNat_of_nonneg nonneg]
    rw [numeral, minusSign_of_ne plain]
    simp only [wholeDigits_toDigits, noFraction, noExponent, ok_bind, made]
  · rename_i negative
    have minus : minusSign ('-' :: Nat.toDigits 10 (-n).toNat) =
        (true, Nat.toDigits 10 (-n).toNat) := rfl
    have small : 0 < natOfDigits (Nat.toDigits 10 (-n).toNat) ∧
        natOfDigits (Nat.toDigits 10 (-n).toNat) ≤ 0x8000000000000000 := by
      rw [natOfDigits_toDigits]
      omega
    have made : numberOf strict true (Nat.toDigits 10 (-n).toNat) [] none = .ok (.integer n) := by
      have value : -((-n).toNat : Int) = n := by omega
      rw [numberOf_whole true small, natOfDigits_toDigits, if_pos rfl, value]
    rw [numeral, minus]
    simp only [wholeDigits_toDigits, noFraction, noExponent, ok_bind, made]

/-- A number starts with a minus sign or with a digit. -/
theorem head_of_numeral {n : Number} (taken : numeral strict cs = .ok (n, rest)) :
    ∃ c tail, cs = c :: tail ∧ (c = '-' ∨ (Text.digit? c).isSome = true) := by
  cases cs with
  | nil => cases taken
  | cons c tail =>
    refine ⟨c, tail, rfl, ?_⟩
    by_cases minus : (c :: tail).head? = some '-'
    · exact .inl (Option.some.inj minus)
    · rw [numeral, minusSign_of_ne minus] at taken
      obtain ⟨⟨whole, cs₁⟩, first, -⟩ := eq_ok_of_bind taken
      obtain ⟨span, nonempty, -⟩ := wholeDigits_eq_ok_iff.mp first
      cases digit : (Text.digit? c).isSome with
      | true => exact .inr rfl
      | false =>
        refine absurd (Prod.mk.inj span).1.symm ?_
        simpa [digit] using nonempty

end Json

end PointLedger
