import PointLedger.Text.Chars
import PointLedger.Json.Basic
/-!
Reading JSON text. Each reader takes the characters from its value on and returns the value with
the characters after it. A reader fails in one of two ways: the text is not JSON, or it is JSON of
another shape than the reader wants. Which of the two wins is the one met first from the left.
-/

namespace PointLedger.Json

/-- Why a text was refused. -/
inductive Fault where
  /-- The text is not JSON. -/
  | malformed
  /-- The text is JSON so far, but of the wrong shape. -/
  | mistyped
  deriving DecidableEq, Repr, Inhabited

/-- A reader of one value at the head of a text. -/
abbrev Reader (α : Type) := List Char → Except Fault (α × List Char)

/-- Blanks between tokens: space, tab, line feed and carriage return. -/
def skipBlanks : List Char → List Char :=
  List.dropWhile fun c => c == ' ' || c == '\n' || c == '\t' || c == '\r'

/-- Passes over one expected character after blanks. -/
def expect (wanted : Char) (cs : List Char) : Except Fault (List Char) :=
  match skipBlanks cs with
  | c :: rest => if c = wanted then .ok rest else .error .malformed
  | [] => .error .malformed

/-- Passes over a literal word. -/
def word : List Char → List Char → Except Fault (List Char)
  | [], cs => .ok cs
  | _ :: _, [] => .error .malformed
  | w :: ws, c :: cs => if w = c then word ws cs else .error .malformed

/-! ### Strings -/

/-- Four hexadecimal digits. -/
def unit : Reader Nat
  | a :: b :: c :: d :: rest =>
    match Text.hexDigit? a, Text.hexDigit? b, Text.hexDigit? c, Text.hexDigit? d with
    | some a, some b, some c, some d => .ok (Text.ofDigits 16 [a, b, c, d], rest)
    | _, _, _, _ => .error .malformed
  | _ => .error .malformed

/-- A code point after `\u`: one unit, or two that form a surrogate pair. A surrogate that stands
alone is refused, or passed over as U+FFFD where the text is not kept. -/
def codePoint (strict : Bool) : Reader Char := fun cs => do
  let (high, rest) ← unit cs
  if 0xD800 ≤ high ∧ high ≤ 0xDBFF then
    match rest with
    | '\\' :: 'u' :: rest' => do
      let (low, rest'') ← unit rest'
      if 0xDC00 ≤ low ∧ low ≤ 0xDFFF then
        .ok (Char.ofNat (0x10000 + (high - 0xD800) * 0x400 + (low - 0xDC00)), rest'')
      else if strict then .error .malformed
      else .ok (Char.ofNat 0xFFFD, rest)
    | _ => if strict then .error .malformed else .ok (Char.ofNat 0xFFFD, rest)
  else if 0xDC00 ≤ high ∧ high ≤ 0xDFFF then
    if strict then .error .malformed else .ok (Char.ofNat 0xFFFD, rest)
  else .ok (Char.ofNat high, rest)

/-- The character that a one-letter escape stands for. -/
def shortEscape? (c : Char) : Option Char :=
  if c = '"' then some '"'
  else if c = '\\' then some '\\'
  else if c = '/' then some '/'
  else if c = 'b' then some (Char.ofNat 8)
  else if c = 'f' then some (Char.ofNat 12)
  else if c = 'n' then some '\n'
  else if c = 'r' then some '\r'
  else if c = 't' then some '\t'
  else none

/-- The rest of a string after its opening quote; `read` holds the characters so far, last
first. -/
def stringTail (strict : Bool) : Nat → List Char → Reader String
  | 0, _, _ => .error .malformed
  | _, _, [] => .error .malformed
  | fuel + 1, read, c :: rest =>
    if c = '"' then .ok (String.ofList read.reverse, rest)
    else if c = '\\' then
      match rest with
      | [] => .error .malformed
      | e :: rest =>
        if e = 'u' then do
          let (c, rest) ← codePoint strict rest
          stringTail strict fuel (c :: read) rest
        else
          match shortEscape? e with
          | some c => stringTail strict fuel (c :: read) rest
          | none => .error .malformed
    else if c.toNat < 0x20 then .error .malformed
    else stringTail strict fuel (c :: read) rest

/-- The rest of a string after its opening quote. -/
def stringBody (strict : Bool) : Reader String := fun cs =>
  stringTail strict (cs.length + 1) [] cs

/-! ### Numbers -/

/-- The characters at the head of a text that are decimal digits, and what follows. -/
def spanDigits (cs : List Char) : List Char × List Char :=
  (cs.takeWhile fun c => (Text.digit? c).isSome, cs.dropWhile fun c => (Text.digit? c).isSome)

/-- The digits before a fraction: a zero alone, or digits that do not start with zero. -/
def wholeDigits : Reader (List Char) := fun cs =>
  match spanDigits cs with
  | ([], _) => .error .malformed
  | ('0' :: _ :: _, _) => .error .malformed
  | (ds, rest) => .ok (ds, rest)

/-- An optional fraction; empty when there is none. -/
def fractionDigits : Reader (List Char)
  | '.' :: rest =>
    match spanDigits rest with
    | ([], _) => .error .malformed
    | (ds, rest) => .ok (ds, rest)
  | cs => .ok ([], cs)

/-- Passes over a minus sign that may stand, and says whether it does. -/
def minusSign : List Char → Bool × List Char
  | '-' :: rest => (true, rest)
  | cs => (false, cs)

/-- The same for an exponent, where a plus sign may stand instead. -/
def exponentSign : List Char → Bool × List Char
  | '+' :: rest => (false, rest)
  | cs => minusSign cs

/-- An optional exponent with its sign; `none` when there is none. -/
def exponent : Reader (Option (Bool × List Char)) := fun cs =>
  match cs with
  | c :: rest =>
    if c = 'e' ∨ c = 'E' then
      let (negative, rest) := exponentSign rest
      match spanDigits rest with
      | ([], _) => .error .malformed
      | (ds, rest) => .ok (some (negative, ds), rest)
    else .ok (none, cs)
  | [] => .ok (none, [])

/-- The number that decimal digits write. -/
def natOfDigits (ds : List Char) : Nat := Text.ofDigits 10 (ds.filterMap Text.digit?)

/-- Appends digits to a number as long as it stays within 64 bits; the count of the digits that are
left over comes second. -/
def pushDigits (n : Nat) : List Char → Nat × Nat
  | [] => (n, 0)
  | c :: rest =>
    let pushed := n * 10 + (Text.digit? c).getD 0
    if pushed < UInt64.size then pushDigits pushed rest else (n, rest.length + 1)

/-- The size of a number from its digits and its exponent. Digits past the first nineteen or so do
not count, and an exponent beyond 31 bits stands for zero or for no number at all. -/
def size? (whole fraction : List Char) (power : Option (Bool × List Char)) : Option Double :=
  let (digits, passed) := pushDigits 0 whole
  let (digits, unread) := pushDigits digits fraction
  let scale : Int := passed + unread - fraction.length
  match power with
  | none => Double.read? digits scale
  | some (negative, ds) =>
    let shift := natOfDigits ds
    if 0x7FFFFFFF < shift then
      if negative ∨ digits = 0 then some (Double.ofMagnitude false 0) else none
    else Double.read? digits (if negative then scale - shift else scale + shift)

/-- The number that its parts make. An integer that fits in 64 bits is exact; one that does not, a
negative zero, and every number with a fraction or an exponent are floating-point numbers. One
beyond the finite numbers is refused where the value is kept. -/
def numberOf (strict negative : Bool) (whole fraction : List Char)
    (power : Option (Bool × List Char)) : Except Fault Number :=
  let value := natOfDigits whole
  let exact :=
    if negative then 0 < value ∧ value ≤ 0x8000000000000000 else value < UInt64.size
  if fraction = [] ∧ power = none ∧ exact then
    .ok (.integer (if negative then -(value : Int) else value))
  else
    match size? whole fraction power with
    | some size => .ok (.decimal (.ofMagnitude negative size.magnitude))
    | none => if strict then .error .malformed else .ok (.integer 0)

/-- A number, from its digits or minus sign on. -/
def numeral (strict : Bool) : Reader Number := fun cs => do
  let (negative, cs) := minusSign cs
  let (whole, cs) ← wholeDigits cs
  let (fraction, cs) ← fractionDigits cs
  let (power, cs) ← exponent cs
  let value ← numberOf strict negative whole fraction power
  .ok (value, cs)

/-! ### Containers -/

/-- The items of an array after its opening bracket; `read` holds the items so far, last first,
and `more` says that an item must follow. -/
def items {α : Type} (item : Reader α) : Nat → List α → Reader (List α)
  | 0, _, _ => .error .malformed
  | fuel + 1, read, cs =>
    match skipBlanks cs with
    | ']' :: rest => if read.isEmpty then .ok ([], rest) else .error .malformed
    | cs => do
      let (value, cs) ← item cs
      match skipBlanks cs with
      | ',' :: rest =>
        match skipBlanks rest with
        | ']' :: _ => .error .malformed
        | rest => items item fuel (value :: read) rest
      | ']' :: rest => .ok ((value :: read).reverse, rest)
      | _ => .error .malformed

/-- A member's key with the colon after it. -/
def key (strict : Bool) : Reader String := fun cs =>
  match skipBlanks cs with
  | '"' :: rest => do
    let (name, rest) ← stringBody strict rest
    let rest ← expect ':' rest
    .ok (name, rest)
  | _ => .error .malformed

/-- The members of an object after its opening brace. Each member is read by `member`, which is
told the state so far and the key. -/
def members {σ : Type} (strict : Bool) (member : σ → String → Reader σ) :
    Nat → Bool → σ → Reader σ
  | 0, _, _, _ => .error .malformed
  | fuel + 1, first, state, cs =>
    match skipBlanks cs with
    | '}' :: rest => if first then .ok (state, rest) else .error .malformed
    | cs => do
      let (name, cs) ← key strict cs
      let (state, cs) ← member state name cs
      match skipBlanks cs with
      | ',' :: rest => members strict member fuel false state rest
      | '}' :: rest => .ok (state, rest)
      | _ => .error .malformed

/-- A member of an object of which every member is kept: of two with one key, the later one. -/
def setMember (item : Reader Json) (read : Members) (name : String) : Reader Members := fun cs => do
  let (value, cs) ← item cs
  .ok (read.set name value, cs)

/-- A value with at most `depth` containers inside each other. -/
def value (strict : Bool) : Nat → Reader Json
  | depth, cs =>
    match skipBlanks cs with
    | [] => .error .malformed
    | c :: rest =>
      if c = 'n' then do
        let rest ← word "ull".toList rest
        .ok (.null, rest)
      else if c = 't' then do
        let rest ← word "rue".toList rest
        .ok (.bool true, rest)
      else if c = 'f' then do
        let rest ← word "alse".toList rest
        .ok (.bool false, rest)
      else if c = '"' then do
        let (s, rest) ← stringBody strict rest
        .ok (.string s, rest)
      else if c = '[' then
        match depth with
        | 0 => .error .malformed
        | depth + 1 => do
          let (values, rest) ← items (value strict depth) (rest.length + 1) [] rest
          .ok (.array values, rest)
      else if c = '{' then
        match depth with
        | 0 => .error .malformed
        | depth + 1 => do
          let member := setMember (value strict depth)
          let (read, rest) ← members strict member (rest.length + 1) true [] rest
          .ok (.object read, rest)
      else if c = '-' ∨ (Text.digit? c).isSome then do
        let (n, rest) ← numeral strict (c :: rest)
        .ok (.number n, rest)
      else .error .malformed

/-- The deepest nesting that a whole text may have. -/
def maxDepth : Nat := 127

/-- A whole text that holds one value and nothing else but blanks. -/
def parse? (text : String) : Option Json :=
  match value true maxDepth text.toList with
  | .ok (read, rest) => if (skipBlanks rest).isEmpty then some read else none
  | .error _ => none

end PointLedger.Json
