import PointLedger.Entry.Request
import PointLedger.Json.Reader
/-!
The body of a request for a new entry, read from left to right: an object with the fields by name,
or an array with the fields in their order. Reading stops at the first fault. A value of the wrong
kind is read to its end first when it is a word, a number or a string, so that a malformed one
counts as malformed; fields that the body does not need are passed over without being kept.
-/

namespace PointLedger.Http

open Json

/-- True for the characters of the words in a content type. -/
def isTokenChar (c : Char) : Bool :=
  c.isAlphanum || "!#$%&'*+-.^_|~".toList.contains c || c == '\x60'

/-- True when parameters are well written: each follows a semicolon and is a name with a value,
which may be quoted. -/
def areParameters : Nat → List Char → Bool
  | _, [] => true
  | fuel + 1, ';' :: rest =>
    match rest.dropWhile (· == ' ') with
    | [] => true
    | rest =>
      match rest.span isTokenChar with
      | (_ :: _, '=' :: '"' :: rest) =>
        match rest.dropWhile (· != '"') with
        | _ :: rest => areParameters fuel (rest.dropWhile (· == ' '))
        | [] => false
      | (_ :: _, '=' :: rest) =>
        let (word, rest) := rest.span isTokenChar
        (!word.isEmpty || rest.isEmpty) && areParameters fuel rest
      | _ => false
  | _, _ => false

/-- True when a content type is JSON or a kind of it, in letters of either case. -/
def isJsonContent (contentType : String) : Bool :=
  let lower := contentType.toList.map Char.toLower
  match lower.span isTokenChar with
  | (type, '/' :: rest) =>
    let (subtype, tail) := rest.span isTokenChar
    let suffix := (subtype.reverse.takeWhile (· != '+')).reverse
    type == "application".toList && suffix == "json".toList &&
      areParameters tail.length tail
  | _ => false

/-- What a body asks for. -/
structure EntryBody where
  kind : EntryKind
  amount : Amount
  referenceId : String
  description : String := ""
  metadata : Members := []
  deriving DecidableEq, Repr

/-- The request for an account that a body makes. -/
def EntryBody.request (b : EntryBody) (account : Account) : EntryRequest where
  organizationId := account.organizationId
  userId := account.userId
  kind := b.kind
  amount := b.amount
  referenceId := b.referenceId
  description := b.description
  metadata := b.metadata

namespace EntryBody

/-! ### Values of the fields -/

/-- The fault of a value of the wrong kind: what is neither an array nor an object is read first. -/
def wrongKind {α : Type} : Reader α := fun cs =>
  match skipBlanks cs with
  | '[' :: _ | '\x7b' :: _ => .error .mistyped
  | cs => do
    let _ ← value true 1 cs
    .error .mistyped

/-- A string. -/
def readString : Reader String := fun cs =>
  match skipBlanks cs with
  | '"' :: rest => stringBody true rest
  | cs => wrongKind cs

/-- An amount. -/
def readAmount : Reader Amount := fun cs =>
  match skipBlanks cs with
  | [] => .error .malformed
  | c :: rest =>
    if c = '-' ∨ (Text.digit? c).isSome then do
      let (n, rest) ← numeral true (c :: rest)
      match Amount.ofJson? (.number n) with
      | some amount => .ok (amount, rest)
      | none => .error .mistyped
    else wrongKind (c :: rest)

/-- The name of a kind. -/
def readKindName : Reader EntryKind := fun cs => do
  let (name, rest) ← readString cs
  match EntryKind.ofName? name with
  | some kind => .ok (kind, rest)
  | none => .error .mistyped

/-- A `null`. -/
def readNull : Reader Unit := fun cs =>
  match skipBlanks cs with
  | 'n' :: rest => do
    let rest ← word "ull".toList rest
    .ok ((), rest)
  | cs => wrongKind cs

/-- A kind: its name, or an object with the name over `null`. -/
def readKind : Reader EntryKind := fun cs =>
  match skipBlanks cs with
  | '"' :: rest => readKindName ('"' :: rest)
  | '\x7b' :: rest => do
    let (kind, rest) ← readKindName rest
    let rest ← expect ':' rest
    let (_, rest) ← readNull rest
    let rest ← expect '\x7d' rest
    .ok (kind, rest)
  | _ => .error .malformed

/-- The metadata; its values may be nested as deep as the whole body may, less the body and the
metadata themselves. -/
def readMetadata : Reader Members := fun cs =>
  match skipBlanks cs with
  | '\x7b' :: rest =>
    let member := fun (read : Members) (name : String) (cs : List Char) => do
      let (v, cs) ← value true (maxDepth - 2) cs
      .ok (read.set name v, cs)
    members true member (rest.length + 1) true ([] : Members) rest
  | cs => wrongKind cs

/-! ### The body -/

/-- The fields read so far. -/
structure Partial where
  kind : Option EntryKind := none
  amount : Option Amount := none
  referenceId : Option String := none
  description : Option String := none
  metadata : Option Members := none

/-- The body of the fields read, when none is missing that has no default. -/
def Partial.body (p : Partial) : Except Fault EntryBody :=
  match p.kind, p.amount, p.referenceId with
  | some kind, some amount, some referenceId =>
    .ok ⟨kind, amount, referenceId, p.description.getD "", p.metadata.getD []⟩
  | _, _, _ => .error .mistyped

/-- Reads the value of a field that may stand only once, after its colon. -/
def once {α : Type} (read : Option α) (item : Reader α) (keep : α → Partial) : Reader Partial :=
  fun cs =>
    if read.isSome then .error .mistyped
    else do
      let cs ← expect ':' cs
      let (v, cs) ← item cs
      .ok (keep v, cs)

/-- Reads a member after its name. -/
def readMember (p : Partial) (name : String) : Reader Partial :=
  if name = "type" then once p.kind readKind fun v => { p with kind := some v }
  else if name = "amount" then once p.amount readAmount fun v => { p with amount := some v }
  else if name = "reference_id" then
    once p.referenceId readString fun v => { p with referenceId := some v }
  else if name = "description" then
    once p.description readString fun v => { p with description := some v }
  else if name = "metadata" then
    once p.metadata readMetadata fun v => { p with metadata := some v }
  else fun cs => do
    let cs ← expect ':' cs
    let (_, cs) ← value false cs.length cs
    .ok (p, cs)

/-- Reads the members of an object after its brace, up to its end. -/
def readMembers : Nat → Bool → Partial → Reader EntryBody
  | 0, _, _, _ => .error .malformed
  | fuel + 1, first, p, cs =>
    match skipBlanks cs with
    | '\x7d' :: rest => do
      let body ← p.body
      .ok (body, rest)
    | cs => do
      let cs ← if first then pure cs else do
        let cs ← expect ',' cs
        pure (skipBlanks cs)
      match cs with
      | '"' :: rest =>
        let (name, rest) ← stringBody true rest
        let (p, rest) ← readMember p name rest
        readMembers fuel false p rest
      | _ => .error .malformed

/-- Passes to the next item of an array; `none` at the end of the array. -/
def nextItem (first : Bool) (cs : List Char) : Except Fault (Option (List Char)) :=
  match skipBlanks cs with
  | ']' :: _ => .ok none
  | [] => .error .malformed
  | c :: rest =>
    if first then .ok (some (c :: rest))
    else if c = ',' then
      match skipBlanks rest with
      | [] | ']' :: _ => .error .malformed
      | rest => .ok (some rest)
    else .error .malformed

/-- An item of an array that must be there. -/
def requiredItem {α : Type} (first : Bool) (item : Reader α) : Reader α := fun cs => do
  match ← nextItem first cs with
  | none => .error .mistyped
  | some cs => item cs

/-- An item of an array that has a default. -/
def optionalItem {α : Type} (default : α) (item : Reader α) : Reader α := fun cs => do
  match ← nextItem false cs with
  | none => .ok (default, cs)
  | some cs => item cs

/-- Reads the items of an array after its bracket. -/
def readItems : Reader EntryBody := fun cs => do
  let (kind, cs) ← requiredItem true readKind cs
  let (amount, cs) ← requiredItem false readAmount cs
  let (referenceId, cs) ← requiredItem false readString cs
  let (description, cs) ← optionalItem "" readString cs
  let (metadata, cs) ← optionalItem [] readMetadata cs
  let cs ← expect ']' cs
  .ok (⟨kind, amount, referenceId, description, metadata⟩, cs)

/-- Reads a whole body. -/
def ofText? (text : String) : Except Fault EntryBody := do
  let cs := text.toList
  let (body, rest) ←
    match skipBlanks cs with
    | '\x7b' :: rest => readMembers (rest.length + 1) true {} rest
    | '[' :: rest => readItems rest
    | cs => wrongKind cs
  if (skipBlanks rest).isEmpty then .ok body else .error .malformed

end EntryBody
end PointLedger.Http
