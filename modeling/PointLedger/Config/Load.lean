import PointLedger.Config.Basic
import PointLedger.Config.Toml
/-!
Where settings come from. Later sources win: the file of defaults, the file of the run mode, and
the environment's variables whose names start with the application's. A variable names its place
in the tree by two underscores between the parts, in letters of either case. Values convert
loosely, because a variable can only hold text. Like the reader of the files this stands in for a
library that the application only uses, and no theorem is about it.
-/

namespace PointLedger.Config

/-! ### Loose values -/

/-- What a word says as a truth value. -/
def wordBool? (s : String) : Option Bool :=
  let s := Text.asciiLower s
  if s = "true" ∨ s = "on" ∨ s = "yes" then some true
  else if s = "false" ∨ s = "off" ∨ s = "no" then some false
  else none

/-- The nearest whole number of 64 bits, halves away from zero; nothing is below zero, and what is
no number counts as zero. -/
def nearestNat (x : Double) : Nat :=
  if x.isNegative ∨ Double.infinity < x.magnitude then 0
  else if x.magnitude = Double.infinity then UInt64.size - 1
  else min ((2 * x.units + 1 <<< 1074) >>> 1075) (UInt64.size - 1)

/-- A number without an exponent and without needless zeros. -/
def plainText (x : Double) : String :=
  let sign := if x.isNegative then "-" else ""
  if Double.infinity < x.magnitude then "NaN"
  else if x.magnitude = Double.infinity then sign ++ "inf"
  else if x.isZero then sign ++ "0"
  else
    let (n, power) := x.shortest
    let digits := Nat.toDigits 10 n
    let text := Double.plainChars digits power
    sign ++ String.ofList (if 0 ≤ power then text.take (text.length - 2) else text)

/-- A number from 0 to below a bound. -/
def looseNat? (bound : Nat) (value : Json) : Option Nat := do
  let n ← match value with
    | .number (.integer n) => if 0 ≤ n then some n.toNat else none
    | .number (.decimal x) => some (nearestNat x)
    | .bool b => some (if b then 1 else 0)
    | .string s =>
      match wordBool? s with
      | some b => some (if b then 1 else 0)
      | none => Text.natOfText? s
    | _ => none
  if n < bound then some n else none

/-- A truth value; a number that is not zero counts as true. -/
def looseBool? : Json → Option Bool
  | .bool b => some b
  | .number (.integer n) => some (n != 0)
  | .number (.decimal x) => some (!x.isZero)
  | .string s => if s = "1" then some true else if s = "0" then some false else wordBool? s
  | _ => none

/-- A text. -/
def looseString? : Json → Option String
  | .string s => some s
  | .bool b => some (if b then "true" else "false")
  | .number (.integer n) => some (toString n)
  | .number (.decimal x) => some (plainText x)
  | _ => none

/-- The fields of a record; items of an array past the last field are passed over. -/
def looseFields? (names : List String) : Json → Option Json.Fields
  | .array items => Json.fields? names (.array (items.take names.length))
  | value => Json.fields? names value

/-- Values of a type near enough to the one that is wanted. -/
def loose : Scalars := ⟨looseString?, looseBool?, looseNat?, looseFields?⟩

/-! ### Sources -/

/-- The parts of a key with dots between them, when every part is a plain name. -/
def path? (key : String) : Option (List String) :=
  let parts := (splitOn '.' key.toList).map String.ofList
  if parts.all fun part => !part.isEmpty && part.toList.all Toml.isKeyChar then some parts
  else none
where
  /-- The parts of a text between marks. -/
  splitOn (mark : Char) (cs : List Char) : List (List Char) :=
    cs.foldr
      (fun c parts =>
        match parts with
        | part :: rest => if c = mark then [] :: part :: rest else (c :: part) :: rest
        | [] => [[c]])
      [[]]

mutual

/-- A value laid over another one: tables are merged, everything else is replaced. -/
def overlay (under : Json) : Json → Json
  | .object members =>
    match under with
    | .object table => .object (overlayMembers table members)
    | _ => .object (overlayMembers [] members)
  | value => value

/-- Members laid over a table. -/
def overlayMembers (table : Json.Members) : List (String × Json) → Json.Members
  | [] => table
  | (key, value) :: rest =>
    overlayMembers (table.set key (overlay ((Json.Members.get? table key).getD .null) value)) rest

end

/-- A value as the only one in tables along a path. -/
def nest (value : Json) : List String → Json
  | [] => value
  | name :: path => .object [(name, nest value path)]

/-- Lays a key and its value over the settings; a key that is no path names a value of its own. -/
def put (settings : Json) (key : String) (value : Json) : Json :=
  overlay settings (nest value ((path? key).getD [key]))

/-- The text with every two underscores in a row replaced by a dot. -/
def dotted : List Char → List Char
  | '_' :: '_' :: rest => '.' :: dotted rest
  | c :: rest => c :: dotted rest
  | [] => []

/-- What the names of the application's variables start with. -/
def variableStart : List Char := "pointbook__".toList

/-- The key that a variable sets, when it is one of the application's. -/
def variableKey? (name : String) : Option String :=
  let cs := (Text.asciiLower name).toList
  if variableStart.isPrefixOf cs then
    some (String.ofList (dotted (cs.drop variableStart.length)))
  else none

/-- A file of settings, when there is one with this name or with its ending added. -/
def file? (files : List (String × String)) (name : String) : Option String :=
  let given := if name.endsWith ".toml" then List.lookup name files else none
  given.orElse fun _ => List.lookup (name ++ ".toml") files

/-- Lays a file over the settings; a file that is missing changes nothing. -/
def putFile (files : List (String × String)) (name : String) (settings : Json) : Option Json :=
  match file? files name with
  | none => some settings
  | some text =>
    (Toml.parse? text).map fun members => members.foldl (fun s m => put s m.1 m.2) settings

/-- The settings of an application from its files and its environment. -/
def load? (files environment : List (String × String)) : Option AppConfig := do
  let mode := (List.lookup "RUN_MODE" environment).getD "development"
  let settings ← putFile files "default" (.object [])
  let settings ← putFile files mode settings
  let settings := environment.foldl
    (fun s (name, text) =>
      match variableKey? name with
      | some key => put s key (.string text)
      | none => s)
    settings
  AppConfig.ofJson? loose settings

end PointLedger.Config
