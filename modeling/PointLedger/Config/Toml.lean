import PointLedger.Json.Reader
/-!
Settings files: documents of keys and values under table headers. A document becomes a tree of
values. A key that is set twice, a table that is opened twice, and a header or a dotted key that
runs into something else than a table are refused. Dates are kept as text. The reader stands in for
a library that the application only uses, so that settings can be loaded and compared; the ledger
does not depend on it, and no theorem is about it.
-/

namespace PointLedger.Toml

/-- A reader of one thing at the head of a text. -/
abbrev Reader (α : Type) := List Char → Option (α × List Char)

/-! ### Blanks -/

/-- The text after spaces and tabs. -/
def skipSpaces : List Char → List Char := List.dropWhile fun c => c == ' ' || c == '\t'

/-- The text after spaces, a comment and the end of the line; `none` when the line goes on. -/
def endLine (cs : List Char) : Option (List Char) :=
  let rest :=
    match skipSpaces cs with
    | '#' :: rest => rest.dropWhile fun c => c != '\n' && c != '\r'
    | rest => rest
  match rest with
  | [] => some []
  | '\n' :: rest => some rest
  | '\r' :: '\n' :: rest => some rest
  | _ => none

/-- The text after spaces, comments and line ends. -/
def skipLines : Nat → List Char → List Char
  | 0, cs => cs
  | fuel + 1, cs =>
    match skipSpaces cs with
    | [] => []
    | rest =>
      match endLine rest with
      | some rest => skipLines fuel rest
      | none => rest

/-! ### Strings -/

/-- An escape in a string, after its backslash. -/
def escape : Reader Char
  | 'u' :: rest => hex 4 rest
  | 'U' :: rest => hex 8 rest
  | 'b' :: rest => some (Char.ofNat 8, rest)
  | 't' :: rest => some ('\t', rest)
  | 'n' :: rest => some ('\n', rest)
  | 'f' :: rest => some (Char.ofNat 12, rest)
  | 'r' :: rest => some ('\r', rest)
  | 'e' :: rest => some (Char.ofNat 27, rest)
  | '"' :: rest => some ('"', rest)
  | '\\' :: rest => some ('\\', rest)
  | _ => none
where
  hex (width : Nat) (cs : List Char) : Option (Char × List Char) := do
    let ds ← (cs.take width).mapM Text.hexDigit?
    let n := Text.ofDigits 16 ds
    if ds.length = width ∧ n.isValidChar then some (Char.ofNat n, cs.drop width) else none

/-- True for characters that no string holds unescaped. -/
def isBarred (c : Char) : Bool := (c.toNat < 0x20 && c != '\t') || c.toNat == 0x7F

/-- The rest of a string on one line; `quote` ends it, and escapes stand in it or not. -/
def lineString (quote : Char) (escapes : Bool) : Nat → List Char → Reader String
  | 0, _, _ => none
  | _, _, [] => none
  | fuel + 1, read, c :: rest =>
    if c = quote then some (String.ofList read.reverse, rest)
    else if escapes ∧ c = '\\' then do
      let (c, rest) ← escape rest
      lineString quote escapes fuel (c :: read) rest
    else if isBarred c then none
    else lineString quote escapes fuel (c :: read) rest

/-- The rest of a string over several lines; three quotes end it. -/
def blockString (quote : Char) (escapes : Bool) : Nat → List Char → Reader String
  | 0, _, _ => none
  | _, _, [] => none
  | fuel + 1, read, c :: rest =>
    if c = quote then
      let quotes := (c :: rest).takeWhile (· == quote)
      if quotes.length < 3 then blockString quote escapes fuel (c :: read) rest
      else if quotes.length ≤ 5 then
        let read := (quotes.drop 3) ++ read
        some (String.ofList read.reverse, (c :: rest).drop quotes.length)
      else none
    else if escapes ∧ c = '\\' then
      match endLine rest with
      | some (_ :: _) | some [] =>
        let rest := rest.dropWhile fun c => c == ' ' || c == '\t' || c == '\n' || c == '\r'
        blockString quote escapes fuel read rest
      | none => do
        let (c, rest) ← escape rest
        blockString quote escapes fuel (c :: read) rest
    else if c = '\n' then blockString quote escapes fuel (c :: read) rest
    else if c = '\r' then
      match rest with
      | '\n' :: _ => blockString quote escapes fuel read rest
      | _ => none
    else if isBarred c then none
    else blockString quote escapes fuel (c :: read) rest

/-- A string of any form, from its first quote on. -/
def string : Reader String := fun cs =>
  let fuel := cs.length + 1
  let dropFirstLine : List Char → List Char
    | '\n' :: rest => rest
    | '\r' :: '\n' :: rest => rest
    | rest => rest
  match cs with
  | '"' :: '"' :: '"' :: rest => blockString '"' true fuel [] (dropFirstLine rest)
  | '\'' :: '\'' :: '\'' :: rest => blockString '\'' false fuel [] (dropFirstLine rest)
  | '"' :: rest => lineString '"' true fuel [] rest
  | '\'' :: rest => lineString '\'' false fuel [] rest
  | _ => none

/-! ### Keys -/

/-- True for the characters of a key without quotes. -/
def isKeyChar (c : Char) : Bool := c.isAlphanum || c == '_' || c == '-'

/-- One part of a key. -/
def keyPart : Reader String := fun cs =>
  match cs with
  | '"' :: rest => lineString '"' true (cs.length + 1) [] rest
  | '\'' :: rest => lineString '\'' false (cs.length + 1) [] rest
  | _ =>
    match cs.takeWhile isKeyChar with
    | [] => none
    | part => some (String.ofList part, cs.dropWhile isKeyChar)

/-- A key: parts with dots between them. -/
def key : Nat → Reader (List String)
  | 0, _ => none
  | fuel + 1, cs => do
    let (part, rest) ← keyPart (skipSpaces cs)
    match skipSpaces rest with
    | '.' :: rest =>
      let (parts, rest) ← key fuel rest
      some (part :: parts, rest)
    | rest => some ([part], rest)

/-! ### Numbers and dates -/

/-- Digits of a base with single underscores between them. -/
def digitRun? (base : Nat) (cs : List Char) : Option (List Nat) :=
  let isSpaced := cs.head? != some '_' && cs.getLast? != some '_' &&
    !(cs.zip (cs.drop 1)).contains ('_', '_')
  if cs.isEmpty ∨ !isSpaced then none
  else (cs.filter (· != '_')).mapM fun c => (Text.hexDigit? c).filter (· < base)

/-- The characters of a number's sign and what follows it. -/
def splitSign : List Char → Option Bool × List Char
  | '+' :: rest => (some false, rest)
  | '-' :: rest => (some true, rest)
  | cs => (none, cs)

/-- A decimal integer without needless zeros. -/
def decimal? (cs : List Char) : Option Nat := do
  let ds ← digitRun? 10 cs
  match ds with
  | 0 :: _ :: _ => none
  | ds => some (Text.ofDigits 10 ds)

/-- An integer of 64 bits in decimal, hexadecimal, octal or binary. -/
def integer? (cs : List Char) : Option Int := do
  let (sign, digits) := splitSign cs
  let n ← match sign, digits with
    | none, '0' :: 'x' :: ds => (digitRun? 16 ds).map (Text.ofDigits 16)
    | none, '0' :: 'o' :: ds => (digitRun? 8 ds).map (Text.ofDigits 8)
    | none, '0' :: 'b' :: ds => (digitRun? 2 ds).map (Text.ofDigits 2)
    | _, ds => decimal? ds
  let value : Int := if sign = some true then -n else n
  if -0x8000000000000000 ≤ value ∧ value < 0x8000000000000000 then some value else none

/-- A number with a fraction or an exponent; or one of `inf` and `nan`. -/
def float? (cs : List Char) : Option Double := do
  let (sign, rest) := splitSign cs
  let negative := sign = some true
  if rest = "inf".toList then some (.ofMagnitude negative Double.infinity)
  else if rest = "nan".toList then some (.ofMagnitude negative (Double.infinity + 1))
  else
    let whole := rest.takeWhile fun c => c != '.' && c != 'e' && c != 'E'
    let tail := rest.drop whole.length
    let _ ← decimal? whole
    let wholeDigits ← digitRun? 10 whole
    let (fractionDigits, power) ← match tail with
      | '.' :: tail =>
        let digits := tail.takeWhile fun c => c != 'e' && c != 'E'
        (digitRun? 10 digits).map fun ds => (ds, tail.drop digits.length)
      | tail => some ([], tail)
    let shift : Int ← match power with
      | [] => if fractionDigits.isEmpty then none else some 0
      | _ :: power =>
        let (down, digits) := splitSign power
        (digitRun? 10 digits).map fun ds =>
          if down = some true then -(Text.ofDigits 10 ds : Int) else Text.ofDigits 10 ds
    some (.ofDecimal negative (Text.ofDigits 10 (wholeDigits ++ fractionDigits))
      (shift - fractionDigits.length))

/-- True for a text that starts as a date or a time of day. -/
def isDate (cs : List Char) : Bool :=
  let shape := cs.map fun c => if c.isDigit then '0' else c
  shape.take 10 == "0000-00-00".toList || shape.take 8 == "00:00:00".toList

/-- A number, a date or a truth value. -/
def word : Reader Json := fun cs =>
  let isWordChar (c : Char) : Bool := isKeyChar c || c == '+' || c == '.' || c == ':'
  let token := cs.takeWhile isWordChar
  let rest := cs.drop token.length
  if token = "true".toList then some (.bool true, rest)
  else if token = "false".toList then some (.bool false, rest)
  else if isDate token then
    match rest with
    | ' ' :: more =>
      let time := more.takeWhile isWordChar
      if token.length = 10 ∧ isDate time then
        some (.string (String.ofList (token ++ ' ' :: time)), more.drop time.length)
      else some (.string (String.ofList token), rest)
    | _ => some (.string (String.ofList token), rest)
  else
    match integer? token with
    | some n => some (.int n, rest)
    | none => (float? token).map fun value => (.number (.decimal value), rest)

/-! ### Values -/

/-- Sets a key in a table that does not have it; tables on the way are made when they are missing,
and a table of a list is its last. -/
def insert (value : Json) : List String → Json.Members → Option Json.Members
  | [], _ => none
  | [name], table => if table.has name then none else some (table.set name value)
  | name :: path, table =>
    match Json.Members.get? table name with
    | none => (insert value path []).map fun inner => table.set name (.object inner)
    | some (.object inner) =>
      (insert value path inner).map fun inner => table.set name (.object inner)
    | some (.array items) =>
      match items.getLast? with
      | some (.object inner) =>
        (insert value path inner).map fun inner =>
          table.set name (.array (items.dropLast ++ [.object inner]))
      | _ => none
    | some _ => none

mutual

/-- A value of any kind. -/
def value : Nat → Reader Json
  | 0, _ => none
  | fuel + 1, cs =>
    match cs with
    | '"' :: _ | '\'' :: _ => (string cs).map fun (s, rest) => (.string s, rest)
    | '[' :: rest => items fuel [] rest
    | '{' :: rest => members fuel [] rest
    | _ => word cs

/-- The items of an array after its bracket, over any number of lines. -/
def items : Nat → List Json → Reader Json
  | 0, _, _ => none
  | fuel + 1, read, cs =>
    match skipLines cs.length cs with
    | ']' :: rest => some (.array read.reverse, rest)
    | cs => do
      let (item, rest) ← value fuel cs
      match skipLines rest.length rest with
      | ',' :: rest => items fuel (item :: read) rest
      | ']' :: rest => some (.array (item :: read).reverse, rest)
      | _ => none

/-- The members of a table in braces, on one line. -/
def members : Nat → Json.Members → Reader Json
  | 0, _, _ => none
  | fuel + 1, read, cs =>
    match skipSpaces cs, read with
    | '}' :: rest, [] => some (.object [], rest)
    | cs, read => do
      let (path, rest) ← key (cs.length + 1) cs
      match rest with
      | '=' :: rest =>
        let (inner, rest) ← value fuel (skipSpaces rest)
        let read ← insert inner path read
        match skipSpaces rest with
        | ',' :: rest => members fuel read rest
        | '}' :: rest => some (.object read, rest)
        | _ => none
      | _ => none

end

/-! ### Documents -/

/-- A document while it is read. -/
structure Document where
  root : Json.Members := []
  /-- The table that keys are set in. -/
  current : List String := []
  /-- The tables that headers have opened. -/
  opened : List (List String) := []
  /-- The tables that dotted keys have made, and values that are tables or lists. -/
  closed : List (List String) := []
  /-- The lists of tables. -/
  lists : List (List String) := []

namespace Document

/-- The value at a path; in a list of tables the last counts. -/
def at? : List String → Json → Option Json
  | [], value => some value
  | name :: path, .object table => (Json.Members.get? table name).bind (at? path)
  | path, .array items =>
    match items.getLast? with
    | some (.object table) =>
      match path with
      | name :: path => (Json.Members.get? table name).bind (at? path)
      | [] => some (.object table)
    | _ => none
  | _, _ => none

/-- True when the path leads into a table that nothing may be added to. -/
def isClosed (d : Document) (path : List String) : Bool := d.closed.any (·.isPrefixOf path)

/-- Opens the table of a header. -/
def openTable (d : Document) (path : List String) : Option Document :=
  if d.opened.contains path ∨ d.isClosed path ∨ d.lists.contains path then none
  else
    let d := { d with current := path, opened := path :: d.opened }
    match at? path (.object d.root) with
    | some (.object _) => some d
    | some _ => none
    | none => (insert (.object []) path d.root).map fun root => { d with root := root }

/-- Starts another table of a list. -/
def openListed (d : Document) (path : List String) : Option Document :=
  if d.isClosed path ∨ d.opened.contains path then none
  else
    let d := { d with
      current := path
      opened := d.opened.filter fun p => !path.isPrefixOf p
      closed := d.closed.filter fun p => !path.isPrefixOf p
      lists := path :: d.lists.filter fun p => !path.isPrefixOf p }
    match d.lists, at? path.dropLast (.object d.root), path.getLast? with
    | _, some (.object table), some name =>
      match Json.Members.get? table name with
      | none =>
        (insert (.array [.object []]) path d.root).map fun root => { d with root := root }
      | some (.array items) =>
        replace (.array (items ++ [.object []])) path d.root |>.map fun root =>
          { d with root := root }
      | some _ => none
    | _, none, _ =>
      (insert (.array [.object []]) path d.root).map fun root => { d with root := root }
    | _, _, _ => none
where
  /-- Puts a value at a path that exists. -/
  replace (value : Json) : List String → Json.Members → Option Json.Members
    | [], _ => none
    | [name], table => some (table.set name value)
    | name :: path, table =>
      match Json.Members.get? table name with
      | some (.object inner) =>
        (replace value path inner).map fun inner => table.set name (.object inner)
      | some (.array items) =>
        match items.getLast? with
        | some (.object inner) =>
          (replace value path inner).map fun inner =>
            table.set name (.array (items.dropLast ++ [.object inner]))
        | _ => none
      | _ => none

/-- Sets a key in the current table. -/
def setKey (d : Document) (path : List String) (value : Json) : Option Document :=
  let whole := d.current ++ path
  let dotted := (List.range path.length).drop 1 |>.map fun n => d.current ++ path.take n
  if dotted.any d.opened.contains ∨ d.lists.any (dotted.contains ·) then none
  else if d.closed.any fun p => p.isPrefixOf whole && !dotted.contains p then none
  else do
    let root ← insert value whole d.root
    let sealedValue := match value with
      | .object _ | .array _ => [whole]
      | _ => []
    some { d with root := root, closed := sealedValue ++ dotted ++ d.closed }

end Document

/-- One line of a document that is not blank: a header, or a key with its value. -/
def line (d : Document) (cs : List Char) : Option (Document × List Char) :=
  let fuel := cs.length + 1
  match cs with
  | '[' :: '[' :: rest => do
    let (path, rest) ← key fuel rest
    match rest with
    | ']' :: ']' :: rest => (d.openListed path).map (·, rest)
    | _ => none
  | '[' :: rest => do
    let (path, rest) ← key fuel rest
    match rest with
    | ']' :: rest => (d.openTable path).map (·, rest)
    | _ => none
  | cs => do
    let (path, rest) ← key fuel cs
    match rest with
    | '=' :: rest =>
      let (v, rest) ← value fuel (skipSpaces rest)
      (d.setKey path v).map (·, rest)
    | _ => none

/-- The lines of a document. -/
def lines : Nat → Document → List Char → Option Document
  | 0, _, _ => none
  | fuel + 1, d, cs =>
    match skipLines cs.length cs with
    | [] => some d
    | cs => do
      let (d, rest) ← line d cs
      let rest ← endLine rest
      lines fuel d rest

/-- Reads a document. -/
def parse? (text : String) : Option Json.Members :=
  (lines (text.length + 1) {} text.toList).map (·.root)

end PointLedger.Toml
