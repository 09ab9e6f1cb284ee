import PointLedger.Text.Chars
/-!
The target of a request: a path of segments and a query of pairs. Segments and pairs are
percent-encoded; an escape without two hexadecimal digits stands for itself. In a query a plus sign
is a blank.
-/

namespace PointLedger.Http

/-- The bytes of a text in UTF-8. -/
def utf8 (s : String) : List UInt8 := s.toUTF8.toList

/-- The text of bytes in UTF-8, unless they are none. -/
def ofUtf8? (bytes : List UInt8) : Option String := String.fromUTF8? (ByteArray.mk bytes.toArray)

/-- The value of a byte that is a hexadecimal digit. -/
def hexByte? (b : UInt8) : Option UInt8 :=
  (Text.hexDigit? (Char.ofNat b.toNat)).map UInt8.ofNat

/-- The bytes with every escape replaced by the byte that it stands for. -/
def percentDecode : List UInt8 → List UInt8
  | [] => []
  | [b] => [b]
  | [b, c] => [b, c]
  | b :: c :: d :: rest =>
    if b = 0x25 then
      match hexByte? c, hexByte? d with
      | some high, some low => (high * 16 + low) :: percentDecode rest
      | _, _ => b :: percentDecode (c :: d :: rest)
    else b :: percentDecode (c :: d :: rest)

/-- A segment of a path as text, unless its bytes are no text. -/
def decodeSegment? (segment : String) : Option String := ofUtf8? (percentDecode (utf8 segment))

/-- A name or a value of a query as text; bytes that are no text become U+FFFD. -/
def decodeFormPart (part : String) : String :=
  let bytes := (utf8 part).map fun b => if b = 0x2B then 0x20 else b
  (ofUtf8? (percentDecode bytes)).getD (String.ofList [Char.ofNat 0xFFFD])

/-- The characters before the first mark, and those after it when there is one. -/
def splitFirst (mark : Char) (cs : List Char) : List Char × Option (List Char) :=
  match cs.span (· != mark) with
  | (before, _ :: after) => (before, some after)
  | (before, []) => (before, none)

/-- The parts of a text between marks. -/
def splitAll (mark : Char) (cs : List Char) : List (List Char) :=
  cs.foldr
    (fun c parts =>
      match parts with
      | part :: rest => if c = mark then [] :: part :: rest else (c :: part) :: rest
      | [] => [[c]])
    [[]]

/-- A target in its parts. -/
structure Target where
  /-- The segments of the path, still encoded. -/
  segments : List String
  /-- The pairs of the query, decoded. -/
  query : List (String × String)
  deriving DecidableEq, Repr

/-- The pairs of a query; a name without a value has the empty one. -/
def parseQuery (cs : List Char) : List (String × String) :=
  ((splitAll '&' cs).filter (!·.isEmpty)).map fun pair =>
    let (name, value) := splitFirst '=' pair
    (decodeFormPart (String.ofList name), decodeFormPart (String.ofList (value.getD [])))

/-- Reads a target. A path that does not start with a slash has a first segment without one. -/
def Target.ofText (text : String) : Target :=
  let (text, _) := splitFirst '#' text.toList
  let (path, query) := splitFirst '?' text
  let segments := match splitAll '/' path with
    | [] :: segments => segments
    | segments => segments
  ⟨segments.map String.ofList, parseQuery (query.getD [])⟩

end PointLedger.Http
