import PointLedger.Text.Chars
import PointLedger.Text.Hidden
/-!
Text between double quotes, as messages show a value that was refused: the quote, the backslash
and the common controls have short escapes, and what has no visible form is written by its code
point.
-/

namespace PointLedger.Text

/-- One character inside a quoted text. -/
def quotedChar (c : Char) : List Char :=
  if c = '"' then ['\\', '"']
  else if c = '\\' then ['\\', '\\']
  else if c = '\n' then ['\\', 'n']
  else if c = '\r' then ['\\', 'r']
  else if c = '\t' then ['\\', 't']
  else if c = Char.ofNat 0 then ['\\', '0']
  else if isHidden c then
    ['\\', 'u', '\x7b'] ++ (Nat.toDigits 16 c.toNat) ++ ['\x7d']
  else [c]

/-- The text between double quotes, with escapes. -/
def quoted (s : String) : String :=
  String.ofList ('"' :: (s.toList.flatMap quotedChar ++ ['"']))

end PointLedger.Text
