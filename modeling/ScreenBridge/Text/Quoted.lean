/-
# Quoted texts in messages

A message quotes what a person typed between double quotes, so that the person
can see every character of it: the quote, the backslash and the common controls
are written with a backslash, and characters without a visible form of their
own as `\u{…}` with their code point.

Key definitions: `Text.escapeChar`, `Text.quoted`.
-/
import ScreenBridge.Text.Hidden
import ScreenBridge.Text.Numeral

namespace ScreenBridge
namespace Text

/-- How one character is written between quotes. -/
def escapeChar (c : Char) : List Char :=
  if c = '"' then ['\\', '"']
  else if c = '\\' then ['\\', '\\']
  else if c = '\n' then ['\\', 'n']
  else if c = '\r' then ['\\', 'r']
  else if c = '\t' then ['\\', 't']
  else if c.toNat = 0 then ['\\', '0']
  else if isHidden c then ['\\', 'u', '\x7b'] ++ hexDigits c.toNat ++ ['\x7d']
  else [c]

/-- The text between double quotes, every character of it visible. -/
def quoted (s : String) : String :=
  String.ofList ('"' :: s.toList.flatMap escapeChar ++ ['"'])

end Text
end ScreenBridge
