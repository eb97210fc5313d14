/-
# Writing texts in TOML

A text is written in the plainest of four styles that can hold it: between
double quotes, between apostrophes, and the same over several lines. A text that
none of them holds as it is gets escapes.

Key definitions: `Toml.TextStyle`, `Toml.TextStyle.choose`, `Toml.TextStyle.write`,
`Toml.writeText`.
-/
import ScreenBridge.Toml.Quoted

namespace ScreenBridge
namespace Toml

/-- The length of the longest run of a character, given the length of the run in
front of the text and the longest so far. -/
def longestRunFrom (quote : Char) (run longest : Nat) : List Char → Nat
  | [] => longest
  | c :: cs =>
    if c = quote then longestRunFrom quote (run + 1) (max longest (run + 1)) cs
    else longestRunFrom quote 0 longest cs

/-- The length of the longest run of a character. -/
def longestRun (quote : Char) (cs : List Char) : Nat := longestRunFrom quote 0 0 cs

/-- The controls that cannot be written as they are: all but tab and newline. -/
def needsEscape (c : Char) : Bool := isControl c && c ≠ '\t' && c ≠ '\n'

/-- The letters and digits that stand for a character behind a backslash, or the
character itself if it needs none. -/
def escape (c : Char) : List Char :=
  if c.toNat = 0x08 then ['\\', 'b']
  else if c = '\t' then ['\\', 't']
  else if c = '\n' then ['\\', 'n']
  else if c.toNat = 0x0c then ['\\', 'f']
  else if c = '\r' then ['\\', 'r']
  else if c = '"' then ['\\', '"']
  else if c = '\\' then ['\\', '\\']
  else if isControl c then
    ['\\', 'u'] ++ Text.zeroPadded 4 ((Text.hexDigits c.toNat).map Char.toUpper)
  else [c]

/-- How a text is delimited. -/
inductive TextStyle
  | basic
  | literal
  | multilineBasic
  | multilineLiteral
  deriving DecidableEq, Repr

namespace TextStyle

/-- The style for a text. -/
def choose (cs : List Char) : TextStyle :=
  let escapes := cs.any needsEscape
  let backslash := cs.contains '\\'
  let newline := cs.contains '\n'
  let quotes := longestRun '"' cs
  let apostrophes := longestRun apostrophe cs
  if !escapes && !backslash && quotes = 0 && !newline then basic
  else if !escapes && apostrophes = 0 && !newline then literal
  else if !escapes && !backslash && quotes ≤ 2 then multilineBasic
  else if !escapes && apostrophes ≤ 2 then multilineLiteral
  else if newline then multilineBasic
  else basic

/-- The inside of a text over several lines, given the number of quotes right in
front of it. Of three quotes in a row the last is escaped. -/
def multilineBody : Nat → List Char → List Char
  | _, [] => []
  | run, c :: cs =>
    if c = '"' then
      if run < 2 then '"' :: multilineBody (run + 1) cs
      else ['\\', '"'] ++ multilineBody 0 cs
    else if c = '\n' then '\n' :: multilineBody 0 cs
    else escape c ++ multilineBody 0 cs

/-- The line end behind the opening delimiter of a text that has line ends. -/
def opener (cs : List Char) : List Char := if cs.contains '\n' then ['\n'] else []

/-- A text in a style. -/
def write (style : TextStyle) (cs : List Char) : List Char :=
  match style with
  | basic => '"' :: cs.flatMap escape ++ ['"']
  | literal => apostrophe :: cs ++ [apostrophe]
  | multilineBasic => ['"', '"', '"'] ++ opener cs ++ multilineBody 0 cs ++ ['"', '"', '"']
  | multilineLiteral =>
    List.replicate 3 apostrophe ++ opener cs ++ cs ++ List.replicate 3 apostrophe

end TextStyle

/-- A text in the style for it. -/
def writeText (s : String) : List Char :=
  (TextStyle.choose s.toList).write s.toList

end Toml
end ScreenBridge
