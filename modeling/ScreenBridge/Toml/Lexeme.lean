/-
# The small pieces of a TOML text

A scanner takes a piece from the front of a text and leaves the rest, or fails.
Here are the scanners for what stands between values: spaces, ends of lines and
comments.

Key definitions: `Toml.Scanner`, `Toml.skipSpace`, `Toml.scanNewline`,
`Toml.skipComment`, `Toml.scanLineEnd`, `Toml.skipFiller`.
-/

namespace ScreenBridge
namespace Toml

/-- Takes a piece from the front of a text, or fails. -/
abbrev Scanner (α : Type) := List Char → Option (α × List Char)

/-- Spaces and tabs separate what stands on one line. -/
def isSpace (c : Char) : Bool := c = ' ' || c = '\t'

/-- The text behind the spaces at its front. -/
def skipSpace (cs : List Char) : List Char := cs.dropWhile isSpace

/-- The control characters. -/
def isControl (c : Char) : Bool := c.toNat < 0x20 || c.toNat = 0x7f

/-- The characters a comment may hold: all but the controls, a tab excepted. -/
def isCommentChar (c : Char) : Bool := c = '\t' || !isControl c

/-- The text behind the end of a line at its front. -/
def scanNewline : List Char → Option (List Char)
  | '\n' :: cs => some cs
  | '\r' :: '\n' :: cs => some cs
  | _ => none

/-- The text behind a comment at its front, if there is one. -/
def skipComment : List Char → List Char
  | '#' :: cs => cs.dropWhile isCommentChar
  | cs => cs

/-- The text behind the end of a line, where the end of the text ends a line
too. -/
def scanNewlineOrEnd : List Char → Option (List Char)
  | [] => some []
  | cs => scanNewline cs

/-- What may stand behind a statement: spaces, a comment, and the end of the
line. -/
def scanLineEnd (cs : List Char) : Option (List Char) :=
  scanNewlineOrEnd (skipComment (skipSpace cs))

/-- Skips filler from outside or inside a comment. -/
def skipFillerFrom : Bool → List Char → Option (List Char)
  | false, [] => some []
  | true, [] => none
  | _, '\n' :: cs => skipFillerFrom false cs
  | _, '\r' :: '\n' :: cs => skipFillerFrom false cs
  | false, c :: cs =>
    if c = '#' then skipFillerFrom true cs
    else if isSpace c then skipFillerFrom false cs
    else if c = '\r' then none
    else some (c :: cs)
  | true, c :: cs => if isCommentChar c then skipFillerFrom true cs else none

/-- Skips what may stand between the items of an array: spaces, ends of lines,
and comments, each of which the end of its line follows. -/
def skipFiller (cs : List Char) : Option (List Char) := skipFillerFrom false cs

/-- Takes a character that must stand at the front. -/
def expect (c : Char) : List Char → Option (List Char)
  | d :: cs => if d = c then some cs else none
  | [] => none

end Toml
end ScreenBridge
