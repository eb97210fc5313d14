/-
# Quoted texts in TOML

A text stands between double quotes, where a backslash begins an escape, or
between apostrophes, where every character stands for itself. Three quotes or
apostrophes in a row open a text that may go over several lines; a line end
directly behind them does not count, and every line end inside is read as a
newline. Such a text may end in up to two quotes of its own.

Key definitions: `Toml.scanBasic`, `Toml.scanMultilineBasic`, `Toml.scanLiteral`,
`Toml.scanMultilineLiteral`, `Toml.scanShortText`, `Toml.scanText`.
-/
import ScreenBridge.Text.Numeral
import ScreenBridge.Toml.Lexeme

namespace ScreenBridge
namespace Toml

/-- The delimiter of a text without escapes. -/
def apostrophe : Char := Char.ofNat 39

/-- The character that an escape of one letter stands for. -/
def escapedChar? : Char → Option Char
  | 'b' => some (Char.ofNat 0x08)
  | 't' => some '\t'
  | 'n' => some '\n'
  | 'f' => some (Char.ofNat 0x0c)
  | 'r' => some '\r'
  | '"' => some '"'
  | '\\' => some '\\'
  | _ => none

/-- The character whose code point has these hexadecimal digits. Surrogates are
no characters. -/
def codePoint? (digits : List Char) : Option Char :=
  match Text.readDigits 16 0x10ffff .tooLarge 0 digits with
  | .ok n => if n.isValidChar then some (Char.ofNat n) else none
  | .error _ => none

/-- The characters that stand for themselves between double quotes, if they do
not end the text: all but the controls and the backslash, a tab included. -/
def isPlain (c : Char) : Bool := isCommentChar c && c ≠ '\\'

/-- A character in front of what a scanner finds. -/
def consTo (c : Char) : Option (List Char × List Char) → Option (List Char × List Char)
  | some (cs, rest) => some (c :: cs, rest)
  | none => none

/-- Takes the rest of a text on one line between double quotes. -/
def scanBasic : Scanner (List Char)
  | [] => none
  | '"' :: cs => some ([], cs)
  | '\\' :: 'u' :: a :: b :: c :: d :: cs =>
    match codePoint? [a, b, c, d] with
    | some x => consTo x (scanBasic cs)
    | none => none
  | '\\' :: 'U' :: a :: b :: c :: d :: e :: f :: g :: h :: cs =>
    match codePoint? [a, b, c, d, e, f, g, h] with
    | some x => consTo x (scanBasic cs)
    | none => none
  | '\\' :: e :: cs =>
    match escapedChar? e with
    | some x => consTo x (scanBasic cs)
    | none => none
  | c :: cs => if isPlain c then consTo c (scanBasic cs) else none

/-- The end of a text over several lines, with the quotes in front of its
delimiter that still belong to it. -/
def closing? (quote : Char) (cs : List Char) : Option (List Char × List Char) :=
  let run := (cs.takeWhile (· = quote)).length
  if run < 3 then none
  else
    let own := min 2 (run - 3)
    some (List.replicate own quote, cs.drop (own + 3))

/-- Does nothing but spaces stand before the end of the line? -/
def endsLine (cs : List Char) : Bool := (scanNewline (skipSpace cs)).isSome

/-- Takes the rest of a text over several lines between double quotes. A
backslash at the end of a line opens a gap, in which spaces and line ends do not
count. -/
def scanMultilineBasic (gap : Bool) : Scanner (List Char)
  | [] => none
  | '\n' :: cs =>
    if gap then scanMultilineBasic true cs else consTo '\n' (scanMultilineBasic false cs)
  | '\r' :: '\n' :: cs =>
    if gap then scanMultilineBasic true cs else consTo '\n' (scanMultilineBasic false cs)
  | '\\' :: 'u' :: a :: b :: c :: d :: cs =>
    match codePoint? [a, b, c, d] with
    | some x => consTo x (scanMultilineBasic false cs)
    | none => none
  | '\\' :: 'U' :: a :: b :: c :: d :: e :: f :: g :: h :: cs =>
    match codePoint? [a, b, c, d, e, f, g, h] with
    | some x => consTo x (scanMultilineBasic false cs)
    | none => none
  | '\\' :: e :: cs =>
    match escapedChar? e with
    | some x => consTo x (scanMultilineBasic false cs)
    | none => if endsLine (e :: cs) then scanMultilineBasic true (e :: cs) else none
  | c :: cs =>
    match closing? '"' (c :: cs) with
    | some result => some result
    | none =>
      if gap && isSpace c then scanMultilineBasic true cs
      else if isPlain c then consTo c (scanMultilineBasic false cs)
      else none

/-- Takes the rest of a text on one line between apostrophes. -/
def scanLiteral : Scanner (List Char)
  | [] => none
  | c :: cs =>
    if c = apostrophe then some ([], cs)
    else if isCommentChar c then consTo c (scanLiteral cs)
    else none

/-- Takes the rest of a text over several lines between apostrophes. -/
def scanMultilineLiteral : Scanner (List Char)
  | [] => none
  | '\n' :: cs => consTo '\n' (scanMultilineLiteral cs)
  | '\r' :: '\n' :: cs => consTo '\n' (scanMultilineLiteral cs)
  | c :: cs =>
    match closing? apostrophe (c :: cs) with
    | some result => some result
    | none => if isCommentChar c then consTo c (scanMultilineLiteral cs) else none

/-- The text without the line end at its front. -/
def dropNewline (cs : List Char) : List Char := (scanNewline cs).getD cs

/-- Takes the delimiter that opens a text over several lines. -/
def opening? (quote : Char) : List Char → Option (List Char)
  | a :: b :: c :: cs => if a = quote ∧ b = quote ∧ c = quote then some cs else none
  | _ => none

/-- Takes a text on one line with its delimiters. -/
def scanShortText : Scanner (List Char)
  | [] => none
  | c :: cs =>
    if c = '"' then scanBasic cs else if c = apostrophe then scanLiteral cs else none

/-- Takes a text with its delimiters. -/
def scanText (cs : List Char) : Option (List Char × List Char) :=
  match opening? '"' cs with
  | some cs => scanMultilineBasic false (dropNewline cs)
  | none =>
    match opening? apostrophe cs with
    | some cs => scanMultilineLiteral (dropNewline cs)
    | none => scanShortText cs

end Toml
end ScreenBridge
