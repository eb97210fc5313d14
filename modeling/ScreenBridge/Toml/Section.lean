/-
# Writing TOML documents

A document is written as sections with an empty line between them. A section has
a header and, each on a line of its own, fields. Each table of a tree becomes a
section, and a list of tables one section for each of them.

Key definitions: `Toml.Literal`, `Toml.Section`, `Toml.Section.write`,
`Toml.writeSections`, `Toml.Tree.sections?`, `Toml.library`.
-/
import ScreenBridge.Toml.Document
import ScreenBridge.Toml.Library
import ScreenBridge.Toml.TextStyle

namespace ScreenBridge
namespace Toml

/-- The value of a field. -/
inductive Literal
  | text (s : String)
  | number (n : Nat)
  | flag (b : Bool)
  | emptyArray
  deriving DecidableEq, Repr

/-- The header of a section. -/
inductive Heading
  /-- The table of a key. -/
  | table (key : String)
  /-- One more of the tables at a path of two keys. -/
  | element (parent key : String)
  deriving DecidableEq, Repr

/-- A header with its fields. -/
structure Section where
  heading : Heading
  fields : List (String × Literal)
  deriving DecidableEq, Repr

namespace Literal

/-- The text of a value. -/
def write : Literal → List Char
  | text s => writeText s
  | number n => Nat.toDigits 10 n
  | flag true => ['t', 'r', 'u', 'e']
  | flag false => ['f', 'a', 'l', 's', 'e']
  | emptyArray => ['[', ']']

end Literal

namespace Heading

/-- The line of a header. Its keys need no quotes. -/
def write : Heading → List Char
  | table key => '[' :: key.toList ++ [']', '\n']
  | element parent key =>
    ['[', '['] ++ parent.toList ++ '.' :: key.toList ++ [']', ']', '\n']

end Heading

/-- The line of a field. Its key needs no quotes. -/
def writeField (field : String × Literal) : List Char :=
  field.1.toList ++ [' ', '=', ' '] ++ field.2.write ++ ['\n']

namespace Section

/-- The lines of a section. -/
def write (s : Section) : List Char := s.heading.write ++ s.fields.flatMap writeField

end Section

/-- The lines of a document. -/
def writeSections : List Section → List Char
  | [] => []
  | [s] => s.write
  | s :: rest => s.write ++ '\n' :: writeSections rest

/-- The text of a document. -/
def documentText (ss : List Section) : String := String.ofList (writeSections ss)

/-! ### Trees -/

/-- The value of a field, if a tree is one. Numbers are signed words of 64 bits. -/
def Literal.ofTree? : Tree → Option Literal
  | .text s => some (.text s)
  | .number n => if n < Text.signedBound then some (.number n) else none
  | .flag b => some (.flag b)
  | .list [] => some .emptyArray
  | _ => none

/-- The fields of a table. -/
def fieldsOf? (entries : List (String × Tree)) : Option (List (String × Literal)) :=
  entries.mapM fun field => (Literal.ofTree? field.2).map (field.1, ·)

/-- The section of one of the tables at a path. -/
def elementOf? (parent key : String) : Tree → Option Section
  | .table entries => (fieldsOf? entries).map (⟨.element parent key, ·⟩)
  | _ => none

/-- The sections of what stands under a key: one for each table if that is a list of
tables, and otherwise a single one. -/
def sectionsOf? (key : String) : Tree → Option (List Section)
  | .table [(name, .list (item :: items))] => (item :: items).mapM (elementOf? key name)
  | .table entries => (fieldsOf? entries).map fun fields => [⟨.table key, fields⟩]
  | _ => none

/-- The sections of a tree. -/
def Tree.sections? : Tree → Option (List Section)
  | .table entries => (entries.mapM fun entry => sectionsOf? entry.1 entry.2).map List.flatten
  | _ => none

/-- Writes a tree as sections. -/
def library : Library where
  write t := t.sections?.map documentText
  read := parse

end Toml
end ScreenBridge
