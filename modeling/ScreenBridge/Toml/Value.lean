/-
# TOML values

A document is a table, and a table is a list of entries in the order in which
they came to be. Tables differ in how they came to be, since that decides what a
later line may still add to them.

Key definitions: `Toml.TableKind`, `Toml.Value`, `Toml.Entries`,
`Toml.Entries.set`.
-/

namespace ScreenBridge
namespace Toml

/-- How a table came to be. -/
inductive TableKind
  /-- By a header of its own; the document and the elements that a double header
  adds count here too. -/
  | header
  /-- On the way to the table of some header. -/
  | implied
  /-- On the way to the value of a dotted key. -/
  | dotted
  /-- Between braces. -/
  | inline
  /-- On the way to the value of a dotted key between braces. -/
  | inlineDotted
  deriving DecidableEq, Repr

/-- A value. Of a float and of a date or time only the text is kept. -/
inductive Value
  | string (text : String)
  | integer (n : Int)
  | float (text : String)
  | boolean (b : Bool)
  | dateTime (text : String)
  | array (items : List Value)
  | table (kind : TableKind) (entries : List (String × Value))
  /-- The tables of double headers. -/
  | tables (elements : List (List (String × Value)))
  deriving Repr

/-- The entries of a table. -/
abbrev Entries := List (String × Value)

namespace Entries

/-- Puts a value under a key: in the place of the value that is there, or at the
end. -/
def set (key : String) (value : Value) : Entries → Entries
  | [] => [(key, value)]
  | (k, v) :: rest => if k = key then (key, value) :: rest else (k, v) :: set key value rest

/-- The entries without that of a key. -/
def erase (key : String) (entries : Entries) : Entries :=
  entries.filter (·.1 ≠ key)

end Entries
end Toml
end ScreenBridge
