/-
# Growing tables

The lines of a document add to its tables. A line names a place by a path of
keys; going along the path makes the tables that are missing, and enters those
that are there only if their kind allows it. The last of the tables of a double
header stands for all of them.

Key definitions: `Toml.KeyPath`, `Toml.Descent`, `Toml.modifyAt`, `Toml.insert`,
`Toml.openTable`, `Toml.openElement`.
-/
import ScreenBridge.Toml.Value

namespace ScreenBridge
namespace Toml

/-- A dotted key: the keys before the last, and the last. -/
structure KeyPath where
  parents : List String
  last : String
  deriving DecidableEq, Repr

namespace KeyPath

/-- All keys of the path. -/
def keys (path : KeyPath) : List String := path.parents ++ [path.last]

end KeyPath

/-- How a path is followed: the kind of the tables made on the way, and the
kinds that may be entered. -/
structure Descent where
  fresh : TableKind
  enters : List TableKind
  deriving DecidableEq, Repr

namespace Descent

/-- A header reaches everything but what stands between braces. -/
def byHeader : Descent := ⟨.implied, [.header, .implied, .dotted]⟩

/-- A dotted key does not reach into tables with a header of their own. -/
def byDottedKey : Descent := ⟨.dotted, [.implied, .dotted]⟩

/-- A dotted key between braces reaches only what such keys made. -/
def betweenBraces : Descent := ⟨.inlineDotted, [.inlineDotted]⟩

end Descent

/-- Changes the table at a path, given the table in which the path begins. The
change sees the kind of the table. -/
def modifyAt (d : Descent) (change : TableKind → Entries → Option Entries) :
    List String → TableKind → Entries → Option Entries
  | [], kind, entries => change kind entries
  | key :: path, _, entries =>
    match entries.lookup key with
    | none =>
      (modifyAt d change path d.fresh []).map fun inner => entries ++ [(key, .table d.fresh inner)]
    | some (.table kind inner) =>
      if kind ∈ d.enters then
        (modifyAt d change path kind inner).map fun inner => entries.set key (.table kind inner)
      else none
    | some (.tables elements) =>
      match elements.getLast? with
      | none => none
      | some inner =>
        (modifyAt d change path .header inner).map fun inner =>
          entries.set key (.tables (elements.dropLast ++ [inner]))
    | some _ => none

/-- Adds a value under a key that is free. -/
def addNew (key : String) (value : Value) (entries : Entries) : Option Entries :=
  if (entries.lookup key).isSome then none else some (entries ++ [(key, value)])

/-- Adds the value of a dotted key. The table that takes it is the one in which
the key begins, or one that dotted keys made. -/
def insert (d : Descent) (path : KeyPath) (value : Value) (entries : Entries) : Option Entries :=
  modifyAt d
    (fun kind entries =>
      if path.parents ≠ [] ∧ kind ≠ d.fresh then none else addNew path.last value entries)
    path.parents .header entries

/-- Gives a table its header. A table that other headers implied is moved to the
end; no other may be there. -/
def openTable (key : String) (entries : Entries) : Option Entries :=
  match entries.lookup key with
  | none => some (entries ++ [(key, .table .header [])])
  | some (.table .implied inner) => some (entries.erase key ++ [(key, .table .header inner)])
  | some _ => none

/-- Adds an element to the tables of a double header. -/
def openElement (key : String) (entries : Entries) : Option Entries :=
  match entries.lookup key with
  | none => some (entries ++ [(key, .tables [[]])])
  | some (.tables elements) => some (entries.set key (.tables (elements ++ [[]])))
  | some _ => none

end Toml
end ScreenBridge
