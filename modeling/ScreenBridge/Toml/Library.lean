/-
# Libraries for TOML

Settings are written and read by a library. It makes a document of a tree of values,
and of a document it yields the entries.

Key definitions: `Toml.Tree`, `Toml.Library`.
-/
import ScreenBridge.Toml.Value

namespace ScreenBridge
namespace Toml

/-- What is to be written. -/
inductive Tree
  | text (s : String)
  | number (n : Nat)
  | flag (b : Bool)
  | list (items : List Tree)
  | table (entries : List (String × Tree))
  deriving Repr

/-- What writes and reads documents. -/
structure Library where
  /-- The document of a tree, if the tree can be written. -/
  write : Tree → Option String
  /-- The entries of a text, if it is a document. -/
  read : String → Option Entries

end Toml
end ScreenBridge
