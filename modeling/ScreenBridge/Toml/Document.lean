/-
# TOML documents

The statements of a document build its table, one after another. Keys without a
header in front of them belong to the document itself, others to the table that
the last header opened.

Key definitions: `Toml.Document`, `Toml.Document.apply`, `Toml.parse`.
-/
import ScreenBridge.Toml.Statement

namespace ScreenBridge
namespace Toml

/-- A document while it is read. -/
structure Document where
  root : Entries
  /-- The path of the table that the last header opened. -/
  current : List String
  deriving Repr

namespace Document

/-- A document without statements. -/
def empty : Document := ⟨[], []⟩

variable (doc : Document)

/-- The document after one more statement, if the statement fits in. -/
def apply : Statement → Option Document
  | .header path =>
    (modifyAt .byHeader (fun _ => openTable path.last) path.parents .header doc.root).map
      (⟨·, path.keys⟩)
  | .elementHeader path =>
    (modifyAt .byHeader (fun _ => openElement path.last) path.parents .header doc.root).map
      (⟨·, path.keys⟩)
  | .entry path value =>
    (modifyAt .byHeader (fun _ => insert .byDottedKey path value) doc.current .header
      doc.root).map (⟨·, doc.current⟩)

end Document

/-- The entries of the document that statements build. -/
def build (statements : List Statement) : Option Entries :=
  (statements.foldlM Document.apply Document.empty).map (·.root)

/-- The entries of a document. -/
def parse (text : String) : Option Entries := (statements text).bind build

end Toml
end ScreenBridge
