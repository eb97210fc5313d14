/-
# Paths

A path is a text; slashes separate its pieces. Between the pieces, empty ones
and single dots do not count, but a single dot at the very beginning does.

Key definitions: `Path.pieces`, `Path.join`, `Path.parent?`, `Path.ancestors`.
-/

namespace ScreenBridge
namespace Path

/-- The pieces between the slashes of a text, empty ones included. -/
def splitSlash : List Char → List (List Char)
  | [] => [[]]
  | c :: cs =>
    if c = '/' then [] :: splitSlash cs
    else
      match splitSlash cs with
      | [] => [[c]]
      | piece :: pieces => (c :: piece) :: pieces

/-- The text of pieces with slashes between them. -/
def joinSlash : List (List Char) → List Char
  | [] => []
  | [piece] => piece
  | piece :: pieces => piece ++ '/' :: joinSlash pieces

/-- Does the path start at the root? -/
def isAbsolute (path : String) : Bool := path.toList.head? = some '/'

/-- Does the path end in a slash? -/
def endsInSlash (path : String) : Bool := path.toList.getLast? = some '/'

/-- The pieces of a path that are not empty. -/
def pieces (path : String) : List (List Char) :=
  (splitSlash path.toList).filter (!·.isEmpty)

/-- The path of a name inside a directory. -/
def join (base name : String) : String :=
  if base.isEmpty ∨ endsInSlash base then base ++ name else base ++ "/" ++ name

/-- A piece that does not count. -/
def isIdle (piece : List Char) : Bool := piece.isEmpty || piece = ['.']

/-- The pieces without those at the end that do not count. A dot that begins a
relative path counts. -/
def trimEnd (absolute : Bool) (pieces : List (List Char)) : List (List Char) :=
  match (pieces.reverse.dropWhile isIdle).reverse with
  | [] => if !absolute && pieces.head? = some ['.'] then [['.']] else []
  | trimmed => trimmed

/-- The path without its last piece that counts, if there is one. -/
def parent? (path : String) : Option String :=
  let absolute := isAbsolute path
  let body := if absolute then (splitSlash path.toList).tail else splitSlash path.toList
  match (trimEnd absolute body).reverse with
  | [] => none
  | _ :: rest =>
    let parent := joinSlash (trimEnd absolute rest.reverse)
    some (String.ofList (if absolute then '/' :: parent else parent))

/-- The path and the paths above it, the nearest first, no more than so many. -/
def ancestorsUpTo : Nat → String → List String
  | 0, _ => []
  | n + 1, path =>
    match parent? path with
    | none => [path]
    | some parent => path :: ancestorsUpTo n parent

/-- The path and the paths above it, the nearest first. Each of them is shorter
than the one before. -/
def ancestors (path : String) : List String :=
  ancestorsUpTo (path.length + 1) path

end Path
end ScreenBridge
