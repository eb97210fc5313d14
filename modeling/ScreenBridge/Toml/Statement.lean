/-
# The statements of a TOML document

A document is a list of statements, each on a line of its own: a header, a
double header, or a key with its value. Values between brackets may go over
several lines, those between braces may not. Brackets and braces nest at most 79
deep, and a dotted key has at most 79 parts.

Key definitions: `Toml.scanKeyPath`, `Toml.scanValue`, `Toml.Statement`,
`Toml.scanStatement`, `Toml.statements`.
-/
import ScreenBridge.Toml.Moment
import ScreenBridge.Toml.Table

namespace ScreenBridge
namespace Toml

/-! ### Keys -/

/-- The characters of a key without quotes. -/
def isBareChar (c : Char) : Bool := c.isAlphanum || c = '-' || c = '_'

/-- Takes a key. -/
def scanKey (cs : List Char) : Option (String × List Char) :=
  match scanShortText cs with
  | some (key, rest) => some (String.ofList key, rest)
  | none =>
    let key := cs.takeWhile isBareChar
    if key.isEmpty then none else some (String.ofList key, cs.dropWhile isBareChar)

/-- How deep values nest and how long a dotted key is, at most. -/
def maxDepth : Nat := 79

/-- Takes a dotted key of at most so many parts, with the spaces around them. -/
def scanKeyPathUpTo : Nat → List Char → Option (KeyPath × List Char)
  | 0, _ => none
  | n + 1, cs =>
    match scanKey (skipSpace cs) with
    | none => none
    | some (key, rest) =>
      match skipSpace rest with
      | '.' :: rest =>
        (scanKeyPathUpTo n rest).map fun (path, rest) => (⟨key :: path.parents, path.last⟩, rest)
      | rest => some (⟨[], key⟩, rest)

/-- Takes a dotted key with the spaces around its parts. -/
def scanKeyPath (cs : List Char) : Option (KeyPath × List Char) := scanKeyPathUpTo maxDepth cs

/-! ### Values -/

/-- Takes a value that holds no others. -/
def scanScalar (cs : List Char) : Option (Value × List Char) :=
  match cs with
  | 't' :: 'r' :: 'u' :: 'e' :: rest => some (.boolean true, rest)
  | 'f' :: 'a' :: 'l' :: 's' :: 'e' :: rest => some (.boolean false, rest)
  | _ =>
    match scanText cs with
    | some (text, rest) => some (.string (String.ofList text), rest)
    | none => if beginsDate cs || beginsTime cs then scanMoment cs else scanNumber cs

/-- Takes the items of an array and its closing bracket, in no more than so many
rounds. -/
def scanItems (item : Scanner Value) : Nat → List Char → Option (List Value × List Char)
  | 0, _ => none
  | n + 1, cs =>
    match skipFiller cs with
    | none => none
    | some (']' :: rest) => some ([], rest)
    | some cs =>
      match item cs with
      | none => none
      | some (value, rest) =>
        match skipFiller rest with
        | some (',' :: rest) =>
          (scanItems item n rest).map fun (values, rest) => (value :: values, rest)
        | some (']' :: rest) => some ([value], rest)
        | _ => none

/-- Takes a key, the equals sign and the value. -/
def scanPair (item : Scanner Value) (cs : List Char) :
    Option ((KeyPath × Value) × List Char) :=
  match scanKeyPath cs with
  | some (path, '=' :: rest) =>
    (item (skipSpace rest)).map fun (value, rest) => ((path, value), rest)
  | _ => none

/-- Takes the pairs of a table between braces and its closing brace, in no more
than so many rounds. -/
def scanPairs (item : Scanner Value) :
    Nat → List Char → Option (List (KeyPath × Value) × List Char)
  | 0, _ => none
  | n + 1, cs =>
    match scanPair item cs with
    | none => none
    | some (pair, rest) =>
      match skipSpace rest with
      | ',' :: rest => (scanPairs item n rest).map fun (pairs, rest) => (pair :: pairs, rest)
      | '\x7d' :: rest => some ([pair], rest)
      | _ => none

/-- The table of pairs between braces. -/
def inlineTable (pairs : List (KeyPath × Value)) : Option Value :=
  (pairs.foldlM (fun entries (path, value) => insert .betweenBraces path value entries) []).map
    (.table .inline)

/-- Takes a table between braces, behind the opening one. -/
def scanInlineTable (item : Scanner Value) (cs : List Char) : Option (Value × List Char) :=
  match skipSpace cs with
  | '\x7d' :: rest => some (.table .inline [], rest)
  | _ =>
    match scanPairs item cs.length cs with
    | some (pairs, rest) => (inlineTable pairs).map (·, rest)
    | none => none

/-- Takes a value in which brackets and braces nest at most so deep. -/
def scanValueIn : Nat → List Char → Option (Value × List Char)
  | 0, cs => scanScalar cs
  | depth + 1, cs =>
    match cs with
    | '[' :: rest =>
      (scanItems (scanValueIn depth) rest.length rest).map fun (items, rest) =>
        (.array items, rest)
    | '\x7b' :: rest => scanInlineTable (scanValueIn depth) rest
    | cs => scanScalar cs

/-- Takes a value. -/
def scanValue (cs : List Char) : Option (Value × List Char) := scanValueIn maxDepth cs

/-! ### Statements -/

/-- A line of a document that says something. -/
inductive Statement
  | header (path : KeyPath)
  | elementHeader (path : KeyPath)
  | entry (path : KeyPath) (value : Value)
  deriving Repr

/-- Takes a statement, or nothing from a line that says nothing, with the end of
its line. -/
def scanStatement (cs : List Char) : Option (Option Statement × List Char) :=
  match cs with
  | '[' :: '[' :: rest =>
    match scanKeyPath rest with
    | some (path, ']' :: ']' :: rest) => (scanLineEnd rest).map (some (.elementHeader path), ·)
    | _ => none
  | '[' :: rest =>
    match scanKeyPath rest with
    | some (path, ']' :: rest) => (scanLineEnd rest).map (some (.header path), ·)
    | _ => none
  | '#' :: _ => (scanLineEnd cs).map (none, ·)
  | '\n' :: _ => (scanLineEnd cs).map (none, ·)
  | '\r' :: _ => (scanLineEnd cs).map (none, ·)
  | cs =>
    match scanPair scanValue cs with
    | some ((path, value), rest) => (scanLineEnd rest).map (some (.entry path value), ·)
    | none => none

/-- The statements of a text, in no more than so many lines. -/
def statementsUpTo : Nat → List Char → Option (List Statement)
  | 0, _ => none
  | n + 1, cs =>
    match skipSpace cs with
    | [] => some []
    | cs =>
      match scanStatement cs with
      | none => none
      | some (statement?, rest) =>
        (statementsUpTo n rest).map fun statements => statement?.toList ++ statements

/-- The text without the byte order mark at its front. -/
def dropByteOrderMark : List Char → List Char
  | [] => []
  | c :: cs => if c.toNat = 0xfeff then cs else c :: cs

/-- The statements of a document. Every line has at least one character, its
end, but for the last. -/
def statements (text : String) : Option (List Statement) :=
  let cs := dropByteOrderMark text.toList
  statementsUpTo (cs.length + 1) cs

end Toml
end ScreenBridge
