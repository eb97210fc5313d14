/-
# Lines of bytes

A stream of bytes is cut at newlines. A carriage return before the newline
belongs to the line ending, and the bytes after the last newline are a line of
their own unless there are none.

Key definitions: `Text.ofUtf8?`, `Text.byteLines`, `Text.completeLines`.
-/

namespace ScreenBridge
namespace Text

/-- The bytes as text, if they are well-formed UTF-8. -/
def ofUtf8? (bytes : List UInt8) : Option String :=
  String.fromUTF8? ⟨bytes.toArray⟩

/-- The line without the carriage return at its end, if there is one. -/
def dropReturn (line : List UInt8) : List UInt8 :=
  if line.getLast? = some 13 then line.dropLast else line

/-- The lines of the bytes, given what of the first line was already passed,
latest byte first. -/
def linesAfter (passed : List UInt8) : List UInt8 → List (List UInt8)
  | [] => if passed.isEmpty then [] else [passed.reverse]
  | b :: bs =>
    if b = 10 then dropReturn passed.reverse :: linesAfter [] bs
    else linesAfter (b :: passed) bs

/-- The lines of the bytes. A carriage return that no newline follows stays. -/
def byteLines (bytes : List UInt8) : List (List UInt8) :=
  linesAfter [] bytes

/-- The bytes up to the last newline, and the bytes behind it. -/
def completeLines (bytes : List UInt8) : List UInt8 × List UInt8 :=
  let rest := (bytes.reverse.takeWhile (· ≠ 10)).reverse
  (bytes.take (bytes.length - rest.length), rest)

end Text
end ScreenBridge
