/-
# Colors

A color is the pixel word `0x00BBGGRR` the display expects. People write colors
the other way round, as six hexadecimal digits `RRGGBB`; swapping the first and
the last pair of digits gives the digits of the pixel word.

Key definitions: `Color`, `Color.ofRgb`, `Color.swapHex`, `Color.ofHex`.
-/
import ScreenBridge.Text.Quoted

namespace ScreenBridge

/-- A color constant that is not six hexadecimal digits. -/
structure InvalidHex where
  constant : String
  deriving DecidableEq, Repr

namespace InvalidHex

/-- The sentence a person is shown. -/
def message (e : InvalidHex) : String :=
  s!"color constant {Text.quoted e.constant} is not six hex digits"

end InvalidHex

/-- A color of the display. -/
structure Color where
  pixel : UInt32
  deriving DecidableEq, Repr, Inhabited

namespace Color

/-- The color with the given channels. -/
def ofRgb (r g b : UInt8) : Color :=
  ⟨(b.toUInt32 <<< 16) ||| (g.toUInt32 <<< 8) ||| r.toUInt32⟩

/-- The color whose pixel word is zero. -/
def black : Color := ⟨0⟩

/-- The red channel. -/
def r (c : Color) : UInt8 := c.pixel.toUInt8

/-- The green channel. -/
def g (c : Color) : UInt8 := (c.pixel >>> 8).toUInt8

/-- The blue channel. -/
def b (c : Color) : UInt8 := (c.pixel >>> 16).toUInt8

/-- Is this an ASCII hexadecimal digit? -/
def isHexDigit (c : Char) : Bool := (Text.digitIn 16 c).isSome

/-- Splits a constant into the mark `0x`, if it stands in front, and the rest. -/
def splitMark : List Char → List Char × List Char
  | '0' :: 'x' :: ds => (['0', 'x'], ds)
  | ds => ([], ds)

/-- The digits of a constant with the first and the last pair exchanged. -/
def swapDigits : List Char → Option (List Char)
  | [r₁, r₀, g₁, g₀, b₁, b₀] =>
    if [r₁, r₀, g₁, g₀, b₁, b₀].all isHexDigit then some [b₁, b₀, g₁, g₀, r₁, r₀] else none
  | _ => none

/-- Exchanges red and blue in a color constant. A mark `0x` stays in front. -/
def swapHex (constant : String) : Except InvalidHex String :=
  let (mark, digits) := splitMark constant.toList
  match swapDigits digits with
  | some swapped => .ok (String.ofList (mark ++ swapped))
  | none => .error ⟨constant⟩

/-- The color a constant `RRGGBB` names: the swapped digits are those of the
pixel word. -/
def ofHex (constant : String) : Except InvalidHex Color :=
  match swapDigits (splitMark constant.toList).2 with
  | some swapped =>
    match Text.readDigits 16 (Text.wordMax 32) .tooLarge 0 swapped with
    | .ok n => .ok ⟨n.toUInt32⟩
    | .error _ => .error ⟨constant⟩
  | none => .error ⟨constant⟩

end Color
end ScreenBridge
