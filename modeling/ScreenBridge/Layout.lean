/-
# Layout of the shared segment

The machine publishes its screen as one byte per pixel, row after row. Behind
the grid lie two bytes of keyboard status, columns before rows, and behind them
one byte for each joystick port:

    0                      width * height   +1     +2     +3
    |------- grid -------------|-- cols --|-- rows --|-- joy 1 --|-- joy 2 --|

A segment may end after the keyboard bytes. A layout exists only for a grid that
is not empty and whose whole segment can be addressed with 64-bit words, so
none of the offsets below wraps.

Key definitions: `Layout`, `Layout.new`, `Layout.gridLen`, `Layout.colOffset`,
`Layout.rowOffset`, `Layout.joystickOffset`, `Layout.minLen`, `Layout.fullLen`.
-/
import ScreenBridge.Word

namespace ScreenBridge

/-- Why a width and a height are no layout. -/
inductive LayoutError
  | emptyGrid (width height : UInt64)
  | overflow (width height : UInt64)
  deriving DecidableEq, Repr

namespace LayoutError

/-- The sentence a person is shown. -/
def message : LayoutError → String
  | emptyGrid w h => s!"frame dimensions must be non-zero, got {w}x{h}"
  | overflow w h => s!"frame dimensions {w}x{h} overflow the address space"

end LayoutError

/-- The size of the grid that heads a segment. -/
structure Layout where
  width : UInt64
  height : UInt64
  deriving DecidableEq, Repr

namespace Layout

/-- The number of keyboard status bytes. -/
def keyboardLen : UInt64 := 2

/-- The number of joystick bytes. -/
def joystickLen : UInt64 := 2

/-- The layout for a grid of so many columns and rows. -/
def new (width height : UInt64) : Except LayoutError Layout :=
  if width = 0 ∨ height = 0 then .error (.emptyGrid width height)
  else
    match (Word.mul? width height).bind (Word.add? · (keyboardLen + joystickLen)) with
    | some _ => .ok ⟨width, height⟩
    | none => .error (.overflow width height)

/-- The layout of a 320 by 200 screen with its border. -/
def standard : Layout := ⟨402, 292⟩

variable (l : Layout)

/-- The number of grid bytes. -/
def gridLen : UInt64 := l.width * l.height

/-- Where the keyboard column byte lies. -/
def colOffset : UInt64 := l.gridLen

/-- Where the keyboard row byte lies. -/
def rowOffset : UInt64 := l.gridLen + 1

/-- Where the byte of a joystick port lies. There are ports 1 and 2. -/
def joystickOffset (port : UInt8) : Option UInt64 :=
  if port = 1 ∨ port = 2 then some (l.gridLen + keyboardLen + (port - 1).toUInt64) else none

/-- The length a segment has at least: grid and keyboard bytes. -/
def minLen : UInt64 := l.gridLen + keyboardLen

/-- The length of a segment with joystick bytes. -/
def fullLen : UInt64 := l.minLen + joystickLen

end Layout
end ScreenBridge
