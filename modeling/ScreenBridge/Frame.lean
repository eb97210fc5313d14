/-
# Frames

A frame is a raster of colors. Decoding takes the first bytes of a segment, one
for each cell and row after row, and looks each of them up in the palette.

Key definitions: `Frame`, `Decoder`, `Decoder.paint`, `Decoder.decodeInto`,
`Decoder.decode`.
-/
import ScreenBridge.Layout
import ScreenBridge.Palette
import ScreenBridge.Raster

namespace ScreenBridge

/-- A decoded screen. -/
abbrev Frame := Raster Color

/-- Why bytes cannot be decoded. -/
inductive DecodeError
  | shortFrame (expected : UInt64) (actual : Nat)
  | gridMismatch (width height : UInt64) (actualWidth actualHeight : Nat)
  deriving DecidableEq, Repr

namespace DecodeError

/-- The sentence a person is shown. -/
def message : DecodeError → String
  | shortFrame expected actual => s!"short frame: expected {expected} grid bytes, got {actual}"
  | gridMismatch w h aw ah => s!"target grid is {aw}x{ah}, layout is {w}x{h}"

end DecodeError

/-- What decoding depends on besides the bytes. -/
structure Decoder where
  layout : Layout
  palette : Palette
  deriving DecidableEq, Repr

namespace Decoder

variable (d : Decoder)

/-- A frame of the decoder's size, all of it black. -/
def blank : Frame :=
  Raster.filled d.layout.width.toNat d.layout.height.toNat Color.black

/-- Writes the colors of the first `count` bytes over the cells of a frame of
the decoder's size. Byte `i` belongs to row `i / width` of column `i % width`. -/
def paintCells (raw : Array UInt8) (count : Nat) (cells : Array Color) : Array Color :=
  let width := d.layout.width.toNat
  let height := d.layout.height.toNat
  count.fold (fun i _ cells =>
    cells.setIfInBounds (i % width * height + i / width) (d.palette.lookup (raw.getD i 0))) cells

theorem size_paintCells (raw : Array UInt8) (count : Nat) (cells : Array Color) :
    (d.paintCells raw count cells).size = cells.size := by
  unfold paintCells
  induction count with
  | zero => simp
  | succ n ih => simpa using ih

/-- Writes the colors of the bytes over a frame, row after row. -/
def paint (raw : Array UInt8) (target : Frame) : Frame :=
  { target with
    cells := d.paintCells raw d.layout.gridLen.toNat target.cells
    size_cells := by rw [size_paintCells, target.size_cells] }

/-- Decodes into a frame that is at hand. A frame of another size is refused
before too few bytes are, and a refused frame stays as it was. -/
def decodeInto (raw : Array UInt8) (target : Frame) : Except DecodeError Unit × Frame :=
  let layout := d.layout
  if target.width ≠ layout.width.toNat ∨ target.height ≠ layout.height.toNat then
    (.error (.gridMismatch layout.width layout.height target.width target.height), target)
  else if raw.size < layout.gridLen.toNat then
    (.error (.shortFrame layout.gridLen raw.size), target)
  else (.ok (), d.paint raw target)

/-- Decodes into a new frame. Bytes behind the grid do not count. -/
def decode (raw : Array UInt8) : Except DecodeError Frame :=
  match d.decodeInto raw d.blank with
  | (.ok (), frame) => .ok frame
  | (.error e, _) => .error e

end Decoder
end ScreenBridge
