/-
# Rasters

A raster is a grid that has all its cells, so that indices can be counted and need
not wrap around. The grids of a screen are rasters, as the number of their cells is
a word.

Key definitions: `Raster`, `Raster.filled`, `Raster.get?`, `Raster.set`,
`Raster.rows`.
-/
import ScreenBridge.Grid

namespace ScreenBridge

/-- A raster of `width` columns and `height` rows, stored column by column. -/
structure Raster (α : Type) where
  width : Nat
  height : Nat
  cells : Array α
  size_cells : cells.size = width * height
  deriving DecidableEq

namespace Raster

variable {α : Type}

/-- The raster with the same value in every cell. -/
def filled (width height : Nat) (fill : α) : Raster α where
  width := width
  height := height
  cells := Array.replicate (width * height) fill
  size_cells := by simp

variable (raster : Raster α)

/-- The value at column `x` and row `y`, if the raster has that cell. -/
def get? (x y : Nat) : Option α :=
  if x < raster.width ∧ y < raster.height then raster.cells[x * raster.height + y]? else none

/-- The raster with another value at column `x` and row `y`. -/
def set (x y : Nat) (value : α) : Except GridError (Raster α) :=
  if x < raster.width then
    if y < raster.height then
      .ok { raster with
        cells := raster.cells.setIfInBounds (x * raster.height + y) value
        size_cells := by simp [raster.size_cells] }
    else .error (.index y raster.height)
  else .error (.column x raster.width)

/-- The values row after row, each row from the left. -/
def rows : List α :=
  (List.range raster.height).flatMap fun y =>
    (List.range raster.width).filterMap fun x => raster.cells[x * raster.height + y]?

/-- The values column after column, each column from the top. -/
def columns : List α := raster.cells.toList

end Raster
end ScreenBridge
