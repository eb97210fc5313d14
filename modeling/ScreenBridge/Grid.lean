/-
# Grids

A grid has columns and rows, and its cells are stored column after column, so
that cell `(x, y)` lies at index `x * height + y`. The sizes are words, and so are
the number of cells and the indices: they wrap around. A grid has all its cells
only where the product of its sizes is a word.

Key definitions: `Grid`, `Grid.filled`, `Grid.get?`, `Grid.columnRange`,
`Grid.set`, `Grid.column`, `Grid.rows`.
-/

namespace ScreenBridge

/-- Why a cell or a column of a grid cannot be reached. -/
inductive GridError
  | column (x width : Nat)
  | range (start stop length : Nat)
  | index (i length : Nat)
  deriving DecidableEq, Repr

namespace GridError

/-- The sentence a person is shown. -/
def message : GridError → String
  | column x width => s!"column {x} out of range (width {width})"
  | range start stop length =>
    if stop < start then s!"slice index starts at {start} but ends at {stop}"
    else s!"range end index {stop} out of range for slice of length {length}"
  | index i length => s!"index out of bounds: the len is {length} but the index is {i}"

end GridError

/-- A grid of `width` columns and `height` rows, stored column by column, with as
many cells as the product of the two words. -/
structure Grid (α : Type) where
  width : UInt64
  height : UInt64
  cells : Array α
  size_cells : cells.size = (width * height).toNat
  deriving DecidableEq

namespace Grid

variable {α : Type}

/-- The grid with the same value in every cell. -/
def filled (width height : UInt64) (fill : α) : Grid α where
  width := width
  height := height
  cells := Array.replicate (width * height).toNat fill
  size_cells := by simp

variable (grid : Grid α)

/-- The value at column `x` and row `y`, if the grid has that cell. -/
def get? (x y : UInt64) : Option α :=
  if x < grid.width ∧ y < grid.height then grid.cells[(x * grid.height + y).toNat]? else none

/-- The indices at which column `x` begins and ends. -/
def columnRange (x : UInt64) : Except GridError (UInt64 × UInt64) :=
  if x < grid.width then
    let start := x * grid.height
    let stop := (x + 1) * grid.height
    if stop < start ∨ grid.cells.size < stop.toNat then
      .error (.range start.toNat stop.toNat grid.cells.size)
    else .ok (start, stop)
  else .error (.column x.toNat grid.width.toNat)

/-- The grid with another value at column `x` and row `y`. A column outside the
grid is reported before a row outside it. -/
def set (x y : UInt64) (value : α) : Except GridError (Grid α) :=
  match grid.columnRange x with
  | .ok (start, stop) =>
    if y < stop - start then
      .ok { grid with
        cells := grid.cells.setIfInBounds (start + y).toNat value
        size_cells := by simp [grid.size_cells] }
    else .error (.index y.toNat (stop - start).toNat)
  | .error e => .error e

/-- The values of column `x`, from the top. -/
def column (x : UInt64) : Except GridError (List α) :=
  (grid.columnRange x).map fun (start, stop) =>
    (grid.cells.extract start.toNat stop.toNat).toList

/-- The value at an index. -/
def cellAt (i : UInt64) : Except GridError α :=
  match grid.cells[i.toNat]? with
  | some value => .ok value
  | none => .error (.index i.toNat grid.cells.size)

/-- The values row after row, each row from the left. -/
def rows : Except GridError (List α) := do
  let rows ← (List.range grid.height.toNat).mapM fun y =>
    (List.range grid.width.toNat).mapM fun x =>
      grid.cellAt (x.toUInt64 * grid.height + y.toUInt64)
  return rows.flatten

/-- The values column after column, each column from the top. -/
def columns : List α := grid.cells.toList

end Grid
end ScreenBridge
