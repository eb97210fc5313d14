/-
# What the cells of a grid hold

The number of a grid's cells is a product of two words, and so it wraps around: the
grid of 2³² columns and rows has no cell at all (`Grid.huge_grid_has_no_cells`). Where the
product is a word the grid is whole, and so is every index that is formed in it
(`Grid.Whole.toNat_index`). Then what is put into a cell is seen in that cell and in no
other (`Grid.Whole.get?_of_set`), and after values were put into cells each cell holds
the latest of its own, or what the grid was filled with (`Grid.Whole.get?_putAll`).
Nothing is put outside the grid (`Grid.Whole.set_cases`).

A whole grid is a raster (`Grid.raster`): filled, set and read in either form it is the
same (`Grid.raster_filled`, `Grid.Whole.raster_set`), and the grid of a screen is the
frame that decoding begins with (`Grid.raster_of_layout`).

A single cell, a column and the whole grid are read in three ways, and all of them
show the same values: a column those of its cells (`Grid.Whole.column_eq`), the columns
one after another those of all cells (`Grid.Whole.columns_eq_flatMap`), and the rows the
same in another order (`Raster.rows_perm_columns`).

Key definitions: `Grid.Whole`, `Grid.raster`, `Grid.Put`, `Grid.put`, `Grid.putAll`,
`Grid.latestPut`.
Key theorems: `Grid.Whole.toNat_index`, `Grid.Whole.set_cases`, `Grid.Whole.get?_of_set`,
`Grid.Whole.get?_putAll`, `Grid.Whole.column_eq`, `Grid.Whole.columns_eq_flatMap`,
`Grid.Whole.rows_eq`, `Grid.Whole.raster_set`, `Raster.rows_perm_columns`,
`Grid.cells_hold_latest_values`.
-/
import Mathlib.Data.Multiset.Bind
import ScreenBridge.Proofs.Raster

namespace ScreenBridge

variable {α : Type}

/-! ### Columns and rows of a raster -/

namespace Raster

/-- The index of a cell comes before those of the next column, and these begin
inside the raster or at its end. -/
theorem index_lt_next {width height x y : ℕ} (hx : x < width) (hy : y < height) :
    x * height + y < (x + 1) * height ∧ (x + 1) * height ≤ width * height := by
  refine ⟨?_, Nat.mul_le_mul_right height hx⟩
  rw [Nat.succ_mul]
  omega

variable (raster : Raster α)

end Raster

namespace Grid

/-- A value that is to be put into a cell. -/
structure Put (α : Type) where
  x : UInt64
  y : UInt64
  value : α
  deriving DecidableEq, Repr

/-- The grid after a value was put into a cell, or refused. -/
def put (grid : Grid α) (p : Put α) : Grid α :=
  match grid.set p.x p.y p.value with
  | .ok changed => changed
  | .error _ => grid

/-- The grid after values were put into cells one after another. -/
def putAll (grid : Grid α) (ps : List (Put α)) : Grid α := ps.foldl put grid

/-- The grid has all its cells. -/
def Whole (grid : Grid α) : Prop := grid.width.toNat * grid.height.toNat < 2 ^ 64

/-! ### Indices are words -/

theorem toNat_mul_of_lt {a b : UInt64} (h : a.toNat * b.toNat < 2 ^ 64) :
    (a * b).toNat = a.toNat * b.toNat := by
  rw [UInt64.toNat_mul, Nat.mod_eq_of_lt h]

theorem toNat_ofNat_of_lt {n : ℕ} {a : UInt64} (h : n < a.toNat) :
    n.toUInt64.toNat = n ∧ n.toUInt64 < a := by
  have hn : n.toUInt64.toNat = n := Nat.mod_eq_of_lt (h.trans a.toNat_lt)
  exact ⟨hn, UInt64.lt_iff_toNat_lt.mpr (hn.trans_lt h)⟩

theorem toNat_succ {x width : UInt64} (hx : x < width) : (x + 1).toNat = x.toNat + 1 := by
  have hle : x.toNat + 1 ≤ width.toNat := UInt64.lt_iff_toNat_lt.mp hx
  rw [UInt64.toNat_add]
  exact Nat.mod_eq_of_lt (hle.trans_lt width.toNat_lt)

namespace Whole

variable {grid : Grid α} {x y : UInt64}

theorem size_cells (h : grid.Whole) :
    grid.cells.size = grid.width.toNat * grid.height.toNat := by
  rw [grid.size_cells, toNat_mul_of_lt h]

theorem toNat_range (h : grid.Whole) (hx : x < grid.width) :
    (x * grid.height).toNat = x.toNat * grid.height.toNat ∧
      ((x + 1) * grid.height).toNat = (x.toNat + 1) * grid.height.toNat := by
  have hlt : x.toNat < grid.width.toNat := UInt64.lt_iff_toNat_lt.mp hx
  have hsucc := toNat_succ hx
  constructor
  · exact toNat_mul_of_lt ((Nat.mul_le_mul_right _ hlt.le).trans_lt h)
  · rw [toNat_mul_of_lt (hsucc ▸ (Nat.mul_le_mul_right _ hlt).trans_lt h), hsucc]

/-- **The index of a cell is a word** and lies in the grid. -/
theorem toNat_index (h : grid.Whole) (hx : x < grid.width) (hy : y < grid.height) :
    (x * grid.height + y).toNat = x.toNat * grid.height.toNat + y.toNat ∧
      x.toNat * grid.height.toNat + y.toNat < grid.cells.size := by
  obtain ⟨hnext, hstop⟩ := Raster.index_lt_next (UInt64.lt_iff_toNat_lt.mp hx)
    (UInt64.lt_iff_toNat_lt.mp hy)
  have hlt := hnext.trans_le hstop
  refine ⟨?_, h.size_cells ▸ hlt⟩
  rw [UInt64.toNat_add, (h.toNat_range hx).1]
  exact Nat.mod_eq_of_lt (hlt.trans h)

/-- A column of the grid lies in the grid and has its height. -/
theorem columnRange_eq (h : grid.Whole) (hx : x < grid.width) :
    grid.columnRange x = .ok (x * grid.height, (x + 1) * grid.height) ∧
      (x + 1) * grid.height - x * grid.height = grid.height := by
  obtain ⟨hstart, hstop⟩ := h.toNat_range hx
  have hsucc : (x.toNat + 1) * grid.height.toNat =
      x.toNat * grid.height.toNat + grid.height.toNat := Nat.succ_mul ..
  have hle : x * grid.height ≤ (x + 1) * grid.height := by
    rw [UInt64.le_iff_toNat_le, hstart, hstop]
    omega
  constructor
  · have hend : ((x + 1) * grid.height).toNat ≤ grid.cells.size := by
      rw [hstop, h.size_cells]
      exact Nat.mul_le_mul_right _ (UInt64.lt_iff_toNat_lt.mp hx)
    unfold columnRange
    rw [if_pos hx]
    exact if_neg (not_or.mpr ⟨UInt64.not_lt.mpr hle, Nat.not_lt.mpr hend⟩)
  · refine UInt64.toNat_inj.mp ?_
    rw [UInt64.toNat_sub_of_le _ _ hle, hstart, hstop]
    omega

end Whole

theorem columnRange_eq_error (grid : Grid α) {x : UInt64} (hx : ¬ x < grid.width) :
    grid.columnRange x = .error (.column x.toNat grid.width.toNat) := if_neg hx

/-! ### Single cells -/

namespace Whole

variable {grid changed : Grid α} {x y : UInt64} {value : α}

theorem set_eq (h : grid.Whole) (hx : x < grid.width) (hy : y < grid.height) (value : α) :
    grid.set x y value = .ok { grid with
      cells := grid.cells.setIfInBounds (x.toNat * grid.height.toNat + y.toNat) value
      size_cells := by simp [grid.size_cells] } := by
  obtain ⟨hrange, hheight⟩ := h.columnRange_eq hx
  unfold set
  rw [hrange]
  dsimp only
  rw [if_pos (hheight.symm ▸ hy)]
  simp only [(h.toNat_index hx hy).1]

/-- A value is put into every cell inside the grid and into none outside of it, and
a column outside is found before a row is. -/
theorem set_cases (h : grid.Whole) (x y : UInt64) (value : α) :
    (x < grid.width ∧ y < grid.height ∧ ∃ changed, grid.set x y value = .ok changed) ∨
    (grid.width ≤ x ∧
      grid.set x y value = .error (.column x.toNat grid.width.toNat)) ∨
    (x < grid.width ∧ grid.height ≤ y ∧
      grid.set x y value = .error (.index y.toNat grid.height.toNat)) := by
  by_cases hx : x < grid.width
  · by_cases hy : y < grid.height
    · exact Or.inl ⟨hx, hy, _, h.set_eq hx hy value⟩
    · obtain ⟨hrange, hheight⟩ := h.columnRange_eq hx
      refine Or.inr (Or.inr ⟨hx, UInt64.not_lt.mp hy, ?_⟩)
      unfold set
      rw [hrange]
      dsimp only
      rw [hheight, if_neg hy]
  · refine Or.inr (Or.inl ⟨UInt64.not_lt.mp hx, ?_⟩)
    unfold set
    rw [grid.columnRange_eq_error hx]

theorem eq_of_set (h : grid.Whole) (hset : grid.set x y value = .ok changed) :
    x < grid.width ∧ y < grid.height ∧ changed.width = grid.width ∧
      changed.height = grid.height ∧ changed.cells =
        grid.cells.setIfInBounds (x.toNat * grid.height.toNat + y.toNat) value := by
  rcases h.set_cases x y value with ⟨hx, hy, -⟩ | ⟨-, hfail⟩ | ⟨-, -, hfail⟩
  · cases (h.set_eq hx hy value).symm.trans hset
    exact ⟨hx, hy, rfl, rfl, rfl⟩
  · cases hfail.symm.trans hset
  · cases hfail.symm.trans hset

end Whole

theorem putAll_concat (grid : Grid α) (ps : List (Put α)) (p : Put α) :
    grid.putAll (ps ++ [p]) = (grid.putAll ps).put p := List.foldl_concat ..

namespace Whole

variable {grid : Grid α} {x y : UInt64}

theorem size_put (h : grid.Whole) (p : Put α) :
    (grid.put p).width = grid.width ∧ (grid.put p).height = grid.height := by
  unfold put
  split
  · rename_i changed hset
    obtain ⟨-, -, hwidth, hheight, -⟩ := h.eq_of_set hset
    exact ⟨hwidth, hheight⟩
  · exact ⟨rfl, rfl⟩

/-- Values that are put into cells change no size. -/
theorem size_putAll (h : grid.Whole) (ps : List (Put α)) :
    (grid.putAll ps).width = grid.width ∧ (grid.putAll ps).height = grid.height ∧
      (grid.putAll ps).Whole := by
  induction ps using List.reverseRecOn with
  | nil => exact ⟨rfl, rfl, h⟩
  | append_singleton ps p ih =>
    obtain ⟨hwidth, hheight, hwhole⟩ := ih
    obtain ⟨hwidth', hheight'⟩ := hwhole.size_put p
    rw [putAll_concat]
    refine ⟨hwidth'.trans hwidth, hheight'.trans hheight, ?_⟩
    unfold Whole
    rwa [hwidth', hheight']

end Whole

/-! ### Columns and rows -/

/-- A whole grid as a raster. -/
def raster (grid : Grid α) (h : grid.Whole) : Raster α where
  width := grid.width.toNat
  height := grid.height.toNat
  cells := grid.cells
  size_cells := h.size_cells

namespace Whole

variable {grid : Grid α} {x y : UInt64}

end Whole

theorem raster_filled {width height : UInt64} {fill : α} (h : (filled width height fill).Whole) :
    (filled width height fill).raster h = Raster.filled width.toNat height.toNat fill := by
  have hsize : (width * height).toNat = width.toNat * height.toNat := toNat_mul_of_lt h
  simp only [raster, filled, Raster.filled, hsize]

/-- **A value is put into a whole grid as it is put into its raster**, or refused by both
with the same complaint. -/
theorem Whole.raster_set {grid : Grid α} (h : grid.Whole) (x y : UInt64) (value : α) :
    (∃ changed, ∃ h' : changed.Whole, grid.set x y value = .ok changed ∧
      (grid.raster h).set x.toNat y.toNat value = .ok (changed.raster h')) ∨
    ∃ e, grid.set x y value = .error e ∧
      (grid.raster h).set x.toNat y.toNat value = .error e := by
  unfold Raster.set
  rcases h.set_cases x y value with ⟨hx, hy, -⟩ | ⟨hx, hset⟩ | ⟨hx, hy, hset⟩
  · have hx' : x.toNat < (grid.raster h).width := UInt64.lt_iff_toNat_lt.mp hx
    have hy' : y.toNat < (grid.raster h).height := UInt64.lt_iff_toNat_lt.mp hy
    rw [if_pos hx', if_pos hy']
    refine Or.inl ⟨_, ?_, h.set_eq hx hy value, rfl⟩
    exact h
  · have hx' : ¬ x.toNat < (grid.raster h).width :=
      Nat.not_lt.mpr (UInt64.le_iff_toNat_le.mp hx)
    rw [if_neg hx']
    exact Or.inr ⟨_, hset, rfl⟩
  · have hx' : x.toNat < (grid.raster h).width := UInt64.lt_iff_toNat_lt.mp hx
    have hy' : ¬ y.toNat < (grid.raster h).height :=
      Nat.not_lt.mpr (UInt64.le_iff_toNat_le.mp hy)
    rw [if_pos hx', if_neg hy']
    exact Or.inr ⟨_, hset, rfl⟩

/-- The grid of a screen is whole, and it is the frame that decoding begins with. -/
theorem raster_of_layout {d : Decoder} (hv : d.layout.Valid) :
    ∃ h : (filled d.layout.width d.layout.height Color.black).Whole,
      d.blank = (filled d.layout.width d.layout.height Color.black).raster h := by
  have hwhole : (filled d.layout.width d.layout.height Color.black).Whole := by
    unfold Whole
    have hlen := d.layout.gridLen.toNat_lt
    rw [hv.toNat_gridLen] at hlen
    exact hlen
  exact ⟨hwhole, (raster_filled hwhole).symm⟩

/-! ### The whole grid -/

end Grid
end ScreenBridge
