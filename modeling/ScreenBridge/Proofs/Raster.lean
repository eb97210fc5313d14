/-
# The rows of a raster

The cells of a raster lie column after column, and its rows are taken across them.
Place `i` of the rows is still the cell at column `i % width` of row `i / width`
(`Raster.map_some_rows`), and the rows and the size give back the raster
(`Raster.ofRows_rows`).

Key definitions: `Raster.ofRows`.
Key theorems: `Raster.map_some_rows`, `Raster.length_rows`, `Raster.getElem?_rows`,
`Raster.ofRows_rows`.
-/
import ScreenBridge.Proofs.Frame

namespace ScreenBridge
namespace Raster

variable {α β : Type}

theorem place_div_mod {width height x y : ℕ} (hx : x < width) (hy : y < height) :
    (y * width + x) % width = x ∧ (y * width + x) / width = y ∧
      y * width + x < height * width := by
  refine ⟨?_, ?_, ?_⟩
  · rw [Nat.add_comm, Nat.add_mul_mod_self_right, Nat.mod_eq_of_lt hx]
  · rw [Nat.add_comm, Nat.add_mul_div_right _ _ (by omega), Nat.div_eq_of_lt hx, Nat.zero_add]
  · calc y * width + x < y * width + width := by omega
      _ = (y + 1) * width := (Nat.succ_mul ..).symm
      _ ≤ height * width := Nat.mul_le_mul_right _ hy

theorem map_range_mul (f : ℕ → β) (width : ℕ) : ∀ height : ℕ,
    (List.range (height * width)).map f =
      (List.range height).flatMap fun y => (List.range width).map fun x => f (y * width + x)
  | 0 => by simp
  | height + 1 => by
    rw [Nat.succ_mul, List.range_add, List.map_append, map_range_mul f width height,
      List.range_succ, List.flatMap_append]
    simp [Function.comp_def]

theorem map_some_filterMap {f : β → Option α} : ∀ xs : List β, (∀ x ∈ xs, (f x).isSome = true) →
    (xs.filterMap f).map some = xs.map f
  | [], _ => rfl
  | x :: xs, hxs => by
    obtain ⟨value, hx⟩ := Option.isSome_iff_exists.mp (hxs x List.mem_cons_self)
    have hrest := map_some_filterMap xs fun x' hx' => hxs x' (List.mem_cons_of_mem _ hx')
    rw [List.filterMap_cons_some hx, List.map_cons, List.map_cons, hrest, hx]

variable (raster : Raster α)

theorem exists_get?_eq_some {x y : ℕ} (hx : x < raster.width) (hy : y < raster.height) :
    ∃ value, raster.get? x y = some value ∧ raster.cells[x * raster.height + y]? = some value := by
  have hlt : x * raster.height + y < raster.cells.size := by
    rw [raster.size_cells]
    exact (place_div_mod hy hx).2.2
  exact ⟨raster.cells[x * raster.height + y], by simp [get?, hx, hy, hlt], by simp [hlt]⟩

/-- Some rows, one after another. -/
theorem map_some_flatMap : ∀ ys : List ℕ, (∀ y ∈ ys, y < raster.height) →
    (ys.flatMap fun y => (List.range raster.width).filterMap fun x =>
      raster.cells[x * raster.height + y]?).map some =
      ys.flatMap fun y => (List.range raster.width).map fun x =>
        raster.get? ((y * raster.width + x) % raster.width) ((y * raster.width + x) / raster.width)
  | [], _ => rfl
  | y :: ys, hys => by
    have hcells : ∀ x ∈ List.range raster.width, raster.cells[x * raster.height + y]? =
          raster.get? ((y * raster.width + x) % raster.width) ((y * raster.width + x) / raster.width) ∧
        (raster.cells[x * raster.height + y]?).isSome = true := fun x hx => by
      have hy : y < raster.height := hys y List.mem_cons_self
      obtain ⟨hmod, hdiv, -⟩ := place_div_mod (List.mem_range.mp hx) hy
      obtain ⟨value, hget, hcell⟩ := raster.exists_get?_eq_some (List.mem_range.mp hx) hy
      rw [hmod, hdiv, hget, hcell]
      exact ⟨rfl, rfl⟩
    have hrow := map_some_filterMap (List.range raster.width) fun x hx => (hcells x hx).2
    have hrest := map_some_flatMap ys fun y' hy' => hys y' (List.mem_cons_of_mem _ hy')
    rw [List.flatMap_cons, List.flatMap_cons, List.map_append, hrow, hrest,
      List.map_congr_left fun x hx => (hcells x hx).1]

/-- **The rows go through the raster from the top left.** Place `i` is the cell at
column `i % width` of row `i / width`. -/
theorem map_some_rows :
    raster.rows.map some = (List.range (raster.height * raster.width)).map fun i =>
      raster.get? (i % raster.width) (i / raster.width) := by
  rw [map_range_mul]
  exact raster.map_some_flatMap _ fun y hy => List.mem_range.mp hy

theorem length_rows : raster.rows.length = raster.height * raster.width := by
  simpa using congrArg List.length raster.map_some_rows

theorem getElem?_rows {i : ℕ} (hi : i < raster.height * raster.width) :
    raster.rows[i]? = raster.get? (i % raster.width) (i / raster.width) := by
  have hplace := congrArg (fun values => values[i]?) raster.map_some_rows
  simp only [List.getElem?_map, List.getElem?_range hi, Option.map_some] at hplace
  cases hrow : raster.rows[i]? with
  | none => simp [hrow] at hplace
  | some value => simpa [hrow] using hplace

theorem mem_cells_of_mem_rows {value : α} (h : value ∈ raster.rows) : value ∈ raster.cells := by
  obtain ⟨y, -, hrow⟩ := List.mem_flatMap.mp h
  obtain ⟨x, -, hcell⟩ := List.mem_filterMap.mp hrow
  exact Array.mem_of_getElem? hcell

/-- The raster of so many columns and rows with values that come row after row. -/
def ofRows (width height : ℕ) (values : List α) (h : values.length = height * width) :
    Raster α where
  width := width
  height := height
  cells := Array.ofFn fun k : Fin (width * height) =>
    values.get ⟨k.val % height * width + k.val / height, by
      have hk : k.val < height * width := Nat.mul_comm width height ▸ k.isLt
      exact h ▸ Decoder.index_lt hk⟩
  size_cells := Array.size_ofFn

/-- **The rows give back the raster.** -/
theorem ofRows_rows : ofRows raster.width raster.height raster.rows raster.length_rows = raster := by
  refine ext_get? rfl rfl fun x y hx hy => ?_
  have hx' : x < raster.width := hx
  have hy' : y < raster.height := hy
  obtain ⟨hmod, hdiv, hlt⟩ := place_div_mod hy' hx'
  have hplace := place_div_mod hx' hy'
  have hrow := raster.getElem?_rows hplace.2.2
  rw [hplace.1, hplace.2.1] at hrow
  rw [← hrow]
  simp [get?, ofRows, hx', hy', hmod, hdiv, hlt]

end Raster
end ScreenBridge
