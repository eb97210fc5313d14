/-
# Painting finds every byte, color and cell

Painting takes for granted that the byte, its color and its cell are there. Here
it is done with a look at each of them (`Decoder.paintStrictly`), and nothing is
ever missing if there are enough bytes and the frame has the right size
(`Decoder.Fits.paintStrictly_eq`).

Key definitions: `Decoder.paintByte?`, `Decoder.paintStrictly`.
Key theorems: `Decoder.Fits.paintByte?_eq`, `Decoder.Fits.paintStrictly_eq`.
-/
import ScreenBridge.Proofs.Frame

namespace ScreenBridge
namespace Decoder

variable {d : Decoder} {frame : Frame} {raw : Array UInt8}

/-- Paints the cell of one byte, if there is such a byte, such a color and such a
cell. -/
def paintByte? (d : Decoder) (raw : Array UInt8) (frame : Frame) (i : ℕ) : Option Frame :=
  (raw[i]?).bind fun byte =>
    (d.palette.entries.toArray[(byte &&& 15).toNat]?).bind fun color =>
      (frame.set (i % d.layout.width.toNat) (i / d.layout.width.toNat) color).toOption

/-- Paints the cells of all bytes of the grid, and stops where anything is missing. -/
def paintStrictly (d : Decoder) (raw : Array UInt8) (frame : Frame) : Option Frame :=
  (List.range d.layout.gridLen.toNat).foldlM (d.paintByte? raw) frame

/-- The frame with the cells of the first bytes painted. -/
def paintFirst (d : Decoder) (raw : Array UInt8) (frame : Frame) (count : ℕ) : Frame :=
  { frame with
    cells := d.paintCells raw count frame.cells
    size_cells := by rw [size_paintCells, frame.size_cells] }

theorem getElem?_entries (p : Palette) (byte : UInt8) :
    p.entries.toArray[(byte &&& 15).toNat]? = some (p.lookup byte) := by
  have hmod : (byte &&& 15).toNat = byte.toNat % 16 := by
    rw [UInt8.toNat_and]
    exact Nat.and_two_pow_sub_one_eq_mod byte.toNat 4
  have hlt : byte.toNat % 16 < p.entries.toArray.size := by
    rw [Vector.size_toArray]
    omega
  rw [hmod, Array.getElem?_eq_getElem hlt]
  rfl

/-- Nothing is missing for a byte of the grid. -/
theorem Fits.paintByte?_eq (hf : d.Fits frame) (i : ℕ) (hraw : i < raw.size)
    (hi : i < d.layout.width.toNat * d.layout.height.toNat) :
    d.paintByte? raw (d.paintFirst raw frame i) i = some (d.paintFirst raw frame (i + 1)) := by
  have hx : i % d.layout.width.toNat < (d.paintFirst raw frame i).width := by
    change _ < frame.width
    rw [hf.width_eq]
    exact Nat.mod_lt i (Nat.pos_of_lt_mul_right hi)
  have hy : i / d.layout.width.toNat < (d.paintFirst raw frame i).height := by
    change _ < frame.height
    rw [hf.height_eq]
    exact Nat.div_lt_of_lt_mul hi
  have hbyte : raw[i]? = some (raw.getD i 0) := by simp [hraw]
  have hcells : d.paintCells raw (i + 1) frame.cells =
      (d.paintCells raw i frame.cells).setIfInBounds
        (i % d.layout.width.toNat * frame.height + i / d.layout.width.toNat)
        (d.palette.lookup (raw.getD i 0)) := by
    rw [hf.height_eq, paintCells, Nat.fold_succ]
    rfl
  unfold paintByte?
  rw [hbyte, Option.bind_some, getElem?_entries, Option.bind_some, Raster.set, if_pos hx, if_pos hy]
  simp only [paintFirst, hcells]
  rfl

/-- **Painting enough bytes over a frame of the right size finds everything.** -/
theorem Fits.paintStrictly_eq (hf : d.Fits frame) (hv : d.layout.Valid)
    (hraw : d.layout.gridLen.toNat ≤ raw.size) :
    d.paintStrictly raw frame = some (d.paint raw frame) := by
  have hgrid := hv.toNat_gridLen
  have hpaint : ∀ count ≤ d.layout.gridLen.toNat,
      (List.range count).foldlM (d.paintByte? raw) frame = some (d.paintFirst raw frame count) := by
    intro count
    induction count with
    | zero => intro _; rfl
    | succ count ih =>
      intro hcount
      rw [List.range_succ, List.foldlM_append, ih (by omega)]
      have hlt : count < raw.size := by omega
      have hbyte := hf.paintByte?_eq count hlt (by omega)
      simp [hbyte]
  exact hpaint _ (Nat.le_refl _)

end Decoder
end ScreenBridge
