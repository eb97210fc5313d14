/-
# A frame shows the grid bytes and nothing else

Decoding paints each cell of a frame from the byte that belongs to it
(`Decoder.get?_paint`), so nothing is left of what the frame showed before
(`Decoder.paint_congr`) and it does not matter into which frame one decodes
(`Decoder.Fits.decodeInto_eq`). A display over a store in memory therefore shows
what the grid bytes are at that moment (`Display.Fits.refresh_eq`).

Key definitions: `Decoder.Fits`, `MemoryStore.grid`.
Key theorems: `Decoder.get?_paint`, `Decoder.paint_congr`,
`Decoder.Fits.decodeInto_eq`, `Display.Fits.refresh_eq`.
-/
import Mathlib.Data.Nat.Notation
import ScreenBridge.Display
import ScreenBridge.Proofs.Layout
import ScreenBridge.Store.Memory

namespace ScreenBridge

namespace Raster

variable {α : Type}

/-- Two grids of one size are the same if their cells are. -/
theorem ext_get? {g g' : Raster α} (hw : g.width = g'.width) (hh : g.height = g'.height)
    (h : ∀ x y, x < g.width → y < g.height → g.get? x y = g'.get? x y) : g = g' := by
  obtain ⟨width, height, cells, hsize⟩ := g
  obtain ⟨width', height', cells', hsize'⟩ := g'
  dsimp only at hw hh h
  subst hw hh
  have hcells : cells = cells' := by
    refine Array.ext_getElem? fun k => ?_
    by_cases hk : k < width * height
    · have hpos : 0 < height := Nat.pos_of_lt_mul_left hk
      have hx : k / height < width := Nat.div_lt_of_lt_mul (by rwa [Nat.mul_comm])
      have hy : k % height < height := Nat.mod_lt k hpos
      have hcell := h (k / height) (k % height) hx hy
      have hindex : k / height * height + k % height = k := Nat.div_add_mod' k height
      unfold get? at hcell
      rw [if_pos ⟨hx, hy⟩, if_pos ⟨hx, hy⟩] at hcell
      dsimp only at hcell
      rwa [hindex] at hcell
    · rw [Array.getElem?_eq_none (by omega), Array.getElem?_eq_none (by omega)]
  subst hcells
  rfl

end Raster

namespace Decoder

variable {d : Decoder} {raw : Array UInt8}

/-- Different bytes of a grid belong to different cells. -/
theorem index_injective {width height i j : ℕ} (hi : i < width * height) (hj : j < width * height)
    (h : i % width * height + i / width = j % width * height + j / width) : i = j := by
  have hdiv : ∀ n, n < width * height → n / width < height := fun n hn => Nat.div_lt_of_lt_mul hn
  have hpos : 0 < height := Nat.pos_of_lt_mul_left hi
  have hcol : ∀ n, n < width * height → (n % width * height + n / width) / height = n % width :=
    fun n hn => by
      rw [Nat.add_comm, Nat.add_mul_div_right _ _ hpos, Nat.div_eq_of_lt (hdiv n hn), Nat.zero_add]
  have hmod : i % width = j % width := by rw [← hcol i hi, ← hcol j hj, h]
  have hrow : i / width = j / width := by
    rw [hmod] at h
    omega
  rw [← Nat.div_add_mod i width, ← Nat.div_add_mod j width, hmod, hrow]

theorem index_lt {width height i : ℕ} (hi : i < width * height) :
    i % width * height + i / width < width * height := by
  have hcol : i % width < width := Nat.mod_lt i (Nat.pos_of_lt_mul_right hi)
  have hrow : i / width < height := Nat.div_lt_of_lt_mul hi
  calc i % width * height + i / width
      < i % width * height + height := by omega
    _ = (i % width + 1) * height := (Nat.succ_mul ..).symm
    _ ≤ width * height := Nat.mul_le_mul_right height hcol

/-- Painting the first bytes gives each of their cells the color of its byte. -/
theorem getElem?_paintCells (raw : Array UInt8) {width height : ℕ} (hw : d.layout.width.toNat = width)
    (hh : d.layout.height.toNat = height) {cells : Array Color} (hsize : cells.size = width * height) :
    ∀ {count : ℕ}, count ≤ width * height → ∀ {i : ℕ}, i < count →
    (d.paintCells raw count cells)[i % width * height + i / width]? =
      some (d.palette.lookup (raw.getD i 0))
  | 0, _, _, hi => absurd hi (Nat.not_lt_zero _)
  | count + 1, hcount, i, hi => by
    have hstep : d.paintCells raw (count + 1) cells =
        (d.paintCells raw count cells).setIfInBounds (count % width * height + count / width)
          (d.palette.lookup (raw.getD count 0)) := by
      unfold paintCells
      rw [Nat.fold_succ, hw, hh]
    rw [hstep]
    by_cases heq : i = count
    · subst heq
      refine Array.getElem?_setIfInBounds_self_of_lt ?_
      rw [size_paintCells, hsize]
      exact index_lt hcount
    · -- no earlier byte belongs to the cell that is painted last
      have hlt : i < count := by omega
      have hi' : i < width * height := by omega
      rw [Array.getElem?_setIfInBounds_ne fun h => heq (index_injective hi' hcount h.symm)]
      exact getElem?_paintCells raw hw hh hsize (Nat.le_of_succ_le hcount) hlt

/-- The frame has the size of the decoder's layout. -/
structure Fits (d : Decoder) (frame : Frame) : Prop where
  width_eq : frame.width = d.layout.width.toNat
  height_eq : frame.height = d.layout.height.toNat

variable {frame : Frame}

theorem fits_blank (d : Decoder) : d.Fits d.blank := ⟨rfl, rfl⟩

/-- **A painted cell has the color of its byte.** The bytes come row after row. -/
theorem get?_paint (hv : d.layout.Valid) (hf : d.Fits frame) {x y : ℕ}
    (hx : x < d.layout.width.toNat) (hy : y < d.layout.height.toNat) :
    (d.paint raw frame).get? x y =
      some (d.palette.lookup (raw.getD (y * d.layout.width.toNat + x) 0)) := by
  obtain ⟨width, hw⟩ : ∃ n, d.layout.width.toNat = n := ⟨_, rfl⟩
  obtain ⟨height, hh⟩ : ∃ n, d.layout.height.toNat = n := ⟨_, rfl⟩
  have hfw : (d.paint raw frame).width = width := hf.width_eq.trans hw
  have hfh : (d.paint raw frame).height = height := hf.height_eq.trans hh
  have hsize : frame.cells.size = width * height := by
    rw [frame.size_cells, hf.width_eq, hf.height_eq, hw, hh]
  rw [hw] at hx ⊢
  rw [hh] at hy
  have hi : y * width + x < width * height := by
    calc y * width + x < y * width + width := by omega
      _ = (y + 1) * width := (Nat.succ_mul ..).symm
      _ ≤ height * width := Nat.mul_le_mul_right width hy
      _ = width * height := Nat.mul_comm ..
  have hmod : (y * width + x) % width = x := by
    rw [Nat.add_comm, Nat.add_mul_mod_self_right, Nat.mod_eq_of_lt hx]
  have hdiv : (y * width + x) / width = y := by
    rw [Nat.add_comm, Nat.add_mul_div_right _ _ (by omega), Nat.div_eq_of_lt hx, Nat.zero_add]
  have hcell := getElem?_paintCells raw hw hh hsize (Nat.le_refl _) hi
  have hgrid : width * height = d.layout.gridLen.toNat := by rw [hv.toNat_gridLen, hw, hh]
  rw [hmod, hdiv, hgrid] at hcell
  unfold Raster.get?
  rw [if_pos ⟨hfw.symm ▸ hx, hfh.symm ▸ hy⟩, hfh]
  exact hcell

/-- Nothing is left of what was painted over. -/
theorem paint_congr (hv : d.layout.Valid) {frame' : Frame} (hf : d.Fits frame)
    (hf' : d.Fits frame') : d.paint raw frame = d.paint raw frame' := by
  refine Raster.ext_get? ?_ ?_ fun x y hx hy => ?_
  · exact hf.width_eq.trans hf'.width_eq.symm
  · exact hf.height_eq.trans hf'.height_eq.symm
  · have hx' : x < d.layout.width.toNat := hf.width_eq ▸ hx
    have hy' : y < d.layout.height.toNat := hf.height_eq ▸ hy
    rw [get?_paint hv hf hx' hy', get?_paint hv hf' hx' hy']

/-- Decoding enough bytes into a frame of the right size gives what decoding them
anew gives. -/
theorem Fits.decodeInto_eq (hf : d.Fits frame) (hv : d.layout.Valid)
    (hlen : d.layout.gridLen.toNat ≤ raw.size) :
    ∃ shown, d.decode raw = .ok shown ∧ d.decodeInto raw frame = (.ok (), shown) ∧ d.Fits shown := by
  have hinto : ∀ {target : Frame}, d.Fits target →
      d.decodeInto raw target = (.ok (), d.paint raw target) := fun {target} ht => by
    unfold decodeInto
    dsimp only
    rw [if_neg (by rw [ht.width_eq, ht.height_eq]; simp), if_neg (Nat.not_lt.mpr hlen)]
  refine ⟨d.paint raw frame, ?_, hinto hf, hf.width_eq, hf.height_eq⟩
  unfold decode
  rw [hinto d.fits_blank]
  dsimp only
  rw [paint_congr hv d.fits_blank hf]

end Decoder

/-- The grid bytes of a store in memory. -/
def MemoryStore.grid (s : MemoryStore) (l : Layout) : Array UInt8 :=
  s.bytes.extract 0 l.gridLen.toNat

theorem MemoryStore.read_grid {s : MemoryStore} {l : Layout} (hf : s.failReads = false)
    (hlen : l.gridLen.toNat ≤ s.bytes.size) : s.read 0 l.gridLen = .ok (s.grid l) := by
  have hsum : Word.add? 0 l.gridLen = some l.gridLen :=
    Word.add?_eq_some_iff.mpr (Nat.zero_add _)
  unfold read Store.readBytes Store.checkRange
  rw [hf, if_neg Bool.false_ne_true, hsum, Option.filter_some, if_pos (decide_eq_true hlen)]
  dsimp only
  rw [UInt64.toNat_zero, Nat.zero_add]
  rfl

namespace Display

variable {d : Display} {s : MemoryStore}

/-- The display's frame has the size of its decoder's layout. -/
def Fits (d : Display) : Prop := d.decoder.Fits d.frame

theorem fits_new (decoder : Decoder) : (new decoder).Fits := decoder.fits_blank

/-- While reads succeed, decoding shows the grid bytes. -/
theorem Fits.decode_eq (hd : d.Fits) (hv : d.decoder.layout.Valid) (hf : s.failReads = false)
    (hlen : d.decoder.layout.gridLen.toNat ≤ s.bytes.size) :
    ∃ shown, d.decoder.decode (s.grid d.decoder.layout) = .ok shown ∧
      d.decode s = (.ok (), { d with frame := shown }) ∧ d.decoder.Fits shown := by
  have hsize : d.decoder.layout.gridLen.toNat ≤ (s.grid d.decoder.layout).size := by
    rw [MemoryStore.grid, Array.size_extract]
    omega
  obtain ⟨shown, hdecode, hinto, hfits⟩ := Decoder.Fits.decodeInto_eq hd hv hsize
  refine ⟨shown, hdecode, ?_, hfits⟩
  unfold decode
  rw [show Store.read s 0 d.decoder.layout.gridLen = _ from MemoryStore.read_grid hf hlen]
  dsimp only
  rw [hinto]

/-- While reads succeed and the sink takes frames, a redraw presents what the grid
bytes decode to. -/
theorem Fits.refresh_eq (hd : d.Fits) (hv : d.decoder.layout.Valid) (hf : s.failReads = false)
    (hlen : d.decoder.layout.gridLen.toNat ≤ s.bytes.size) {k : RecordingSink}
    (hk : k.failNext = false) :
    ∃ shown, d.decoder.decode (s.grid d.decoder.layout) = .ok shown ∧
      d.refresh s k =
        (.ok (), { d with frame := shown, presented := d.presented + 1 },
          { k with frames := shown :: k.frames }) ∧ d.decoder.Fits shown := by
  obtain ⟨shown, hdecode, heq, hfits⟩ := hd.decode_eq hv hf hlen
  have hpresent : Sink.present k shown = (.ok (), { k with frames := shown :: k.frames }) := by
    change k.present shown = _
    rw [RecordingSink.present, hk, if_neg Bool.false_ne_true]
  refine ⟨shown, hdecode, ?_, hfits⟩
  unfold refresh
  rw [heq]
  dsimp only
  rw [hpresent]

end Display
end ScreenBridge
