/-
# Which bytes are decoded, and to what

A frame of the wrong size is refused, and so are too few bytes for the right one;
a frame that was refused is still what it was (`Decoder.decodeInto_cases`). All
other bytes are painted, and then each cell has the color that the low four bits of
its byte name (`Decoder.Fits.shows_paint`). The bytes may be painted one after another
or row after row, the columns of a row from the left: no cell is missed or lies outside
(`Decoder.Fits.paintRows_eq`).

As every cell of the frame is settled, nothing else can matter: not what the frame
showed before, not the high four bits, not the bytes behind the grid
(`Decoder.Shows.eq_of_sameColors`).

Key definitions: `Decoder.Shows`, `Decoder.paintRow`, `Decoder.paintRows`,
`Decoder.SameColors`.
Key theorems: `Decoder.decodeInto_cases`, `Decoder.Fits.shows_paint`,
`Decoder.Fits.paintRow_eq`, `Decoder.Fits.paintRows_eq`,
`Decoder.Shows.eq_of_sameColors`, `Decoder.decoding_shows_low_bits`.
-/
import Mathlib.Order.Basic
import Mathlib.Tactic.IntervalCases
import ScreenBridge.Proofs.Bounds
import ScreenBridge.Proofs.Raster

namespace ScreenBridge

theorem Palette.getElem?_entries_mod (p : Palette) (byte : UInt8) :
    p.entries[byte.toNat % 16]? = some (p.lookup byte) := by
  have hlt : byte.toNat % 16 < 16 := Nat.mod_lt _ (by decide)
  rw [Vector.getElem?_eq_getElem hlt]
  rfl

namespace Decoder

variable {d : Decoder} {raw raw' : Array UInt8} {target target' frame frame' : Frame}

/-- The frame shows the bytes: it has the size of the layout, and the cell at column
`x` and row `y` has the color with the number that is left of byte `y * width + x`
on division by sixteen. -/
structure Shows (d : Decoder) (raw : Array UInt8) (frame : Frame) : Prop where
  fits : d.Fits frame
  cell : ∀ {x y}, x < d.layout.width.toNat → y < d.layout.height.toNat →
    ∃ byte color, raw[y * d.layout.width.toNat + x]? = some byte ∧
      d.palette.entries[byte.toNat % 16]? = some color ∧ frame.get? x y = some color

/-- The first bytes name the same colors, as many as the grid has. -/
def SameColors (d : Decoder) (raw raw' : Array UInt8) : Prop :=
  ∀ i < d.layout.width.toNat * d.layout.height.toNat, ∃ byte byte',
    raw[i]? = some byte ∧ raw'[i]? = some byte' ∧ byte.toNat % 16 = byte'.toNat % 16

theorem fits_iff : d.Fits frame ↔
    frame.width = d.layout.width.toNat ∧ frame.height = d.layout.height.toNat :=
  ⟨fun h => ⟨h.width_eq, h.height_eq⟩, fun h => ⟨h.1, h.2⟩⟩

/-- Decoding refuses a frame of the wrong size, then too few bytes, and paints
otherwise. -/
theorem decodeInto_cases (hv : d.layout.Valid) (raw : Array UInt8) (target : Frame) :
    (¬ d.Fits target ∧ d.decodeInto raw target =
      (.error (.gridMismatch d.layout.width d.layout.height target.width target.height), target)) ∨
    (d.Fits target ∧ raw.size < d.layout.width.toNat * d.layout.height.toNat ∧
      d.decodeInto raw target = (.error (.shortFrame d.layout.gridLen raw.size), target)) ∨
    (d.Fits target ∧ d.layout.width.toNat * d.layout.height.toNat ≤ raw.size ∧
      d.decodeInto raw target = (.ok (), d.paint raw target)) := by
  unfold decodeInto
  dsimp only
  rw [hv.toNat_gridLen, fits_iff]
  by_cases hfits : target.width = d.layout.width.toNat ∧ target.height = d.layout.height.toNat
  · rw [if_neg (by simp [hfits])]
    by_cases hlen : raw.size < d.layout.width.toNat * d.layout.height.toNat
    · rw [if_pos hlen]
      exact Or.inr (Or.inl ⟨hfits, hlen, rfl⟩)
    · rw [if_neg hlen]
      exact Or.inr (Or.inr ⟨hfits, Nat.le_of_not_lt hlen, rfl⟩)
  · rw [if_pos (by rwa [← not_and_or])]
    exact Or.inl ⟨hfits, rfl⟩

/-- What is painted shows the bytes. -/
theorem Fits.shows_paint (hf : d.Fits target) (hv : d.layout.Valid)
    (hlen : d.layout.width.toNat * d.layout.height.toNat ≤ raw.size) :
    d.Shows raw (d.paint raw target) where
  fits := ⟨hf.width_eq, hf.height_eq⟩
  cell {x y} hx hy := by
    obtain ⟨-, -, hplace⟩ := Raster.place_div_mod hx hy
    have hi : y * d.layout.width.toNat + x < raw.size := by
      rw [Nat.mul_comm] at hlen
      omega
    refine ⟨_, _, Array.getElem?_eq_getElem hi, Palette.getElem?_entries_mod .., ?_⟩
    rw [get?_paint hv hf hx hy, Array.getD, dif_pos hi]
    rfl

/-! ### Row after row -/

/-- Paints row `y` with its bytes, from the left. -/
def paintRow (d : Decoder) (raw : Array UInt8) (frame : Frame) (y : ℕ) : Except GridError Frame :=
  let width := d.layout.width.toNat
  (raw.extract (y * width) ((y + 1) * width)).toList.zipIdx.foldlM
    (fun frame (byte, x) => frame.set x y (d.palette.lookup byte)) frame

/-- Paints the rows of a frame, from the top. -/
def paintRows (d : Decoder) (raw : Array UInt8) (frame : Frame) : Except GridError Frame :=
  (List.range d.layout.height.toNat).foldlM (d.paintRow raw) frame

/-- Behind the rows above it and the cells at its left, a cell is the next to be painted. -/
theorem Fits.set_paintFirst (hf : d.Fits frame) {x y : ℕ} (hx : x < d.layout.width.toNat)
    (hy : y < d.layout.height.toNat) (hraw : y * d.layout.width.toNat + x < raw.size) :
    (d.paintFirst raw frame (y * d.layout.width.toNat + x)).set x y
        (d.palette.lookup raw[y * d.layout.width.toNat + x]) =
      .ok (d.paintFirst raw frame (y * d.layout.width.toNat + (x + 1))) := by
  obtain ⟨hmod, hdiv, hplace⟩ := Raster.place_div_mod hx hy
  have hstep := hf.paintByte?_eq _ hraw (hplace.trans_eq (Nat.mul_comm ..))
  rw [paintByte?, Array.getElem?_eq_getElem hraw, Option.bind_some, getElem?_entries,
    Option.bind_some, hmod, hdiv] at hstep
  rcases hset : Raster.set (d.paintFirst raw frame (y * d.layout.width.toNat + x)) x y
    (d.palette.lookup raw[y * d.layout.width.toNat + x]) with e | painted
  · rw [hset] at hstep
    cases hstep
  · rw [hset] at hstep
    exact congrArg Except.ok (Option.some.inj hstep)

theorem zipIdx_row {width y : ℕ} (hraw : (y + 1) * width ≤ raw.size) :
    (raw.extract (y * width) ((y + 1) * width)).toList.zipIdx =
      (List.range width).map fun x => (raw.getD (y * width + x) 0, x) := by
  have hlen : (y + 1) * width - y * width = width := by rw [Nat.succ_mul]; omega
  refine List.ext_getElem (by simp [hlen]; rw [Nat.succ_mul] at hraw; omega) fun x hx hx' => ?_
  have hlt : y * width + x < raw.size := by
    have : x < width := by simpa using hx'
    rw [Nat.succ_mul] at hraw
    omega
  simp [Array.getD, hlt]

/-- Some columns of a row, from the left, are painted behind the rows above it. -/
theorem Fits.foldlM_set_eq (hf : d.Fits frame) {y : ℕ} (hy : y < d.layout.height.toNat)
    (hraw : (y + 1) * d.layout.width.toNat ≤ raw.size) {cols : ℕ}
    (hcols : cols ≤ d.layout.width.toNat) :
    (List.range cols).foldlM
        (fun painted x => Raster.set painted x y
          (d.palette.lookup (raw.getD (y * d.layout.width.toNat + x) 0)))
        (d.paintFirst raw frame (y * d.layout.width.toNat)) =
      Except.ok (d.paintFirst raw frame (y * d.layout.width.toNat + cols)) := by
  induction cols with
  | zero => rfl
  | succ cols ih =>
    have hlt : y * d.layout.width.toNat + cols < raw.size := by
      rw [Nat.succ_mul] at hraw
      omega
    have hbyte : raw.getD (y * d.layout.width.toNat + cols) 0 =
        raw[y * d.layout.width.toNat + cols] := by simp [Array.getD, hlt]
    have hcell := hf.set_paintFirst hcols hy hlt
    rw [List.range_succ, List.foldlM_append, ih (Nat.le_of_succ_le hcols)]
    simp only [List.foldlM_cons, List.foldlM_nil, hbyte]
    exact congrArg (· >>= pure) hcell

/-- A row is painted behind the rows above it. -/
theorem Fits.paintRow_eq (hf : d.Fits frame) {y : ℕ} (hy : y < d.layout.height.toNat)
    (hraw : (y + 1) * d.layout.width.toNat ≤ raw.size) :
    d.paintRow raw (d.paintFirst raw frame (y * d.layout.width.toNat)) y =
      .ok (d.paintFirst raw frame ((y + 1) * d.layout.width.toNat)) := by
  have hcols := hf.foldlM_set_eq hy hraw (Nat.le_refl _)
  unfold paintRow
  dsimp only
  rw [zipIdx_row hraw, List.foldlM_map, Nat.succ_mul]
  exact hcols

/-- **Painting row after row stays inside the frame**, and is painting byte after byte. -/
theorem Fits.paintRows_eq (hf : d.Fits frame) (hv : d.layout.Valid)
    (hraw : d.layout.width.toNat * d.layout.height.toNat ≤ raw.size) :
    d.paintRows raw frame = .ok (d.paint raw frame) := by
  have hrows : ∀ rows ≤ d.layout.height.toNat, (List.range rows).foldlM (d.paintRow raw) frame =
      .ok (d.paintFirst raw frame (rows * d.layout.width.toNat)) := by
    intro rows
    induction rows with
    | zero =>
      intro _
      rw [Nat.zero_mul]
      rfl
    | succ rows ih =>
      intro hrows
      have hbytes : (rows + 1) * d.layout.width.toNat ≤ raw.size :=
        (Nat.mul_le_mul_right _ hrows).trans (Nat.mul_comm .. ▸ hraw)
      rw [List.range_succ, List.foldlM_append, ih (Nat.le_of_succ_le hrows)]
      exact congrArg (· >>= pure) (hf.paintRow_eq hrows hbytes)
  unfold paintRows
  rw [hrows _ (Nat.le_refl _), Nat.mul_comm, ← hv.toNat_gridLen]
  rfl

/-! ### Only the low four bits of the grid bytes count -/

/-- A frame that shows bytes is settled by the colors they name. -/
theorem Shows.eq_of_sameColors (h : d.Shows raw frame) (h' : d.Shows raw' frame')
    (hsame : d.SameColors raw raw') : frame' = frame := by
  refine Raster.ext_get? (h'.fits.width_eq.trans h.fits.width_eq.symm)
    (h'.fits.height_eq.trans h.fits.height_eq.symm) fun x y hx hy => ?_
  rw [h'.fits.width_eq] at hx
  rw [h'.fits.height_eq] at hy
  obtain ⟨byte, color, hbyte, hcolor, hcell⟩ := h.cell hx hy
  obtain ⟨byte', color', hbyte', hcolor', hcell'⟩ := h'.cell hx hy
  obtain ⟨-, -, hplace⟩ := Raster.place_div_mod hx hy
  obtain ⟨b, b', hb, hb', hmod⟩ := hsame _ (hplace.trans_eq (Nat.mul_comm ..))
  obtain rfl : b = byte := Option.some.inj (hb.symm.trans hbyte)
  obtain rfl : b' = byte' := Option.some.inj (hb'.symm.trans hbyte')
  rw [hcell', hcell, ← hcolor', ← hcolor, hmod]

theorem sameColors_refl (h : d.layout.width.toNat * d.layout.height.toNat ≤ raw.size) :
    d.SameColors raw raw := fun i hi =>
  ⟨raw[i], raw[i], Array.getElem?_eq_getElem _, Array.getElem?_eq_getElem _, rfl⟩

theorem SameColors.le_size (h : d.SameColors raw raw') :
    d.layout.width.toNat * d.layout.height.toNat ≤ raw.size := by
  by_contra hshort
  obtain ⟨byte, -, hbyte, -⟩ := h raw.size (Nat.lt_of_not_le hshort)
  rw [Array.getElem?_eq_none (Nat.le_refl _)] at hbyte
  cases hbyte

theorem SameColors.symm (h : d.SameColors raw raw') : d.SameColors raw' raw := fun i hi => by
  obtain ⟨byte, byte', hbyte, hbyte', hmod⟩ := h i hi
  exact ⟨byte', byte, hbyte', hbyte, hmod.symm⟩

/-- Decoding bytes that name the same colors, into any frames of the right size, is
the same. -/
theorem SameColors.decodeInto_eq (hsame : d.SameColors raw raw') (hv : d.layout.Valid)
    (hf : d.Fits target) (hf' : d.Fits target') :
    d.decodeInto raw' target' = d.decodeInto raw target := by
  have hpaint : ∀ {raw target}, d.Fits target →
      d.layout.width.toNat * d.layout.height.toNat ≤ raw.size →
      d.decodeInto raw target = (.ok (), d.paint raw target) := fun {raw target} hf hlen => by
    rcases decodeInto_cases hv raw target with ⟨hno, -⟩ | ⟨-, hshort, -⟩ | ⟨-, -, h⟩
    · exact absurd hf hno
    · omega
    · exact h
  rw [hpaint hf' hsame.symm.le_size, hpaint hf hsame.le_size]
  exact congrArg (Prod.mk (Except.ok ()))
    ((hf.shows_paint hv hsame.le_size).eq_of_sameColors (hf'.shows_paint hv hsame.symm.le_size) hsame)

/-- Decoding anew is decoding into any frame of the right size. -/
theorem Fits.decode_eq_decodeInto (hf : d.Fits target) (hv : d.layout.Valid) (raw : Array UInt8) :
    d.decode raw = (d.decodeInto raw target).1.map fun _ => (d.decodeInto raw target).2 := by
  have hblank := d.fits_blank
  unfold decode
  rcases decodeInto_cases hv raw target with ⟨hno, -⟩ | ⟨-, hshort, h⟩ | ⟨-, hlen, h⟩
  · exact absurd hf hno
  · rcases decodeInto_cases hv raw d.blank with ⟨hno, -⟩ | ⟨-, -, h'⟩ | ⟨-, hlen, -⟩
    · exact absurd hblank hno
    · rw [h', h]
      rfl
    · omega
  · rw [(sameColors_refl hlen).decodeInto_eq hv hf hblank, h]
    rfl

/-- **Decoding shows the low four bits of the grid bytes and nothing else.** A frame
that has not the size of the layout is refused, and only such a frame is refused as
one; for the right frame fewer bytes than the grid has are refused, and a frame
that was refused stays as it was. Otherwise the bytes are painted row after row, all
of them inside the frame, and each cell has the color that its byte names. So bytes
that agree on the low four bits, as far as the grid goes, are decoded alike into any
frames of the right size, whatever these showed, and into a new frame. -/
theorem decoding_shows_low_bits (hv : d.layout.Valid) (raw : Array UInt8) (target : Frame) :
    let width := d.layout.width.toNat
    let height := d.layout.height.toNat
    let (result, frame) := d.decodeInto raw target
    (result = .error (.gridMismatch d.layout.width d.layout.height target.width target.height) ↔
      target.width ≠ width ∨ target.height ≠ height) ∧
    (result = .error (.shortFrame d.layout.gridLen raw.size) ↔
      target.width = width ∧ target.height = height ∧ raw.size < width * height) ∧
    (result = .ok () ↔
      target.width = width ∧ target.height = height ∧ width * height ≤ raw.size) ∧
    (result ≠ .ok () → frame = target) ∧
    (result = .ok () → frame.width = width ∧ frame.height = height ∧
      d.paintRows raw target = .ok frame ∧
      ∀ x < width, ∀ y < height, ∃ byte color, raw[y * width + x]? = some byte ∧
        d.palette.entries[byte.toNat % 16]? = some color ∧ frame.get? x y = some color) ∧
    (∀ raw' target', d.Fits target → d.Fits target' → d.SameColors raw raw' →
      d.decodeInto raw' target' = (result, frame)) ∧
    (d.Fits target → d.decode raw = result.map fun _ => frame) := by
  intro width height
  have hsame : ∀ raw' target', d.Fits target → d.Fits target' → d.SameColors raw raw' →
      d.decodeInto raw' target' = d.decodeInto raw target := fun raw' target' hf hf' hcolors =>
    hcolors.decodeInto_eq hv hf hf'
  have hanew := fun hf : d.Fits target => hf.decode_eq_decodeInto hv raw
  rcases decodeInto_cases hv raw target with ⟨hno, h⟩ | ⟨hf, hshort, h⟩ | ⟨hf, hlen, h⟩
  · rw [h] at hsame hanew ⊢
    have hsize := hno
    rw [fits_iff, not_and_or] at hsize
    exact ⟨iff_of_true rfl hsize,
      iff_of_false (by simp) fun hall => hno ⟨hall.1, hall.2.1⟩,
      iff_of_false (by simp) fun hall => hno ⟨hall.1, hall.2.1⟩,
      fun _ => rfl, by simp, hsame, hanew⟩
  · rw [h] at hsame hanew ⊢
    exact ⟨iff_of_false (by simp) fun hsize => hsize.elim (· hf.width_eq) (· hf.height_eq),
      iff_of_true rfl ⟨hf.width_eq, hf.height_eq, hshort⟩,
      iff_of_false (by simp) fun hall => absurd hshort (Nat.not_lt.mpr hall.2.2),
      fun _ => rfl, by simp, hsame, hanew⟩
  · rw [h] at hsame hanew ⊢
    have hshows := hf.shows_paint hv hlen
    exact ⟨iff_of_false (by simp) fun hsize => hsize.elim (· hf.width_eq) (· hf.height_eq),
      iff_of_false (by simp) fun hall => absurd hall.2.2 (Nat.not_lt.mpr hlen),
      iff_of_true rfl ⟨hf.width_eq, hf.height_eq, hlen⟩, fun hfail => absurd rfl hfail,
      fun _ => ⟨hshows.fits.width_eq, hshows.fits.height_eq, hf.paintRows_eq hv hlen,
        fun _ hx _ hy => hshows.cell hx hy⟩,
      hsame, hanew⟩

/-- A screen of three columns and two rows. Too few bytes for a frame of two columns
and three rows are refused for the frame. Of enough bytes the last, `0xF6`, gives
color 6 to the cell at the lower right, and neither its high bits nor the byte
behind the grid nor what the frame showed before can be told from the result. -/
theorem three_by_two_decoded :
    let d : Decoder := ⟨⟨3, 2⟩, .standard⟩
    let shown : Frame := .filled 3 2 (.ofRgb 9 9 9)
    d.layout.Valid ∧
    (d.decodeInto #[1, 2, 3, 4, 5] (.filled 2 3 .black)).1 = .error (.gridMismatch 3 2 2 3) ∧
    d.decodeInto #[1, 2, 3, 4, 5] shown = (.error (.shortFrame 6 5), shown) ∧
    (d.decodeInto #[1, 2, 3, 4, 5, 0xF6, 7] shown).2.get? 2 1 = some (.ofRgb 0x35 0x28 0x79) ∧
    d.decodeInto #[1, 2, 3, 4, 5, 6] d.blank = d.decodeInto #[1, 2, 3, 4, 5, 0xF6, 7] shown := by
  intro d shown
  have hv : d.layout.Valid := rfl
  have hshown : d.Fits shown := ⟨rfl, rfl⟩
  obtain ⟨hmismatch, -⟩ := decoding_shows_low_bits hv #[1, 2, 3, 4, 5] (.filled 2 3 .black)
  obtain ⟨-, hshort, -, hkept, -⟩ := decoding_shows_low_bits hv #[1, 2, 3, 4, 5] shown
  obtain ⟨-, -, hok, -, hcells, hsame, -⟩ :=
    decoding_shows_low_bits hv #[1, 2, 3, 4, 5, 0xF6, 7] shown
  have hrefused := hshort.mpr ⟨rfl, rfl, by decide⟩
  refine ⟨hv, hmismatch.mpr (by decide), Prod.ext hrefused (hkept (by rw [hrefused]; simp)), ?_, ?_⟩
  · obtain ⟨-, -, -, hcell⟩ := hcells (hok.mpr ⟨rfl, rfl, by decide⟩)
    obtain ⟨byte, color, hbyte, hcolor, hget⟩ := hcell 2 (by decide) 1 (by decide)
    obtain rfl : 0xF6 = byte := Option.some.inj hbyte
    have hblue : d.palette.entries[(0xF6 : UInt8).toNat % 16]? = some (.ofRgb 0x35 0x28 0x79) := by
      decide +kernel
    rw [hblue] at hcolor
    obtain rfl := Option.some.inj hcolor
    exact hget
  · refine hsame _ _ hshown d.fits_blank fun i hi => ?_
    have hcolors : ∀ i < 6, ∃ byte byte' : UInt8, #[1, 2, 3, 4, 5, 0xF6, 7][i]? = some byte ∧
        #[1, 2, 3, 4, 5, 6][i]? = some byte' ∧ byte.toNat % 16 = byte'.toNat % 16 := by
      intro i hi
      interval_cases i <;> exact ⟨_, _, rfl, rfl, rfl⟩
    exact hcolors i hi

end Decoder
end ScreenBridge
