/-
# Images show the grid bytes and are read back

The image of a decoded frame is its header and the colors of the grid bytes, in
the order of the bytes (`Netpbm.encode_decode`): the columns in which a frame is
stored cannot be seen in it. An image is read with the rules of its format: a
number stands behind blanks and comments and goes on as long as there are digits,
one blank ends the header, and three bytes are a pixel. Reading gives back every
frame whose colors people can name (`Netpbm.read?_encode`).

Key definitions: `Netpbm.header`, `Netpbm.number?`, `Netpbm.pixels?`, `Netpbm.read?`.
Key theorems: `Netpbm.encode_eq`, `Netpbm.number?_decimal`, `Netpbm.encode_decode`,
`Netpbm.read?_encode`, `Netpbm.images_show_bytes_and_read_back`.
-/
import ScreenBridge.Netpbm
import ScreenBridge.Proofs.Color
import ScreenBridge.Proofs.Raster

namespace ScreenBridge
namespace Netpbm

/-! ### The rules of the format -/

/-- A space, or a tab or line end of any kind. -/
def isBlank (byte : UInt8) : Bool := byte = 32 ∨ 9 ≤ byte ∧ byte ≤ 13

def isDigit (byte : UInt8) : Bool := 48 ≤ byte ∧ byte ≤ 57

/-- Passes over blanks and comments. A comment begins with the byte 35 and ends
with its line. -/
def skip : (inComment : Bool) → List UInt8 → List UInt8
  | _, [] => []
  | true, byte :: bytes => skip (!(byte = 10 ∨ byte = 13)) bytes
  | false, byte :: bytes =>
    if byte = 35 then skip true bytes
    else if isBlank byte then skip false bytes
    else byte :: bytes

/-- Reads digits behind a number that was read already. -/
def digits (acc : ℕ) : List UInt8 → ℕ × List UInt8
  | [] => (acc, [])
  | byte :: bytes =>
    if isDigit byte then digits (10 * acc + (byte.toNat - 48)) bytes else (acc, byte :: bytes)

/-- Reads a number with at least one digit. -/
def digits? : List UInt8 → Option (ℕ × List UInt8)
  | [] => none
  | byte :: bytes => if isDigit byte then some (digits 0 (byte :: bytes)) else none

/-- Reads a number behind at least one blank. -/
def number? : List UInt8 → Option (ℕ × List UInt8)
  | [] => none
  | byte :: bytes => if isBlank byte then digits? (skip false bytes) else none

/-- Reads pixels of three bytes up to the end. -/
def pixels? : List UInt8 → Option (List Color)
  | [] => some []
  | r :: g :: b :: bytes => (pixels? bytes).map (Color.ofRgb r g b :: ·)
  | _ => none

/-- Reads an image with a largest channel value of 255 that ends with its last
pixel. -/
def read? : List UInt8 → Option Frame
  | 80 :: 54 :: bytes => do
    let (width, bytes) ← number? bytes
    let (height, bytes) ← number? bytes
    let (largest, bytes) ← number? bytes
    guard (largest = 255 ∧ (bytes.head?.any isBlank))
    let colors ← pixels? bytes.tail
    if h : colors.length = height * width then some (Raster.ofRows width height colors h) else none
  | _ => none

/-! ### Numbers -/

/-- The byte of a digit. -/
def digit (d : ℕ) : UInt8 := (48 + d).toUInt8

theorem isDigit_digit {d : ℕ} (hd : d < 10) : isDigit (digit d) = true ∧ (digit d).toNat = 48 + d := by
  have hnat : (digit d).toNat = 48 + d := by
    change (48 + d) % 2 ^ 8 = 48 + d
    omega
  refine ⟨?_, hnat⟩
  simp only [isDigit, UInt8.le_iff_toNat_le, hnat, decide_eq_true_eq]
  exact ⟨Nat.le_add_right 48 d, by change 48 + d ≤ 57; omega⟩

theorem decimal_eq (n : ℕ) :
    decimal n = if n < 10 then [digit n] else decimal (n / 10) ++ [digit (n % 10)] := by
  have hchar : ∀ {d : ℕ}, d < 10 → ascii [d.digitChar] = [digit d] := fun hd => by
    simp [ascii, digit, Nat.toNat_digitChar_of_lt_ten hd]
  unfold decimal
  by_cases hn : n < 10
  · rw [if_pos hn, Nat.toDigits_of_lt_base hn, hchar hn]
  · have happend : ∀ cs cs' : List Char, ascii (cs ++ cs') = ascii cs ++ ascii cs' :=
      fun _ _ => List.map_append
    rw [if_neg hn, Nat.toDigits_of_base_le (by omega) (by omega), happend, hchar (by omega)]

/-- Reading on from a decimal is reading on from its number. -/
theorem digits_decimal (n : ℕ) : ∀ bytes : List UInt8,
    digits 0 (decimal n ++ bytes) = digits n bytes := by
  induction n using Nat.strongRecOn with
  | _ n ih =>
    intro bytes
    rw [decimal_eq]
    by_cases hn : n < 10
    · obtain ⟨hd, hnat⟩ := isDigit_digit hn
      simp [hn, digits, hd, hnat]
    · obtain ⟨hd, hnat⟩ := isDigit_digit (Nat.mod_lt n (by omega : 0 < 10))
      have hrest := ih (n / 10) (by omega) (digit (n % 10) :: bytes)
      rw [if_neg hn, List.append_assoc, List.singleton_append, hrest, digits, if_pos hd, hnat]
      congr 1
      omega

theorem exists_decimal_eq_cons (n : ℕ) :
    ∃ byte bytes, decimal n = byte :: bytes ∧ isDigit byte = true := by
  induction n using Nat.strongRecOn with
  | _ n ih =>
    rw [decimal_eq]
    by_cases hn : n < 10
    · exact ⟨digit n, [], by rw [if_pos hn], (isDigit_digit hn).1⟩
    · obtain ⟨byte, bytes, heq, hd⟩ := ih (n / 10) (by omega)
      exact ⟨byte, bytes ++ [digit (n % 10)], by rw [if_neg hn, heq, List.cons_append], hd⟩

/-- **A written number is read.** -/
theorem number?_decimal (blank next : UInt8) (n : ℕ) (bytes : List UInt8)
    (hblank : isBlank blank = true) (hnext : isDigit next = false) :
    number? (blank :: decimal n ++ next :: bytes) = some (n, next :: bytes) := by
  obtain ⟨byte, rest, heq, hd⟩ := exists_decimal_eq_cons n
  have hskip : skip false (byte :: (rest ++ next :: bytes)) = byte :: (rest ++ next :: bytes) := by
    have hne : byte ≠ 35 := by
      rintro rfl
      simp [isDigit] at hd
    have hnot : isBlank byte = false := by
      simp only [isDigit, decide_eq_true_eq, UInt8.le_iff_toNat_le] at hd
      simp only [isBlank, decide_eq_false_iff_not, UInt8.le_iff_toNat_le, ← UInt8.toNat_inj]
      have h48 : (48 : UInt8).toNat = 48 := rfl
      have h32 : (32 : UInt8).toNat = 32 := rfl
      have h13 : (13 : UInt8).toNat = 13 := rfl
      omega
    simp [skip, hne, hnot]
  have hdigits := digits_decimal n (next :: bytes)
  rw [heq, List.cons_append] at hdigits
  rw [heq, List.cons_append, number?, if_pos hblank, List.cons_append, hskip, digits?, if_pos hd,
    hdigits, digits, hnext]
  rfl

/-! ### Pixels -/

theorem pixels?_flatMap : ∀ colors : List Color, (∀ color ∈ colors, color.Named) →
    pixels? (colors.flatMap pixel) = some colors
  | [], _ => rfl
  | color :: colors, h => by
    have hcolor := (h color List.mem_cons_self).ofRgb_channels
    have hrest := pixels?_flatMap colors fun c hc => h c (List.mem_cons_of_mem _ hc)
    simp [pixel, pixels?, hrest, hcolor]

/-! ### Images -/

/-- The header of an image. -/
def header (width height : ℕ) : String := s!"P6\n{width} {height}\n255\n"

theorem ascii_header (width height : ℕ) :
    ascii (header width height).toList =
      ascii ['P', '6', '\n'] ++ decimal width ++ ascii [' '] ++ decimal height ++
        ascii ['\n', '2', '5', '5', '\n'] := by
  have htext : ∀ s : String, toString s = s := fun _ => rfl
  simp [header, ascii, decimal, htext]

/-- An image is its header and the pixels of its rows. -/
theorem encode_eq (frame : Frame) :
    encode frame = ascii (header frame.width frame.height).toList ++ frame.rows.flatMap pixel := by
  rw [ascii_header, encode, pieces, List.flatMap_def]
  simp

/-- The rows of a decoded frame are the colors of the grid bytes, byte after byte. -/
theorem rows_paint {d : Decoder} {raw : Array UInt8} (hv : d.layout.Valid)
    (hlen : d.layout.gridLen.toNat ≤ raw.size) :
    (d.paint raw d.blank).rows =
      (raw.toList.take d.layout.gridLen.toNat).map d.palette.lookup := by
  let width := d.layout.width.toNat
  let height := d.layout.height.toNat
  have hgrid : d.layout.gridLen.toNat = height * width := hv.toNat_gridLen.trans (Nat.mul_comm ..)
  refine List.ext_getElem? fun i => ?_
  by_cases hi : i < height * width
  · have hx : i % width < width := Nat.mod_lt i (Nat.pos_of_lt_mul_left hi)
    have hy : i / width < height := Nat.div_lt_of_lt_mul (by rwa [Nat.mul_comm])
    have hplace : i / width * width + i % width = i := Nat.div_add_mod' i width
    have hraw : i < raw.size := by omega
    calc (d.paint raw d.blank).rows[i]?
        = (d.paint raw d.blank).get? (i % width) (i / width) := Raster.getElem?_rows _ hi
      _ = some (d.palette.lookup (raw.getD (i / width * width + i % width) 0)) :=
        Decoder.get?_paint hv d.fits_blank hx hy
      _ = some (d.palette.lookup raw[i]) := by simp [hplace, hraw]
      _ = ((raw.toList.take d.layout.gridLen.toNat).map d.palette.lookup)[i]? := by
        simp [hgrid, hi, hraw]
  · have hlen' : (d.paint raw d.blank).rows.length = height * width := Raster.length_rows _
    rw [List.getElem?_eq_none (by omega), List.getElem?_eq_none (by simp; omega)]

/-- The image of decoded bytes shows them in their order. -/
theorem encode_decode {d : Decoder} {raw : Array UInt8} (hv : d.layout.Valid)
    (hlen : d.layout.gridLen.toNat ≤ raw.size) :
    ∃ frame, d.decode raw = .ok frame ∧
      encode frame = ascii (header d.layout.width.toNat d.layout.height.toNat).toList ++
        (raw.toList.take d.layout.gridLen.toNat).flatMap fun byte =>
          pixel (d.palette.lookup byte) := by
  have hdecode : d.decode raw = .ok (d.paint raw d.blank) := by
    have hinto : d.decodeInto raw d.blank = (.ok (), d.paint raw d.blank) := by
      simp [Decoder.decodeInto, Nat.not_lt.mpr hlen, d.fits_blank.width_eq, d.fits_blank.height_eq]
    rw [Decoder.decode, hinto]
  refine ⟨d.paint raw d.blank, hdecode, ?_⟩
  rw [encode_eq, rows_paint hv hlen, List.flatMap_map]
  rfl

/-- An image whose colors people can name is read back. -/
theorem read?_encode {frame : Frame} (hnamed : ∀ color ∈ frame.cells, color.Named) :
    read? (encode frame) = some frame := by
  have hpixels := pixels?_flatMap frame.rows fun color hcolor =>
    hnamed color (frame.mem_cells_of_mem_rows hcolor)
  let raster := frame.rows.flatMap pixel
  have himage : encode frame = 80 :: 54 :: (10 :: decimal frame.width ++
      32 :: (decimal frame.height ++ 10 :: (decimal 255 ++ 10 :: raster))) := by
    have hlargest : decimal 255 = [50, 53, 53] := rfl
    rw [encode_eq, ascii_header, hlargest]
    simp [ascii, raster]
  have hwidth := number?_decimal 10 32 frame.width
    (decimal frame.height ++ 10 :: (decimal 255 ++ 10 :: raster)) rfl rfl
  have hheight := number?_decimal 32 10 frame.height
    (decimal 255 ++ 10 :: raster) rfl rfl
  have hlargest := number?_decimal 10 10 255 raster rfl rfl
  have hguard : ∀ {p : Prop} [Decidable p], p → (guard p : Option Unit) = some () :=
    fun hp => if_pos hp
  rw [List.cons_append] at hwidth hheight hlargest
  rw [himage, List.cons_append, read?]
  dsimp only [Option.bind_eq_bind]
  rw [hwidth, Option.bind_some]
  dsimp only
  rw [hheight, Option.bind_some]
  dsimp only
  rw [hlargest, Option.bind_some]
  dsimp only
  rw [hguard ⟨rfl, rfl⟩, Option.bind_some, List.tail_cons, hpixels, Option.bind_some,
    dif_pos frame.length_rows, Raster.ofRows_rows]

/-- **Images show the grid bytes, and what they show can be read back.** The image
of a screen of any size is its header and the red, green and blue bytes of the
colors that the grid bytes name, in the order of the bytes. Reading an image whose
colors were made from channels or constants gives back its frame, so different
frames have different images. -/
theorem images_show_bytes_and_read_back :
    (∀ (d : Decoder) (raw : Array UInt8), d.layout.Valid →
      d.layout.width.toNat * d.layout.height.toNat ≤ raw.size →
        ∃ frame, d.decode raw = .ok frame ∧
          encode frame = ascii (header d.layout.width.toNat d.layout.height.toNat).toList ++
            (raw.toList.take (d.layout.width.toNat * d.layout.height.toNat)).flatMap fun byte =>
              [(d.palette.lookup byte).r, (d.palette.lookup byte).g, (d.palette.lookup byte).b]) ∧
    (∀ frame : Frame, (∀ color ∈ frame.cells, color.Named) → read? (encode frame) = some frame) ∧
    ∀ frame frame' : Frame, (∀ color ∈ frame.cells, color.Named) →
      (∀ color ∈ frame'.cells, color.Named) → encode frame = encode frame' → frame = frame' := by
  refine ⟨fun d raw hv hlen => ?_, fun _ => read?_encode,
    fun frame frame' hnamed hnamed' himage => ?_⟩
  · rw [← hv.toNat_gridLen] at hlen ⊢
    exact encode_decode hv hlen
  · have hread := read?_encode hnamed
    rw [himage, read?_encode hnamed'] at hread
    exact (Option.some.inj hread).symm

/-- Three columns and two rows, and a byte behind the grid. The byte 0x12 names
color 2. -/
theorem three_by_two_image :
    (∃ frame, Decoder.decode ⟨⟨3, 2⟩, .standard⟩ #[0x12, 1, 5, 3, 0xF2, 0, 7] = .ok frame ∧
      encode frame = [80, 54, 10, 51, 32, 50, 10, 50, 53, 53, 10,
        0x68, 0x37, 0x2b, 0xff, 0xff, 0xff, 0x58, 0x8d, 0x43,
        0x70, 0xa4, 0xb2, 0x68, 0x37, 0x2b, 0, 0, 0]) ∧
    read? (encode (Raster.filled 3 1 (.ofRgb 1 2 3))) = some (Raster.filled 3 1 (.ofRgb 1 2 3)) ∧
    encode (Raster.filled 3 1 (.ofRgb 1 2 3)) ≠ encode (Raster.filled 1 3 (.ofRgb 1 2 3)) := by
  obtain ⟨hshow, hread, hinj⟩ := images_show_bytes_and_read_back
  have hnamed : ∀ width height, ∀ color ∈ (Raster.filled width height (Color.ofRgb 1 2 3)).cells,
      color.Named := fun width height color hcolor => by
    rw [Raster.filled, Array.mem_replicate] at hcolor
    exact Or.inl ⟨1, 2, 3, hcolor.2.symm⟩
  refine ⟨?_, hread _ (hnamed 3 1), fun himage => ?_⟩
  · obtain ⟨frame, hdecode, himage⟩ :=
      hshow ⟨⟨3, 2⟩, .standard⟩ #[0x12, 1, 5, 3, 0xF2, 0, 7] rfl (by decide)
    exact ⟨frame, hdecode, himage.trans (by decide +kernel)⟩
  · have hframe := hinj _ _ (hnamed 3 1) (hnamed 1 3) himage
    exact absurd (congrArg Raster.width hframe) (by decide)

end Netpbm
end ScreenBridge
