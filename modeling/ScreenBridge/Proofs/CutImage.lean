/-
# Images cut short

An image is written in pieces: those of its header, and one for each pixel. How it is cut
into pieces cannot be seen in a buffer that fills up, since what stands there is always
the beginning of all that was to be written (`Buffer.writeAll_eq`). So a buffer with room
for some bytes keeps exactly the first of them, and writing succeeds exactly if the image
ends there or before (`Netpbm.cut_image_is_a_prefix`).

Key definitions: `Buffer.room`, `Netpbm.byteCount`.
Key theorems: `Buffer.writeAll_eq`, `Netpbm.length_encode`, `Netpbm.writeInto_eq`,
`Netpbm.cut_image_is_a_prefix`.
-/
import ScreenBridge.Proofs.Netpbm

namespace ScreenBridge

namespace Buffer

/-- What a full buffer says. -/
def refusal : Fault := .custom .writeZero "failed to write whole buffer"

variable (b : Buffer)

/-- The bytes that a buffer still takes. -/
def room : ℕ := b.capacity - b.bytes.size

variable {b} {piece : List UInt8}

/-- A piece that fits is kept, and takes its room. -/
theorem write_of_le (h : piece.length ≤ b.room) :
    b.write piece = (.ok (), { b with bytes := b.bytes ++ piece.toArray }) ∧
      (b.write piece).2.room = b.room - piece.length := by
  have hwrite : b.write piece = (.ok (), { b with bytes := b.bytes ++ piece.toArray }) := by
    have hkept : piece.take b.room = piece := List.take_of_length_le h
    unfold room at h hkept
    rw [write, if_pos h, hkept]
  refine ⟨hwrite, ?_⟩
  rw [hwrite]
  unfold room
  simp only [Array.size_append, List.size_toArray]
  omega

theorem write_of_lt (h : b.room < piece.length) :
    b.write piece =
      (.error refusal, { b with bytes := b.bytes ++ (piece.take b.room).toArray }) := by
  have hnot : ¬ piece.length ≤ b.capacity - b.bytes.size := Nat.not_le.mpr h
  rw [write, if_neg hnot]
  rfl

/-- **Pieces cannot be seen in a buffer.** It keeps as much of all of them as there is room
for, and says that it did exactly if there is room for them all. -/
theorem writeAll_eq : ∀ (pieces : List (List UInt8)) (b : Buffer),
    b.writeAll pieces =
      (if pieces.flatten.length ≤ b.room then .ok () else .error refusal,
        { b with bytes := b.bytes ++ (pieces.flatten.take b.room).toArray })
  | [], b => by simp [writeAll]
  | piece :: pieces, b => by
    rw [writeAll, List.flatten_cons, List.length_append]
    rcases Nat.lt_or_ge b.room piece.length with hlt | hle
    · have hnot : ¬ piece.length + pieces.flatten.length ≤ b.room := by omega
      rw [write_of_lt hlt, if_neg hnot, List.take_append_of_le_length (Nat.le_of_lt hlt)]
    · obtain ⟨hwrite, hroom⟩ := write_of_le hle
      have hfits : pieces.flatten.length ≤ b.room - piece.length ↔
          piece.length + pieces.flatten.length ≤ b.room := by omega
      have hkept : (piece ++ pieces.flatten).take b.room =
          piece ++ pieces.flatten.take (b.room - piece.length) := by
        rw [List.take_append, List.take_of_length_le hle]
      rw [hwrite] at hroom ⊢
      dsimp only at hroom ⊢
      rw [writeAll_eq pieces, hroom, hkept]
      simp only [hfits, Array.append_assoc, List.append_toArray]

end Buffer

namespace Netpbm

variable (frame : Frame)

/-- The length of an image: its header, and three bytes for each pixel. -/
def byteCount : ℕ :=
  (header frame.width frame.height).length + 3 * (frame.width * frame.height)

theorem length_pixels : ∀ colors : List Color, (colors.flatMap pixel).length = 3 * colors.length
  | [] => rfl
  | color :: colors => by
    rw [List.flatMap_cons, List.length_append, length_pixels colors, List.length_cons]
    have hpixel : (pixel color).length = 3 := rfl
    omega

theorem length_encode : (encode frame).length = byteCount frame := by
  have hascii : (ascii (header frame.width frame.height).toList).length =
      (header frame.width frame.height).length := by
    rw [ascii, List.length_map, String.length_toList]
  rw [encode_eq, List.length_append, length_pixels, Raster.length_rows, hascii, byteCount,
    Nat.mul_comm frame.height]

/-- **Writing an image into a buffer** appends as much of it as there is room for. -/
theorem writeInto_eq (b : Buffer) :
    writeInto frame b =
      (if byteCount frame ≤ b.room then .ok () else .error Buffer.refusal,
        { b with bytes := b.bytes ++ ((encode frame).take b.room).toArray }) := by
  rw [← length_encode]
  exact Buffer.writeAll_eq (pieces frame) b

/-- **An image that is cut short is the beginning of the image.** Take any frame, also one
without pixels, and any number of bytes. A buffer that takes so many and then no more
holds, after the image was written, the first of the bytes of the image, as many as it
takes or all there are; these are the header and the colors of the rows. Writing succeeds
exactly if the buffer takes them all, and otherwise fails for want of room. -/
theorem cut_image_is_a_prefix (n : ℕ) :
    encode frame = ascii (header frame.width frame.height).toList ++
        frame.rows.flatMap (fun color => [color.r, color.g, color.b]) ∧
      (encode frame).length =
        (header frame.width frame.height).length + 3 * (frame.width * frame.height) ∧
      (writeInto frame (Buffer.empty n)).2.bytes.toList =
        (encode frame).take (min n (encode frame).length) ∧
      ((writeInto frame (Buffer.empty n)).1 = .ok () ↔ (encode frame).length ≤ n) ∧
      ∀ e, (writeInto frame (Buffer.empty n)).1 = .error e ↔
        n < (encode frame).length ∧ e = .custom .writeZero "failed to write whole buffer" := by
  have hlength : (encode frame).length = byteCount frame := length_encode frame
  have hwritten : writeInto frame (Buffer.empty n) =
      (if (encode frame).length ≤ n then .ok () else .error Buffer.refusal,
        ⟨n, ((encode frame).take n).toArray⟩) := by
    have hroom : (Buffer.empty n).room = n := rfl
    have hbytes : (Buffer.empty n).bytes = #[] := rfl
    rw [writeInto_eq, hroom, hbytes, hlength, Array.empty_append]
    rfl
  rw [hwritten]
  refine ⟨encode_eq frame, hlength, ?_, ?_, fun e => ?_⟩
  · rw [← List.take_eq_take_min]
  · by_cases h : (encode frame).length ≤ n <;> simp [h]
  · by_cases h : (encode frame).length ≤ n
    · simp [h, Nat.not_lt.mpr h]
    · simp only [if_neg h, Except.error.injEq, Nat.not_le.mp h, true_and]
      exact eq_comm

end Netpbm
end ScreenBridge
