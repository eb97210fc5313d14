/-
# Images

A frame is written as a binary portable pixmap: the header `P6`, width, height
and the largest channel value in ASCII, and then the red, green and blue bytes
of each pixel, row after row from the top left.

The image is written piece by piece. A buffer of limited size keeps the bytes
that fit and refuses the first piece that does not fit completely.

Key definitions: `Netpbm.pieces`, `Netpbm.encode`, `Buffer`, `Netpbm.writeInto`.
-/
import ScreenBridge.Frame
import ScreenBridge.Fault

namespace ScreenBridge

/-- A buffer that takes a limited number of bytes. -/
structure Buffer where
  capacity : Nat
  bytes : Array UInt8
  deriving DecidableEq, Repr

namespace Buffer

/-- A buffer without bytes. -/
def empty (capacity : Nat) : Buffer := ⟨capacity, #[]⟩

/-- Takes the bytes of a piece that fit. Fails if some do not. -/
def write (b : Buffer) (piece : List UInt8) : Except Fault Unit × Buffer :=
  let room := b.capacity - b.bytes.size
  (if piece.length ≤ room then .ok ()
    else .error (.custom .writeZero "failed to write whole buffer"),
    { b with bytes := b.bytes ++ (piece.take room).toArray })

/-- Takes pieces one after another, up to the first that fails. -/
def writeAll (b : Buffer) : List (List UInt8) → Except Fault Unit × Buffer
  | [] => (.ok (), b)
  | piece :: pieces =>
    match b.write piece with
    | (.ok (), b) => writeAll b pieces
    | (.error e, b) => (.error e, b)

end Buffer

namespace Netpbm

/-- The bytes of ASCII characters. -/
def ascii (cs : List Char) : List UInt8 := cs.map fun c => c.toNat.toUInt8

/-- The bytes of a number in decimal. -/
def decimal (n : Nat) : List UInt8 := ascii (Nat.toDigits 10 n)

/-- The bytes of a pixel. -/
def pixel (c : Color) : List UInt8 := [c.r, c.g, c.b]

/-- The pieces in which an image is written. -/
def pieces (frame : Frame) : List (List UInt8) :=
  [ascii ['P', '6', '\n'], decimal frame.width, ascii [' '], decimal frame.height,
    ascii ['\n', '2', '5', '5', '\n']] ++ frame.rows.map pixel

/-- The bytes of an image. -/
def encode (frame : Frame) : List UInt8 := (pieces frame).flatten

/-- Writes an image into a buffer. -/
def writeInto (frame : Frame) (b : Buffer) : Except Fault Unit × Buffer :=
  b.writeAll (pieces frame)

end Netpbm
end ScreenBridge
