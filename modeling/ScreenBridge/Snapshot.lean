/-
# Snapshots

A sink that keeps the latest frame as an image file. The image is written beside
its target first and then moved there, so that the target never holds a part of
an image.

The system may refuse a file operation that the files themselves would allow, for
want of rights or of space. What it refuses is a parameter of an attempt at
presenting a frame.

Key definitions: `Snapshot`, `Refusals`, `Snapshot.presentUnder`, `Snapshot.present`.
-/
import ScreenBridge.Display
import ScreenBridge.FileSystem
import ScreenBridge.Netpbm

namespace ScreenBridge

/-- What the system refuses during one attempt: that the draft is created, that it
takes more than so many bytes, that it is moved. -/
structure Refusals where
  create : Option Fault
  write : Option (Nat × Fault)
  move : Option Fault
  deriving DecidableEq, Repr

namespace Refusals

/-- Nothing is refused. -/
def nothing : Refusals := ⟨none, none, none⟩

variable (r : Refusals)

/-- The bytes of an image that the draft takes. -/
def taken (image : List UInt8) : List UInt8 :=
  match r.write with
  | some (n, _) => image.take n
  | none => image

/-- The fault of a draft that does not take all of an image. -/
def cut? (image : List UInt8) : Option Fault :=
  match r.write with
  | some (n, e) => if n < image.length then some e else none
  | none => none

end Refusals

/-- The path of the image and the file system it lies in. The path is a text: the system
also has paths that are none, and of these nothing is said. -/
structure Snapshot where
  path : String
  files : FileSystem
  deriving DecidableEq, Repr

namespace Snapshot

variable (s : Snapshot)

/-- The path of the file that is written before it is moved. -/
def draftPath : String := s.path ++ ".tmp"

/-- Writes an image beside its target. -/
def writeDraft (r : Refusals) (frame : Frame) : Except RenderError Unit × Snapshot :=
  let image := Netpbm.encode frame
  match r.create with
  | some e => (.error (.file s.draftPath e), s)
  | none =>
    match s.files.write s.draftPath (r.taken image).toArray with
    | (.error e, files) => (.error (.file s.draftPath e), { s with files := files })
    | (.ok (), files) =>
      match r.cut? image with
      | some e => (.error (.file s.draftPath e), { s with files := files })
      | none => (.ok (), { s with files := files })

/-- Moves the image to its target. -/
def publish (r : Refusals) : Except RenderError Unit × Snapshot :=
  match r.move with
  | some e => (.error (.file s.path e), s)
  | none =>
    match s.files.moveFile s.draftPath s.path with
    | (.ok (), files) => (.ok (), { s with files := files })
    | (.error e, files) => (.error (.file s.path e), { s with files := files })

/-- Writes an image and moves it to its target, as far as that is not refused. -/
def presentUnder (r : Refusals) (frame : Frame) : Except RenderError Unit × Snapshot :=
  match s.writeDraft r frame with
  | (.error e, s) => (.error e, s)
  | (.ok (), s) => s.publish r

/-- Writes an image and moves it to its target. -/
def present (frame : Frame) : Except RenderError Unit × Snapshot :=
  s.presentUnder .nothing frame

instance : Sink Snapshot where
  present := present

end Snapshot
end ScreenBridge
