/-
# The display

A redraw reads the grid bytes from the store, decodes them into the frame the
display keeps, and hands the frame to a sink.

Key definitions: `RenderError`, `Sink`, `Display`, `Display.decode`,
`Display.refresh`, `RecordingSink`.
-/
import ScreenBridge.Frame
import ScreenBridge.Store

namespace ScreenBridge

/-- Why a sink did not take a frame. -/
inductive RenderError
  | file (path : String) (cause : Fault)
  | sink (text : String)
  deriving DecidableEq, Repr

namespace RenderError

/-- The sentence a person is shown. -/
def message : RenderError → String
  | file path cause => s!"failed to write frame to {path}: {cause.message}"
  | sink text => s!"render sink error: {text}"

end RenderError

/-- Why a redraw failed. -/
inductive RefreshError
  | store (e : StoreError)
  | decode (e : DecodeError)
  | render (e : RenderError)
  deriving DecidableEq, Repr

namespace RefreshError

/-- The sentence a person is shown. -/
def message : RefreshError → String
  | store e => s!"failed to read frame: {e.message}"
  | decode e => s!"failed to decode frame: {e.message}"
  | render e => s!"failed to present frame: {e.message}"

end RefreshError

/-- Where frames go. Presenting yields the sink after the attempt, also after
one that failed. -/
class Sink (κ : Type) where
  present : κ → Frame → Except RenderError Unit × κ

/-- The decoder with the frame it decodes into and the number of frames that a
sink took. It has no bound; a word of 64 bits holds it while it is below `2 ^ 64`. -/
structure Display where
  decoder : Decoder
  frame : Frame
  presented : Nat
  deriving DecidableEq

namespace Display

variable {σ κ : Type} [Store σ] [Sink κ]

/-- A display that has shown nothing. -/
def new (decoder : Decoder) : Display := ⟨decoder, decoder.blank, 0⟩

variable (d : Display)

/-- Decodes the grid bytes of the store into the display's frame. -/
def decode (store : σ) : Except RefreshError Unit × Display :=
  match Store.read store 0 d.decoder.layout.gridLen with
  | .error e => (.error (.store e), d)
  | .ok raw =>
    match d.decoder.decodeInto raw d.frame with
    | (.ok (), frame) => (.ok (), { d with frame := frame })
    | (.error e, frame) => (.error (.decode e), { d with frame := frame })

/-- Decodes the grid bytes and presents the frame. -/
def refresh (store : σ) (sink : κ) : Except RefreshError Unit × Display × κ :=
  match d.decode store with
  | (.error e, d) => (.error e, d, sink)
  | (.ok (), d) =>
    match Sink.present sink d.frame with
    | (.ok (), sink) => (.ok (), { d with presented := d.presented + 1 }, sink)
    | (.error e, sink) => (.error (.render e), d, sink)

end Display

/-- A sink that keeps the frames it takes, the latest first, and can be told to
refuse the next one. -/
structure RecordingSink where
  frames : List Frame
  failNext : Bool
  deriving DecidableEq

namespace RecordingSink

/-- A sink without frames. -/
def empty : RecordingSink := ⟨[], false⟩

/-- Keeps a frame, or refuses it if told so. -/
def present (s : RecordingSink) (frame : Frame) : Except RenderError Unit × RecordingSink :=
  if s.failNext then (.error (.sink "injected present failure"), { s with failNext := false })
  else (.ok (), { s with frames := frame :: s.frames })

instance : Sink RecordingSink where
  present := present

end RecordingSink
end ScreenBridge
