/-
# The viewer

A viewer takes events from its input to the keyboard bridge, and frames from its
display to a sink, over one store. In a step it first applies the events that
arrived and then counts a tick, which redraws when a redraw is due. What fails
first ends the step; nothing is undone.

Key definitions: `ViewerError`, `Viewer`, `Viewer.service`, `Viewer.tick`,
`Viewer.step`, `Viewer.refresh`, `Viewer.releaseAll`.
-/
import ScreenBridge.Bridge
import ScreenBridge.Display
import ScreenBridge.Input
import ScreenBridge.Schedule

namespace ScreenBridge

/-- Why a viewer cannot be made or go on. -/
inductive ViewerError
  | zeroDivisor
  | keyboard (e : BridgeError)
  | refresh (e : RefreshError)
  deriving DecidableEq, Repr

namespace ViewerError

/-- The sentence a person is shown. -/
def message : ViewerError → String
  | zeroDivisor => "redraw divisor must be at least 1"
  | keyboard e => e.message
  | refresh e => e.message

end ViewerError

/-- A viewer over a store, with an input and a sink. -/
structure Viewer (σ ι κ : Type) where
  store : σ
  input : ι
  sink : κ
  bridge : Bridge
  display : Display
  schedule : Schedule
  deriving DecidableEq

/-- What a step did. -/
structure StepReport where
  events : Nat
  redrawn : Bool
  deriving DecidableEq, Repr

namespace Viewer

variable {σ ι κ : Type} [Store σ] [InputSource ι] [Sink κ]

/-- A viewer at its beginning: no key is held and nothing was shown. -/
def new (store : σ) (input : ι) (sink : κ) (decoder : Decoder) (matrix : Matrix)
    (port : Option Port) (cadence : Cadence) : Except ViewerError (Viewer σ ι κ) :=
  match Schedule.new cadence with
  | none => .error .zeroDivisor
  | some schedule =>
    .ok
      { store, input, sink, schedule
        bridge := ⟨decoder.layout, .idle matrix, port.map .idle⟩
        display := .new decoder }

variable (v : Viewer σ ι κ)

/-- Applies events, outside of any poll, and stops at the first that fails. -/
def applyEvents (events : List Event) : Except BridgeError Unit × Viewer σ ι κ :=
  let (result, bridge, store) := v.bridge.applyAll v.store events
  (result, { v with bridge, store })

/-- Lets go every key. -/
def releaseAll : Except BridgeError Unit × Viewer σ ι κ :=
  let (result, bridge, store) := v.bridge.releaseAll v.store
  (result, { v with bridge, store })

/-- Polls the input and applies the batch. The rest of a batch after an event
that fails is lost, and such a batch is not counted. -/
def service : Except ViewerError Nat × Viewer σ ι κ :=
  let (events, input) := InputSource.poll v.input
  let v := { v with input }
  match v.applyEvents events with
  | (.error e, v) => (.error (.keyboard e), v)
  | (.ok (), v) => (.ok events.length, { v with schedule := v.schedule.countEvents events.length })

/-- Decodes what the store shows now. -/
def decode : Except RefreshError Frame × Viewer σ ι κ :=
  let (result, display) := v.display.decode v.store
  (result.map fun _ => display.frame, { v with display })

/-- Redraws now, outside of the schedule. -/
def refresh : Except RefreshError Unit × Viewer σ ι κ :=
  let (result, display, sink) := v.display.refresh v.store v.sink
  (result, { v with display, sink })

/-- Counts a tick and redraws if a redraw is due. Tells whether it redrew. -/
def tick : Except ViewerError Bool × Viewer σ ι κ :=
  let (due, schedule) := v.schedule.tick
  let v := { v with schedule }
  if due then
    match v.refresh with
    | (.error e, v) => (.error (.refresh e), v)
    | (.ok (), v) => (.ok true, { v with schedule := v.schedule.countFrame })
  else (.ok false, v)

/-- Applies the events that arrived, then counts a tick. -/
def step : Except ViewerError StepReport × Viewer σ ι κ :=
  match v.service with
  | (.error e, v) => (.error e, v)
  | (.ok events, v) =>
    match v.tick with
    | (.error e, v) => (.error e, v)
    | (.ok redrawn, v) => (.ok ⟨events, redrawn⟩, v)

end Viewer
end ScreenBridge
