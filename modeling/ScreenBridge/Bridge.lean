/-
# The keyboard bridge

Events of the viewer's keyboard become bytes of the segment. An event that
changes the keyboard publishes the column byte and then the row byte. While a
joystick is plugged in, its keys go to it and publish the byte of its port; a
segment that ends before that byte gets none.

An event changes the state of the bridge even if publishing fails, so that the
next event publishes what the failed one could not.

Key definitions: `Bridge`, `Bridge.apply`, `Bridge.applyAll`,
`Bridge.releaseAll`.
-/
import ScreenBridge.Joystick
import ScreenBridge.Layout
import ScreenBridge.Store

namespace ScreenBridge

/-- Why a state of the keys could not be published. -/
inductive BridgeError
  | store (e : StoreError)
  deriving DecidableEq, Repr

namespace BridgeError

/-- The sentence a person is shown. -/
def message : BridgeError → String
  | store e => s!"failed to publish keyboard state: {e.message}"

end BridgeError

/-- The keyboard, and perhaps a joystick, before a segment of some layout. -/
structure Bridge where
  layout : Layout
  keyboard : Keyboard
  joystick : Option Joystick
  deriving DecidableEq, Repr

namespace Bridge

variable {σ : Type} [Store σ]

/-- The bytes that publish a state of the keyboard. -/
def statusWrites (layout : Layout) (status : Status) : List (UInt64 × UInt8) :=
  [(layout.colOffset, status.col), (layout.rowOffset, status.row)]

/-- The bytes that publish a state of a joystick in a store of some size. -/
def portWrites (layout : Layout) (port : Port) (state : UInt8) (size : Nat) :
    List (UInt64 × UInt8) :=
  match layout.joystickOffset port.number with
  | some offset => if offset.toNat < size then [(offset, state)] else []
  | none => []

/-- Writes bytes into the store. -/
def publish (store : σ) (writes : List (UInt64 × UInt8)) : Except BridgeError Unit × σ :=
  match Store.writeAll store writes with
  | (.ok (), store) => (.ok (), store)
  | (.error e, store) => (.error (.store e), store)

variable (b : Bridge)

/-- Applies an event to the keyboard. Also yields the bytes to publish. -/
def applyToKeyboard (e : Event) : List (UInt64 × UInt8) × Bridge :=
  let (outcome, keyboard) := b.keyboard.apply e
  let b := { b with keyboard := keyboard }
  match outcome with
  | .applied status _ => (statusWrites b.layout status, b)
  | .unmapped => ([], b)
  | .repeated => ([], b)
  | .unbalanced => ([], b)

/-- Applies an event to the joystick, if it has the key, or else to the
keyboard. Also yields the bytes to publish in a store of some size. -/
def route (e : Event) (size : Nat) : List (UInt64 × UInt8) × Bridge :=
  match b.joystick with
  | none => b.applyToKeyboard e
  | some joystick =>
    match joystick.apply e with
    | (.changed state, next) =>
      (portWrites b.layout joystick.port state size, { b with joystick := some next })
    | (.unchanged, next) => ([], { b with joystick := some next })
    | (.notJoystick, _) => b.applyToKeyboard e

/-- Applies an event and publishes what it changes. -/
def apply (store : σ) (e : Event) : Except BridgeError Unit × Bridge × σ :=
  let (writes, b) := b.route e (Store.size store)
  let (result, store) := publish store writes
  (result, b, store)

/-- Applies events one after another and stops at the first that fails. -/
def applyAll (b : Bridge) (store : σ) : List Event → Except BridgeError Unit × Bridge × σ
  | [] => (.ok (), b, store)
  | e :: es =>
    match b.apply store e with
    | (.ok (), b, store) => applyAll b store es
    | (.error err, b, store) => (.error err, b, store)

/-- Lets go every key of the joystick and publishes that. -/
def releaseJoystick (store : σ) : Except BridgeError Unit × Bridge × σ :=
  match b.joystick with
  | none => (.ok (), b, store)
  | some joystick =>
    let next := joystick.releaseAll
    let (result, store) :=
      publish store (portWrites b.layout joystick.port next.state (Store.size store))
    (result, { b with joystick := some next }, store)

/-- Lets go every key and publishes that, first for the keyboard. If publishing
fails there, the joystick keeps its keys. -/
def releaseAll (store : σ) : Except BridgeError Unit × Bridge × σ :=
  let keyboard := b.keyboard.releaseAll
  let b := { b with keyboard := keyboard }
  match publish store (statusWrites b.layout keyboard.status) with
  | (.error e, store) => (.error e, b, store)
  | (.ok (), store) => b.releaseJoystick store

end Bridge
end ScreenBridge
