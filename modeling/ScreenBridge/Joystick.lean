/-
# The joystick

The numeric keypad can stand in for a joystick: 8, 2, 4 and 6 are up, down, left
and right, and 0 fires. Each of them has a bit in the byte of the joystick's
port, set while the key is held, from bit 0 for up to bit 4 for fire.

Key definitions: `Port`, `Joystick`, `Joystick.apply`, `Joystick.state`.
-/
import ScreenBridge.Keyboard

namespace ScreenBridge

/-- A number that is no joystick port. -/
structure InvalidPort where
  number : UInt8
  deriving DecidableEq, Repr

namespace InvalidPort

/-- The sentence a person is shown. -/
def message (e : InvalidPort) : String :=
  s!"joystick port must be 1 or 2, got {e.number}"

end InvalidPort

/-- A joystick port. -/
inductive Port
  | one
  | two
  deriving DecidableEq, Repr

namespace Port

/-- The port's number. -/
def number : Port → UInt8
  | one => 1
  | two => 2

/-- The port with a number. -/
def ofNumber (n : UInt8) : Except InvalidPort Port :=
  if n = 1 then .ok .one else if n = 2 then .ok .two else .error ⟨n⟩

end Port

/-- A joystick at a port, with the keys held for it. -/
structure Joystick where
  port : Port
  held : List Key
  deriving DecidableEq, Repr

/-- What an event does to the joystick. -/
inductive JoystickOutcome
  /-- The key does not belong to the joystick. -/
  | notJoystick
  /-- The key goes down while held, or up while not. -/
  | unchanged
  /-- The state changed; the byte to publish. -/
  | changed (state : UInt8)
  deriving DecidableEq, Repr

namespace Joystick

/-- The bit of a key in the port's byte. -/
def bit? : Key → Option UInt8
  | .keypad8 => some 0
  | .keypad2 => some 1
  | .keypad4 => some 2
  | .keypad6 => some 3
  | .keypad0 => some 4
  | _ => none

/-- Does the key belong to the joystick? -/
def isKey (key : Key) : Bool := (bit? key).isSome

/-- A joystick of which no key is held. -/
def idle (port : Port) : Joystick := ⟨port, []⟩

variable (j : Joystick)

/-- The byte of the port. -/
def state : UInt8 :=
  (j.held.filterMap bit?).foldl (fun byte bit => byte ||| ((1 : UInt8) <<< bit)) 0

/-- Applies an event, if its key belongs to the joystick. -/
def apply (e : Event) : JoystickOutcome × Joystick :=
  if isKey e.key then
    match e.motion with
    | .down =>
      if e.key ∈ j.held then (.unchanged, j)
      else
        let next : Joystick := { j with held := e.key :: j.held }
        (.changed next.state, next)
    | .up =>
      if e.key ∈ j.held then
        let next : Joystick := { j with held := j.held.erase e.key }
        (.changed next.state, next)
      else (.unchanged, j)
  else (.notJoystick, j)

/-- The joystick with every key let go. -/
def releaseAll : Joystick := { j with held := [] }

end Joystick
end ScreenBridge
