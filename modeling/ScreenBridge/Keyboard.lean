/-
# The keyboard

The state behind the keyboard bytes: the matrix, the held keys and the hold
counters. A key that goes down although it is held, and a key that goes up
although it is not, change nothing.

Key definitions: `Motion`, `Event`, `Keyboard`, `Keyboard.apply`,
`Keyboard.releaseAll`.
-/
import ScreenBridge.Matrix.Counters

namespace ScreenBridge

/-- The direction in which a key moves. -/
inductive Motion
  | down
  | up
  deriving DecidableEq, Repr

/-- A key that moves. -/
structure Event where
  motion : Motion
  key : Key
  deriving DecidableEq, Repr

/-- The matrix with the keys held in it. -/
structure Keyboard where
  matrix : Matrix
  counters : HoldCounters
  held : List Key
  deriving DecidableEq, Repr

/-- What an event does to the keyboard. -/
inductive KeyboardOutcome
  /-- The state changed; the status bytes to publish and the number of crossings
  of the key. -/
  | applied (status : Status) (cells : Nat)
  /-- The key has no crossing. -/
  | unmapped
  /-- The key goes down but is held already. -/
  | repeated
  /-- The key goes up but is not held. -/
  | unbalanced
  deriving DecidableEq, Repr

namespace Keyboard

/-- A keyboard on which no key is held. -/
def idle (matrix : Matrix) : Keyboard := ⟨matrix, .zero, []⟩

variable (k : Keyboard)

/-- The status bytes of the held keys. -/
def status : Status := k.counters.status

/-- The held keys, in the order in which keys are listed. -/
def heldKeys : List Key := Key.all.filter (· ∈ k.held)

/-- Holds a key at its crossings. -/
def hold (key : Key) (cells : List Cell) : Keyboard :=
  { k with held := key :: k.held, counters := cells.foldl .press k.counters }

/-- Lets a key go at its crossings. -/
def letGo (key : Key) (cells : List Cell) : Keyboard :=
  { k with
    held := k.held.erase key
    counters := cells.foldl (fun counters cell => (counters.release cell).2) k.counters }

/-- Applies an event at every crossing of its key. -/
def apply (e : Event) : KeyboardOutcome × Keyboard :=
  match k.matrix.cellsFor e.key with
  | [] => (.unmapped, k)
  | cells =>
    match e.motion with
    | .down =>
      if e.key ∈ k.held then (.repeated, k)
      else
        let next := k.hold e.key cells
        (.applied next.status cells.length, next)
    | .up =>
      if e.key ∈ k.held then
        let next := k.letGo e.key cells
        (.applied next.status cells.length, next)
      else (.unbalanced, k)

/-- The keyboard with every key let go. -/
def releaseAll : Keyboard := { k with counters := .zero, held := [] }

end Keyboard
end ScreenBridge
