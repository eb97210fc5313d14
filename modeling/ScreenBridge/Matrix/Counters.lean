/-
# Hold counters

For each row and each column of the matrix, how many held crossings lie in it.
Counting keeps a line active until the last key in it is let go. A line's bit of
the status bytes is set while its counter is above zero, the lowest bit being
line 0.

Key definitions: `Status`, `HoldCounters`, `HoldCounters.press`,
`HoldCounters.release`, `HoldCounters.status`.
-/
import ScreenBridge.Matrix

namespace ScreenBridge

/-- The two keyboard bytes of the segment: active columns and active rows. -/
structure Status where
  col : UInt8
  row : UInt8
  deriving DecidableEq, Repr

/-- The byte whose bit `n` is set when counter `n` is above zero. -/
def packCounts (counts : Vector UInt32 8) : UInt8 :=
  (List.finRange 8).foldl
    (fun byte (n : Fin 8) => if 0 < counts[n] then byte ||| (1 <<< UInt8.ofNat n.val) else byte) 0

/-- Counters of held crossings, one for each row and each column. -/
structure HoldCounters where
  rows : Vector UInt32 8
  cols : Vector UInt32 8
  deriving DecidableEq, Repr

namespace HoldCounters

/-- All counters at zero. -/
def zero : HoldCounters := ⟨Vector.replicate 8 0, Vector.replicate 8 0⟩

variable (c : HoldCounters)

/-- Counts a crossing as held. -/
def press (cell : Cell) : HoldCounters where
  rows := c.rows.set cell.row (c.rows[cell.row] + 1)
  cols := c.cols.set cell.col (c.cols[cell.col] + 1)

/-- One less, but not below zero. -/
def decrement (n : UInt32) : UInt32 :=
  if n = 0 then 0 else n - 1

/-- Counts a crossing as let go, with zero as the floor of each counter. Also
tells whether both counters were above zero. -/
def release (cell : Cell) : Bool × HoldCounters :=
  (decide (0 < c.rows[cell.row]) && decide (0 < c.cols[cell.col]),
    { rows := c.rows.set cell.row (decrement c.rows[cell.row])
      cols := c.cols.set cell.col (decrement c.cols[cell.col]) })

/-- The status bytes of the counters. -/
def status : Status := ⟨packCounts c.cols, packCounts c.rows⟩

/-- Is no crossing counted as held? -/
def isIdle : Bool := c.rows.all (· = 0) && c.cols.all (· = 0)

end HoldCounters
end ScreenBridge
