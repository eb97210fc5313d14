/-
# The redraw schedule

Time passes in ticks, and every so many of them, the divisor, a redraw is due.
The schedule also keeps the totals of a viewer's life: ticks, events taken from
batches that were applied completely, and frames.

Key definitions: `Cadence`, `Totals`, `Totals.Fits`, `Schedule`, `Schedule.new`,
`Schedule.tick`.
-/

namespace ScreenBridge

/-- The length of a tick and the number of ticks from one redraw to the next. -/
structure Cadence where
  tickMs : UInt64
  divisor : UInt32
  deriving DecidableEq, Repr

namespace Cadence

/-- Ticks of 50 milliseconds and a redraw at every tenth. -/
def standard : Cadence := ⟨50, 10⟩

end Cadence

/-- What a viewer did so far. The counts have no bound; kept in words of 64 bits they are
the same until one of them reaches `2 ^ 64` (`Totals.Fits`). -/
structure Totals where
  ticks : Nat
  events : Nat
  frames : Nat
  deriving DecidableEq, Repr

/-- The counts of a viewer in words of 64 bits. -/
structure WordTotals where
  ticks : UInt64
  events : UInt64
  frames : UInt64
  deriving DecidableEq, Repr

namespace Totals

variable (t : Totals)

/-- The counts as words. -/
def toWords : WordTotals := ⟨t.ticks.toUInt64, t.events.toUInt64, t.frames.toUInt64⟩

/-- No count has reached `2 ^ 64`. -/
structure Fits : Prop where
  ticks : t.ticks < UInt64.size
  events : t.events < UInt64.size
  frames : t.frames < UInt64.size

end Totals

/-- A cadence, the ticks since a redraw was due, and the totals. -/
structure Schedule where
  cadence : Cadence
  counter : UInt32
  totals : Totals
  deriving DecidableEq, Repr

namespace Schedule

/-- A schedule at its beginning. A divisor of zero gives none. -/
def new (cadence : Cadence) : Option Schedule :=
  if cadence.divisor = 0 then none else some ⟨cadence, 0, ⟨0, 0, 0⟩⟩

variable (s : Schedule)

/-- Counts a tick. Also tells whether a redraw is due. -/
def tick : Bool × Schedule :=
  let s := { s with totals := { s.totals with ticks := s.totals.ticks + 1 } }
  let counter := s.counter + 1
  if counter < s.cadence.divisor then (false, { s with counter := counter })
  else (true, { s with counter := 0 })

/-- Counts a batch of events. -/
def countEvents (n : Nat) : Schedule :=
  { s with totals := { s.totals with events := s.totals.events + n } }

/-- Counts a frame. -/
def countFrame : Schedule :=
  { s with totals := { s.totals with frames := s.totals.frames + 1 } }

end Schedule
end ScreenBridge
