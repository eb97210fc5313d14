/-
# Running a viewer

A running viewer takes turns until it is told to stop. At the beginning of a
turn it stops if the signal says so. It then applies the events that arrived and
waits for the next tick; if the signal was given at all, it stops instead of
counting that tick. Waiting takes no time here, so a signal can be given only
before the run, inside a poll, or while a frame is presented.

Key definitions: `Shutdown`, `Viewer.runTurns`, `Viewer.run`.
-/
import ScreenBridge.Viewer

namespace ScreenBridge

/-- How a viewer is told to stop. -/
inductive Signal
  /-- The signal is raised, and seen even before the next poll. -/
  | raise
  /-- The signal is given anew without being raised. -/
  | touch
  /-- Whoever could raise it has gone. -/
  | abandon
  deriving DecidableEq, Repr

/-- When the signal is given, counted from zero within the run. -/
inductive Moment
  | beforeRun
  | inPoll (number : Nat)
  | inPresentation (number : Nat)
  deriving DecidableEq, Repr

/-- When and how a run is told to stop. -/
structure Shutdown where
  moment : Moment
  signal : Signal
  deriving DecidableEq, Repr

namespace Shutdown

/-- A number of turns within which the signal is given and obeyed, if the viewer
redraws once in so many ticks. -/
def turns (s : Shutdown) (divisor : Nat) : Nat :=
  match s.moment with
  | .beforeRun => 1
  | .inPoll number => number + 1
  | .inPresentation number => (number + 1) * divisor + 1

end Shutdown

/-- How far a run has come: its polls and presentations, and whether the signal
was given. -/
structure RunState where
  polls : Nat
  presentations : Nat
  signalled : Bool
  deriving DecidableEq, Repr

namespace RunState

/-- The state in which a run begins. -/
def start (s : Shutdown) : RunState := ⟨0, 0, s.moment = .beforeRun⟩

variable (r : RunState) (s : Shutdown)

/-- Counts a poll. -/
def countPoll : RunState :=
  { r with polls := r.polls + 1, signalled := r.signalled || s.moment = .inPoll r.polls }

/-- Counts a presentation. -/
def countPresentation : RunState :=
  { r with
    presentations := r.presentations + 1
    signalled := r.signalled || s.moment = .inPresentation r.presentations }

end RunState

namespace Viewer

variable {σ ι κ : Type} [Store σ] [InputSource ι] [Sink κ]

/-- Takes turns until told to stop, but no more than so many. -/
def runTurns (s : Shutdown) :
    Nat → RunState → Viewer σ ι κ → Except ViewerError Totals × Viewer σ ι κ
  | 0, _, v => (.ok v.schedule.totals, v)
  | n + 1, r, v =>
    if r.signalled ∧ s.signal = .raise then (.ok v.schedule.totals, v)
    else
      match v.service with
      | (.error e, v) => (.error e, v)
      | (.ok _, v) =>
        let r := r.countPoll s
        if r.signalled then (.ok v.schedule.totals, v)
        else
          match v.tick with
          | (.error e, v) => (.error e, v)
          | (.ok redrawn, v) => runTurns s n (if redrawn then r.countPresentation s else r) v

/-- Runs until told to stop or until something fails. Yields the totals of the
viewer's life. -/
def run (v : Viewer σ ι κ) (s : Shutdown) : Except ViewerError Totals × Viewer σ ι κ :=
  runTurns s (s.turns v.schedule.cadence.divisor.toNat) (.start s) v

end Viewer
end ScreenBridge
