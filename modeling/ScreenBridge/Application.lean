/-
# The application

From the command line, the environment, the files and the segments to a viewer
that runs. The settings come from a file and are overridden by the arguments;
the segment is opened before matrix, joystick and cadence are looked at. A
running viewer reads commands from a stream of bytes, and an interrupt makes it
let go of every key and end.

Key definitions: `Application.Failure`, `Application.Libraries`,
`Application.settings`, `Application.start`, `Application.launch`, `RunningViewer`,
`RunningViewer.untilFrame`, `RunningViewer.untilTail`,
`RunningViewer.interrupt`.
-/
import ScreenBridge.Arguments
import ScreenBridge.Config.Storage
import ScreenBridge.Segment
import ScreenBridge.Snapshot
import ScreenBridge.Viewer

namespace ScreenBridge
namespace Application

/-- Why the program fails. -/
inductive Failure
  | usage (e : ArgumentError)
  | loadFrom (path : String) (e : ConfigError)
  | load (e : ConfigError)
  | config (e : ConfigError)
  | segment (e : StoreError)
  | schedule (e : ViewerError)
  | stopped (e : ViewerError)
  | release (e : BridgeError)
  deriving DecidableEq, Repr

namespace Failure

/-- The sentence a person is shown. -/
def message : Failure → String
  | usage e => s!"error: {e.message}"
  | loadFrom path _ => s!"Error: failed to load config from {path}"
  | load _ => "Error: failed to load config"
  | config e => s!"Error: {e.message}"
  | segment e => s!"Error: {e.message}"
  | schedule e => s!"Error: {e.message}"
  | stopped _ => "Error: viewer stopped on error"
  | release _ => "Error: failed to release held keys"

/-- The exit code of the program. -/
def exitCode : Failure → UInt8
  | usage _ => 2
  | _ => 1

end Failure

/-- How the program ended. -/
structure Exit where
  code : UInt8
  output : String
  complaint : String
  deriving DecidableEq, Repr

namespace Exit

/-- A success with some output. -/
def success (output : String) : Exit := ⟨0, output, ""⟩

/-- A failure. Of a sentence over several lines only the first is shown. -/
def failure (e : Failure) : Exit :=
  ⟨e.exitCode, "", String.ofList (e.message.toList.takeWhile (· ≠ '\n'))⟩

end Exit

/-- What the program finds around it. -/
structure World where
  files : FileSystem
  segments : SegmentTable
  deriving DecidableEq, Repr

/-- What the program leaves to others: reading the command line, and writing and
reading TOML. -/
structure Libraries where
  request : Environment → List String → Except ArgumentError Request
  toml : Toml.Library

/-! ### Settings -/

/-- The settings in the file that the arguments name, or else in the file at the
usual place. Without a usual place the standard settings hold. -/
def storedSettings (toml : Toml.Library) (e : Environment) (files : FileSystem)
    (a : Arguments) : Except Failure Config :=
  match a.config with
  | some path => (Config.load toml files path).mapError (.loadFrom path)
  | none =>
    match Config.defaultPath e.configHome e.home with
    | .error _ => .ok .standard
    | .ok path => (Config.load toml files path).mapError .load

/-- The settings with those that the arguments override. -/
def override (a : Arguments) (c : Config) : Config :=
  { c with
    segment :=
      { c.segment with
        key := a.shmKey.getD c.segment.key
        create := a.create || c.segment.create }
    cadence := ⟨a.tickMs.getD c.cadence.tickMs, a.redrawDivisor.getD c.cadence.divisor⟩
    snapshotPath := a.snapshot.getD c.snapshotPath
    logLevel := a.logLevel.getD c.logLevel }

/-- The settings that hold. -/
def settings (toml : Toml.Library) (e : Environment) (files : FileSystem) (a : Arguments) :
    Except Failure Config :=
  (storedSettings toml e files a).map (override a)

/-! ### Starting -/

/-- Opens the segment of the settings. -/
def openSegment (r : SegmentRefusals) (s : SegmentSettings) (layout : Layout)
    (table : SegmentTable) : Except StoreError SegmentHandle × SegmentTable :=
  if s.create then table.create r s.key layout.minLen layout.fullLen
  else (table.attach r s.key layout.minLen, table)

end Application

/-- A viewer over a segment that reads a stream of commands and keeps
snapshots. -/
structure RunningViewer where
  viewer : Viewer AttachedStore Channel Snapshot
  /-- The bytes of a line that has not ended. -/
  typed : List UInt8

namespace Application

/-- Makes the viewer of the settings over an open segment. -/
def assemble (c : Config) (layout : Layout) (store : AttachedStore) (files : FileSystem) :
    Except Failure RunningViewer := do
  let matrix ← c.matrix.mapError .config
  let port ← c.port.mapError .config
  let viewer ←
    (Viewer.new store Channel.empty (Snapshot.mk c.snapshotPath files) ⟨layout, .standard⟩
      matrix port c.cadence).mapError .schedule
  return ⟨viewer, []⟩

/-- Starts the viewer of the settings. Also yields the world, since a segment
that was made stays even if the start fails afterwards. -/
def start (r : SegmentRefusals) (c : Config) (w : World) :
    Except Failure RunningViewer × World :=
  match c.layout with
  | .error e => (.error (.config e), w)
  | .ok layout =>
    match openSegment r c.segment layout w.segments with
    | (.error e, table) => (.error (.segment e), { w with segments := table })
    | (.ok handle, table) =>
      (assemble c layout ⟨table, handle⟩ w.files, { w with segments := table })

/-- The program's version. -/
def versionText : String := "monitor-viewer 0.1.0\n"

/-- What the program says about its use. -/
def helpText : String :=
  "Viewer and keyboard bridge for an emulator publishing its screen over System V shared memory.\n\nUsage: monitor-viewer [OPTIONS]\n"

/-- What the program tells about itself. -/
def tell : Question → String
  | .help => helpText
  | .version => versionText

/-- What comes of starting the program. -/
inductive Launch
  | ended (exit : Exit) (world : World)
  | running (viewer : RunningViewer)

/-- The program up to the point at which its viewer runs. -/
def launch (libraries : Libraries) (r : SegmentRefusals) (e : Environment)
    (arguments : List String) (w : World) : Launch :=
  match libraries.request e arguments with
  | .error err => .ended (.failure (.usage err)) w
  | .ok (.tell q) => .ended (.success (tell q)) w
  | .ok (.run a) =>
    match settings libraries.toml e w.files a with
    | .error err => .ended (.failure err) w
    | .ok c =>
      if a.printConfig then
        match c.toToml libraries.toml with
        | .ok text => .ended (.success text) w
        | .error err => .ended (.failure (.config err)) w
      else
        match start r c w with
        | (.error err, w) => .ended (.failure err) w
        | (.ok viewer, _) => .running viewer

end Application

namespace RunningViewer

open Application

variable (r : RunningViewer)

/-- The world as the viewer leaves it. -/
def world : World := ⟨r.viewer.sink.files, r.viewer.store.table⟩

/-- The bytes of the segment behind the grid. -/
def tail : List UInt8 :=
  (r.viewer.store.bytes.toList).drop r.viewer.bridge.layout.gridLen.toNat

/-- Bytes arrive on the stream of commands. A line counts when its end is there. -/
def type (bytes : List UInt8) : RunningViewer :=
  let (lines, typed) := Text.completeLines (r.typed ++ bytes)
  { viewer := { r.viewer with input := (r.viewer.input.feed lines).2 }, typed := typed }

/-- One turn: what arrived is applied, and a tick passes. -/
def turn : Except Failure Unit × RunningViewer :=
  match r.viewer.step with
  | (.ok _, viewer) => (.ok (), { r with viewer := viewer })
  | (.error e, viewer) => (.error (.stopped e), { r with viewer := viewer })

/-- Takes turns until something holds, but no more than so many. Tells whether
it came to hold. -/
def turnsUntil (goal : RunningViewer → Bool) :
    Nat → RunningViewer → Except Failure Bool × RunningViewer
  | 0, r => (.ok (goal r), r)
  | n + 1, r =>
    if goal r then (.ok true, r)
    else
      match r.turn with
      | (.ok (), r) => turnsUntil goal n r
      | (.error e, r) => (.error e, r)

/-- Takes turns until the first frame is there. A redraw is due once in as many
turns as the divisor says. -/
def untilFrame : Except Failure Bool × RunningViewer :=
  turnsUntil (fun r => 0 < r.viewer.display.presented) r.viewer.schedule.cadence.divisor.toNat r

/-- Takes turns until the bytes behind the grid are these, or until nothing is
left to apply. Every turn applies at least one event of those that wait. -/
def untilTail (bytes : List UInt8) : Except Failure Bool × RunningViewer :=
  let waiting := r.viewer.input.pending.length + r.viewer.input.queued.length
  turnsUntil (fun r => r.tail = bytes) waiting r

/-- Interrupts the viewer: it lets go of every key and ends. -/
def interrupt : Exit × World :=
  match r.viewer.releaseAll with
  | (.ok (), viewer) => (.success "", { r with viewer := viewer }.world)
  | (.error e, viewer) => (.failure (.release e), { r with viewer := viewer }.world)

end RunningViewer
end ScreenBridge
