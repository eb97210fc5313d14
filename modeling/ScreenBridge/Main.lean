/-
# The program

The outermost layer: it fetches arguments, environment, settings file and typed
commands, hands them to the application, and carries its answer out. The
segments it knows are those it makes itself.

Key definitions: `main`.
-/
import ScreenBridge.Application
import ScreenBridge.Toml.Section

namespace ScreenBridge
namespace Main

open Application

/-- The libraries of the program. -/
def libraries : Libraries := ⟨Request.parse, Toml.library⟩

/-- The variables of the environment that count. -/
def environment : IO Environment := do
  return {
    config := ← IO.getEnv "SHM_MONITOR_CONFIG"
    shmKey := ← IO.getEnv "SHM_MONITOR_KEY"
    snapshot := ← IO.getEnv "SHM_MONITOR_SNAPSHOT"
    logLevel := ← IO.getEnv "SHM_MONITOR_LOG_LEVEL"
    configHome := ← IO.getEnv "XDG_CONFIG_HOME"
    home := ← IO.getEnv "HOME" }

/-- The path of the settings file that a request will look for. -/
def settingsPath? (e : Environment) (arguments : List String) : Option String :=
  match libraries.request e arguments with
  | .ok (.run a) => a.config.or (Config.defaultPath e.configHome e.home).toOption
  | _ => none

/-- A file system that holds the settings file, if there is one. -/
def fetchFiles (path? : Option String) : IO FileSystem := do
  match path? with
  | none => return .fresh
  | some path =>
    try
      let bytes ← IO.FS.readBinFile path
      return ((Config.makeParents .fresh path).2.write path bytes.data).2
    catch _ => return .fresh

/-- Shows how the program ended. -/
def report (exit : Exit) : IO UInt8 := do
  IO.print exit.output
  unless exit.complaint.isEmpty do IO.eprintln exit.complaint
  return exit.code

/-- Puts the image that the viewer keeps where the settings want it. -/
def putSnapshot (path : String) (files : FileSystem) : IO Unit := do
  match files.read path with
  | .ok bytes => IO.FS.writeBinFile path ⟨bytes⟩
  | .error _ => return

/-- Runs a viewer on the commands that are typed, and interrupts it when they
have been applied. -/
def serve (viewer : RunningViewer) : IO UInt8 := do
  let typed ← (← IO.getStdin).readBinToEnd
  match viewer.untilFrame with
  | (.error e, _) => report (.failure e)
  | (.ok _, viewer) =>
    match (viewer.type typed.data.toList).untilTail [] with
    | (.error e, _) => report (.failure e)
    | (.ok _, viewer) =>
      let (exit, world) := viewer.interrupt
      putSnapshot viewer.viewer.sink.path world.files
      report exit

/-- Runs the program. -/
def run (arguments : List String) : IO UInt8 := do
  let e ← environment
  let files ← fetchFiles (settingsPath? e arguments)
  match launch libraries .nothing e arguments ⟨files, .empty⟩ with
  | .ended exit _ => report exit
  | .running viewer => serve viewer

end Main
end ScreenBridge

/-- Starts the program. -/
def main (arguments : List String) : IO UInt32 := do
  return (← ScreenBridge.Main.run arguments).toUInt32
