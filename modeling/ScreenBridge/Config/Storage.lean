/-
# Where settings are kept

Settings lie in a file. If there is no such file, the standard settings hold.

Key definitions: `Config.load`, `Config.save`, `Config.directory`,
`Config.defaultPath`.
-/
import ScreenBridge.Config.Reader
import ScreenBridge.Config.Writer
import ScreenBridge.FileSystem
import ScreenBridge.Text.Lines

namespace ScreenBridge
namespace Config

/-- The settings in a file. -/
def load (toml : Toml.Library) (files : FileSystem) (path : String) :
    Except ConfigError Config :=
  match files.read path with
  | .ok bytes =>
    match Text.ofUtf8? bytes.toList with
    | some text => ofToml toml text
    | none =>
      .error (.file path (.custom .invalidData "stream did not contain valid UTF-8"))
  | .error cause => if cause.kind = .notFound then .ok standard else .error (.file path cause)

/-- Makes the directories above a path that are missing. -/
def makeParents (files : FileSystem) (path : String) : Except ConfigError Unit × FileSystem :=
  match Path.parent? path with
  | none => (.ok (), files)
  | some parent =>
    match files.makeDirectories parent with
    | (.ok (), files) => (.ok (), files)
    | (.error cause, files) => (.error (.file parent cause), files)

/-- Writes settings into a file. Directories that are missing are made first,
even if the settings cannot be written. -/
def save (toml : Toml.Library) (files : FileSystem) (path : String) (config : Config) :
    Except ConfigError Unit × FileSystem :=
  match makeParents files path with
  | (.error e, files) => (.error e, files)
  | (.ok (), files) =>
    match config.toToml toml with
    | .error e => (.error e, files)
    | .ok text =>
      match files.write path text.toUTF8.data with
      | (.ok (), files) => (.ok (), files)
      | (.error cause, files) => (.error (.file path cause), files)

/-- The directory of the settings: below the one that the environment names for
settings, or else below the home directory. -/
def directory (configHome home : Option String) : Except ConfigError String :=
  match configHome, home with
  | some base, _ => .ok (Path.join base "shm-monitor")
  | none, some home => .ok (Path.join (Path.join home ".config") "shm-monitor")
  | none, none => .error .noDirectory

/-- The file in which settings are looked for if no other is named. -/
def defaultPath (configHome home : Option String) : Except ConfigError String :=
  (directory configHome home).map (Path.join · "config.toml")

end Config
end ScreenBridge
