/-
# Snapshot paths of any bytes

For the system a path is bytes, whether they are a text or not; a document holds texts
only. So settings are not written if the snapshot is to lie at a path that is no text.
A number that is too large comes first, since it stands in front of the path.

Key definitions: `WriteError`, `Config.toTomlAt`, `Config.saveAt`.
-/
import ScreenBridge.Config.Storage

namespace ScreenBridge

/-- Why settings with a path of any bytes are not written. -/
inductive WriteError
  | config (e : ConfigError)
  /-- The path of the snapshot is no text. -/
  | pathNotText
  deriving DecidableEq, Repr

namespace WriteError

/-- The sentence a person is shown. -/
def message : WriteError → String
  | config e => e.message
  | pathNotText => "failed to serialize config: path contains invalid UTF-8 characters"

end WriteError

namespace Config

variable (toml : Toml.Library) (config : Config)

/-- The document of the settings, with the snapshot at a path of these bytes. -/
def toTomlAt (snapshot : List UInt8) : Except WriteError String :=
  match Text.ofUtf8? snapshot with
  | some path => ({ config with snapshotPath := path }.toToml toml).mapError .config
  | none =>
    match config.toToml toml with
    | .ok _ => .error .pathNotText
    | .error e => .error (.config e)

/-- Writes the settings, with the snapshot at a path of these bytes, into a file.
Directories that are missing are made first. -/
def saveAt (files : FileSystem) (path : String) (snapshot : List UInt8) :
    Except WriteError Unit × FileSystem :=
  match makeParents files path with
  | (.error e, files) => (.error (.config e), files)
  | (.ok (), files) =>
    match config.toTomlAt toml snapshot with
    | .error e => (.error e, files)
    | .ok text =>
      match files.write path text.toUTF8.data with
      | (.ok (), files) => (.ok (), files)
      | (.error cause, files) => (.error (.config (.file path cause)), files)

end Config
end ScreenBridge
