/-
# Settings

What a person can set: the segment and its grid, the cadence, the path of the
snapshot, further places of keys in the matrix, the joystick, and how much is
logged. Layout, matrix and joystick follow from the settings, if these allow it.

Key definitions: `Config`, `Config.standard`, `Config.layout`, `Config.matrix`,
`Config.port`, `ConfigError`.
-/
import ScreenBridge.Fault
import ScreenBridge.Joystick
import ScreenBridge.Layout
import ScreenBridge.Schedule

namespace ScreenBridge

/-- The segment and the size of the grid in it. -/
structure SegmentSettings where
  key : UInt32
  width : UInt64
  height : UInt64
  /-- Make the segment if there is none. -/
  create : Bool
  deriving DecidableEq, Repr

/-- One more place of a key in the matrix. -/
structure Alias where
  key : Key
  row : UInt8
  col : UInt8
  deriving DecidableEq, Repr

/-- Whether the joystick takes its keys, and at which port. -/
structure JoystickSettings where
  enabled : Bool
  port : UInt8
  deriving DecidableEq, Repr

/-- All settings. -/
structure Config where
  segment : SegmentSettings
  cadence : Cadence
  snapshotPath : String
  aliases : List Alias
  joystick : JoystickSettings
  logLevel : String
  deriving DecidableEq, Repr

/-- What is wrong with settings, or with the file that holds them. -/
inductive ConfigError
  /-- There is no directory for settings. -/
  | noDirectory
  | file (path : String) (cause : Fault)
  /-- The text is no document of settings. -/
  | malformed
  /-- A number is too large to be written. -/
  | outOfRange
  | layout (e : LayoutError)
  | aliasCell (e : MatrixError)
  | joystick (e : InvalidPort)
  /-- The joystick takes the key before the matrix does. -/
  | shadowedAlias (key : Key)
  deriving DecidableEq, Repr

namespace ConfigError

/-- The sentence a person is shown. -/
def message : ConfigError → String
  | noDirectory => "could not determine platform config directory"
  | file path cause => s!"I/O error accessing config at {path}: {cause.message}"
  | malformed => "failed to parse config TOML"
  | outOfRange => "failed to serialize config: out-of-range value for u64 type"
  | layout e => s!"invalid segment dimensions: {e.message}"
  | aliasCell e => s!"invalid keyboard alias: {e.message}"
  | joystick e => s!"invalid joystick setting: {e.message}"
  | shadowedAlias key =>
    s!"keyboard alias for {key.name} is unreachable while the joystick is enabled"

end ConfigError

namespace Config

/-- The settings of someone who set nothing. -/
def standard : Config where
  segment := ⟨0x6303b5eb, 402, 292, false⟩
  cadence := .standard
  snapshotPath := "monitor.ppm"
  aliases := []
  joystick := ⟨false, 2⟩
  logLevel := "info"

variable (config : Config)

/-- The layout of the segment. -/
def layout : Except ConfigError Layout :=
  (Layout.new config.segment.width config.segment.height).mapError .layout

/-- Adds an alias to a matrix. A key that the joystick takes is reported before
a place outside the matrix, and that before a key that has no place. -/
def addAlias (m : Matrix) (a : Alias) : Except ConfigError Matrix :=
  if config.joystick.enabled && Joystick.isKey a.key then .error (.shadowedAlias a.key)
  else
    match Cell.new a.row a.col with
    | .error e => .error (.aliasCell e)
    | .ok cell => (m.add a.key cell).mapError .aliasCell

/-- The matrix of the home computer with the aliases, added in order. -/
def matrix : Except ConfigError Matrix :=
  config.aliases.foldlM config.addAlias Matrix.standard

/-- The port of the joystick, if it is enabled. -/
def port : Except ConfigError (Option Port) :=
  if config.joystick.enabled then
    match Port.ofNumber config.joystick.port with
    | .ok port => .ok (some port)
    | .error e => .error (.joystick e)
  else .ok none

end Config
end ScreenBridge
