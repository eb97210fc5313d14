/-
# Writing settings

Settings are written as a TOML document that names all of them: a table for each
group of settings, and in that of the keyboard a list with a table for each alias.

Key definitions: `Config.aliasTree`, `Config.groups`, `Config.tree`, `Config.toToml`.
-/
import ScreenBridge.Config
import ScreenBridge.Toml.Library

namespace ScreenBridge
namespace Config

open Toml (Tree)

/-- The table of an alias. -/
def aliasTree (a : Alias) : Tree :=
  .table [("key", .text a.key.name), ("row", .number a.row.toNat), ("col", .number a.col.toNat)]

variable (config : Config)

/-- The groups of the settings. -/
def groups : List (String × Tree) :=
  [("segment", .table
      [("key", .number config.segment.key.toNat), ("width", .number config.segment.width.toNat),
        ("height", .number config.segment.height.toNat), ("create", .flag config.segment.create)]),
    ("scheduler", .table
      [("tick_ms", .number config.cadence.tickMs.toNat),
        ("redraw_divisor", .number config.cadence.divisor.toNat)]),
    ("render", .table [("snapshot_path", .text config.snapshotPath)]),
    ("keyboard", .table [("aliases", .list (config.aliases.map aliasTree))]),
    ("joystick", .table
      [("enabled", .flag config.joystick.enabled), ("port", .number config.joystick.port.toNat)]),
    ("logging", .table [("log_level", .text config.logLevel)])]

/-- The table of the settings. -/
def tree : Tree := .table config.groups

/-- The document of the settings. -/
def toToml (toml : Toml.Library) : Except ConfigError String :=
  match toml.write config.tree with
  | some text => .ok text
  | none => .error .outOfRange

end Config
end ScreenBridge
