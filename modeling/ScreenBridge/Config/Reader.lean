/-
# Reading settings

Settings are read from a TOML document with a table for each group of them. What
is missing has its standard value, and what is unknown does not count. A group
may also be given as an array, which holds its settings in their order.

Key definitions: `Config.Group`, `Config.readKey`, `Config.readAlias`,
`Config.ofEntries`, `Config.ofToml`.
-/
import ScreenBridge.Config
import ScreenBridge.Text.Numeral
import ScreenBridge.Toml.Library

namespace ScreenBridge
namespace Config

open Toml (Value Entries)

/-! ### Single settings -/

/-- An unsigned word of so many bits. -/
def readWord (bits : Nat) : Value → Option Nat
  | .integer n => if 0 ≤ n ∧ n ≤ Text.wordMax bits then some n.toNat else none
  | _ => none

/-- A 64-bit word. -/
def readWord64 (v : Value) : Option UInt64 := (readWord 64 v).map (·.toUInt64)

/-- A 32-bit word. -/
def readWord32 (v : Value) : Option UInt32 := (readWord 32 v).map (·.toUInt32)

/-- A byte. -/
def readByte (v : Value) : Option UInt8 := (readWord 8 v).map (·.toUInt8)

/-- A boolean. -/
def readFlag : Value → Option Bool
  | .boolean b => some b
  | _ => none

/-- A text. -/
def readText : Value → Option String
  | .string s => some s
  | _ => none

/-- Does a value hold nothing? -/
def isEmptyValue : Value → Bool
  | .array items => items.isEmpty
  | .table _ entries => entries.isEmpty
  | .tables elements => elements.isEmpty
  | _ => false

/-- A key whose name has an empty value. -/
def readNamedKey : String × Value → Option Key
  | (name, value) => if isEmptyValue value then Key.ofExactName? name else none

/-- A key: its name, or a table in which the first entry has that name and an
empty value. Between braces there is no other entry. -/
def readKey : Value → Option Key
  | .string name => Key.ofExactName? name
  | .table kind (entry :: rest) =>
    if kind = .inline ∨ kind = .inlineDotted then
      (if rest.isEmpty then readNamedKey entry else none)
    else readNamedKey entry
  | _ => none

/-! ### Groups of settings -/

/-- What a group of settings is read from. -/
inductive Group
  | named (entries : Entries)
  | listed (values : List Value)

namespace Group

/-- The group that a value gives. A date or a time gives one without any setting
that is known here. -/
def ofValue? : Value → Option Group
  | .table _ entries => some (.named entries)
  | .array items => some (.listed items)
  | .tables elements => some (.listed (elements.map (.table .header)))
  | .dateTime _ => some (.named [])
  | _ => none

/-- The value of a setting, by its name or its position. -/
def find? (g : Group) (position : Nat) (name : String) : Option Value :=
  match g with
  | named entries => entries.lookup name
  | listed values => values[position]?

/-- A setting, or something else if it is missing. -/
def setting {α : Type} (g : Group) (position : Nat) (name : String)
    (read : Value → Option α) (missing : Option α) : Option α :=
  match g.find? position name with
  | some value => read value
  | none => missing

end Group

/-- The segment's settings. -/
def readSegment (v : Value) : Option SegmentSettings := do
  let g ← Group.ofValue? v
  let absent := standard.segment
  let key ← g.setting 0 "key" readWord32 absent.key
  let width ← g.setting 1 "width" readWord64 absent.width
  let height ← g.setting 2 "height" readWord64 absent.height
  let create ← g.setting 3 "create" readFlag absent.create
  return ⟨key, width, height, create⟩

/-- The cadence. -/
def readCadence (v : Value) : Option Cadence := do
  let g ← Group.ofValue? v
  let absent := standard.cadence
  let tickMs ← g.setting 0 "tick_ms" readWord64 absent.tickMs
  let divisor ← g.setting 1 "redraw_divisor" readWord32 absent.divisor
  return ⟨tickMs, divisor⟩

/-- The path of the snapshot. -/
def readSnapshotPath (v : Value) : Option String := do
  let g ← Group.ofValue? v
  g.setting 0 "snapshot_path" readText standard.snapshotPath

/-- An alias. None of its settings may be missing. -/
def readAlias (v : Value) : Option Alias := do
  let g ← Group.ofValue? v
  let key ← g.setting 0 "key" readKey none
  let row ← g.setting 1 "row" readByte none
  let col ← g.setting 2 "col" readByte none
  return ⟨key, row, col⟩

/-- A list of aliases. -/
def readAliasList : Value → Option (List Alias)
  | .array items => items.mapM readAlias
  | .tables elements => elements.mapM fun entries => readAlias (.table .header entries)
  | _ => none

/-- The aliases. -/
def readAliases (v : Value) : Option (List Alias) := do
  let g ← Group.ofValue? v
  g.setting 0 "aliases" readAliasList standard.aliases

/-- The joystick's settings. -/
def readJoystick (v : Value) : Option JoystickSettings := do
  let g ← Group.ofValue? v
  let absent := standard.joystick
  let enabled ← g.setting 0 "enabled" readFlag absent.enabled
  let port ← g.setting 1 "port" readByte absent.port
  return ⟨enabled, port⟩

/-- How much is logged. -/
def readLogLevel (v : Value) : Option String := do
  let g ← Group.ofValue? v
  g.setting 0 "log_level" readText standard.logLevel

/-! ### All settings -/

/-- The settings of a document's table. -/
def ofEntries (entries : Entries) : Option Config := do
  let g := Group.named entries
  let segment ← g.setting 0 "segment" readSegment standard.segment
  let cadence ← g.setting 1 "scheduler" readCadence standard.cadence
  let snapshotPath ← g.setting 2 "render" readSnapshotPath standard.snapshotPath
  let aliases ← g.setting 3 "keyboard" readAliases standard.aliases
  let joystick ← g.setting 4 "joystick" readJoystick standard.joystick
  let logLevel ← g.setting 5 "logging" readLogLevel standard.logLevel
  return ⟨segment, cadence, snapshotPath, aliases, joystick, logLevel⟩

/-- The settings of a document. -/
def ofToml (toml : Toml.Library) (text : String) : Except ConfigError Config :=
  match (toml.read text).bind ofEntries with
  | some config => .ok config
  | none => .error .malformed

end Config
end ScreenBridge
