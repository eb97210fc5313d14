/-
# The command line

Settings are given as `--name value` or `--name=value`, switches as `--name`
alone, and each of them at most once. Some settings can also come from the
environment, where the command line does not give them.

A setting counts only when the next option begins, or at the end: that is when a
missing value, a repetition or a malformed value is noticed. An argument that
means nothing to the program is noticed at once.

Key definitions: `Arguments`, `Setting`, `Flag`, `ArgumentError`, `Environment`,
`Arguments.put`, `CommandLine.take`, `Request`, `Request.parse`.
-/
import ScreenBridge.Text.Numeral
import ScreenBridge.Text.Quoted

namespace ScreenBridge

/-- What the command line and the environment say. -/
structure Arguments where
  config : Option String
  shmKey : Option UInt32
  create : Bool
  tickMs : Option UInt64
  redrawDivisor : Option UInt32
  snapshot : Option String
  logLevel : Option String
  printConfig : Bool
  deriving DecidableEq, Repr

/-- The variables of the environment that count. -/
structure Environment where
  config : Option String
  shmKey : Option String
  snapshot : Option String
  logLevel : Option String
  /-- The directory for settings of all programs. -/
  configHome : Option String
  home : Option String
  deriving DecidableEq, Repr

/-- The options with a value. -/
inductive Setting
  | config
  | shmKey
  | tickMs
  | redrawDivisor
  | snapshot
  | logLevel
  deriving DecidableEq, Repr

/-- The options without a value that set something. -/
inductive Switch
  | create
  | printConfig
  deriving DecidableEq, Repr

/-- The options that ask about the program. -/
inductive Question
  | help
  | version
  deriving DecidableEq, Repr

/-- An option. -/
inductive Flag
  | setting (s : Setting)
  | switch (s : Switch)
  | question (q : Question)
  deriving DecidableEq, Repr

namespace Flag

/-- All options. -/
def all : List Flag :=
  [setting .config, setting .shmKey, switch .create, setting .tickMs, setting .redrawDivisor,
    setting .snapshot, setting .logLevel, switch .printConfig, question .help, question .version]

/-- The name behind the hyphens. -/
def name : Flag → String
  | setting .config => "config"
  | setting .shmKey => "shm-key"
  | setting .tickMs => "tick-ms"
  | setting .redrawDivisor => "redraw-divisor"
  | setting .snapshot => "snapshot"
  | setting .logLevel => "log-level"
  | switch .create => "create"
  | switch .printConfig => "print-config"
  | question .help => "help"
  | question .version => "version"

/-- What a message shows of an option: its name, and of its value the kind. -/
def shown (flag : Flag) : String :=
  match flag with
  | setting .config => "--config <CONFIG>"
  | setting .shmKey => "--shm-key <SHM_KEY>"
  | setting .tickMs => "--tick-ms <TICK_MS>"
  | setting .redrawDivisor => "--redraw-divisor <REDRAW_DIVISOR>"
  | setting .snapshot => "--snapshot <SNAPSHOT>"
  | setting .logLevel => "--log-level <LOG_LEVEL>"
  | flag => "--" ++ flag.name

/-- The option of a name. -/
def ofName? (name : List Char) : Option Flag := all.find? (·.name.toList = name)

/-- The question of a single letter. -/
def ofLetter? : Char → Option Question
  | 'h' => some .help
  | 'V' => some .version
  | _ => none

end Flag

/-- Why a value is not acceptable. -/
inductive ValueError
  | numeral (cause : NumeralError)
  | notKey (text : String) (cause : NumeralError)
  | outOfRange (n : Int) (least most : Nat)
  deriving DecidableEq, Repr

namespace ValueError

/-- The sentence a person is shown. -/
def message : ValueError → String
  | numeral cause => cause.message
  | notKey text cause => s!"invalid shared memory key {Text.quoted text}: {cause.message}"
  | outOfRange n least most => s!"{n} is not in {least}..={most}"

end ValueError

/-- What is wrong with the command line or the environment. -/
inductive ArgumentError
  | unexpected (argument : String)
  | missing (s : Setting)
  | repeated (flag : Flag)
  | unneeded (flag : Flag) (value : String)
  | invalid (s : Setting) (value : String) (reason : ValueError)
  deriving DecidableEq, Repr

namespace ArgumentError

/-- The sentence a person is shown. -/
def message : ArgumentError → String
  | unexpected argument => s!"unexpected argument '{argument}' found"
  | missing s => s!"a value is required for '{(Flag.setting s).shown}' but none was supplied"
  | repeated flag => s!"the argument '{flag.shown}' cannot be used multiple times"
  | unneeded flag value =>
    s!"unexpected value '{value}' for '{flag.shown}' found; no more were expected"
  | invalid s value reason =>
    s!"invalid value '{value}' for '{(Flag.setting s).shown}': {reason.message}"

end ArgumentError

namespace Arguments

/-- No arguments. -/
def empty : Arguments where
  config := none
  shmKey := none
  create := false
  tickMs := none
  redrawDivisor := none
  snapshot := none
  logLevel := none
  printConfig := false

/-- The key of a segment: decimal, or hexadecimal behind `0x`. -/
def readKey (text : String) : Except ValueError UInt32 :=
  let number :=
    match Text.afterHexMark? text.toList with
    | some digits => Text.readNatural 16 (Text.wordMax 32) digits
    | none => Text.readNatural 10 (Text.wordMax 32) text.toList
  match number with
  | .ok n => .ok n.toUInt32
  | .error cause => .error (.notKey text cause)

/-- The length of a tick. -/
def readTick (text : String) : Except ValueError UInt64 :=
  match Text.readNatural 10 (Text.wordMax 64) text.toList with
  | .ok n => .ok n.toUInt64
  | .error cause => .error (.numeral cause)

/-- The divisor, which is at least 1. -/
def readDivisor (text : String) : Except ValueError UInt32 :=
  match Text.readInteger text.toList with
  | .ok n =>
    if 1 ≤ n ∧ n ≤ Text.wordMax 32 then .ok n.toNat.toUInt32
    else .error (.outOfRange n 1 (Text.wordMax 32))
  | .error cause => .error (.numeral cause)

variable (a : Arguments)

/-- Has the setting a value? -/
def has : Setting → Bool
  | .config => a.config.isSome
  | .shmKey => a.shmKey.isSome
  | .tickMs => a.tickMs.isSome
  | .redrawDivisor => a.redrawDivisor.isSome
  | .snapshot => a.snapshot.isSome
  | .logLevel => a.logLevel.isSome

/-- Gives a setting its value. The empty text is no path. -/
def put (s : Setting) (value : String) : Except ArgumentError Arguments :=
  match s with
  | .config => if value.isEmpty then .error (.missing s) else .ok { a with config := some value }
  | .snapshot =>
    if value.isEmpty then .error (.missing s) else .ok { a with snapshot := some value }
  | .logLevel => .ok { a with logLevel := some value }
  | .shmKey =>
    match readKey value with
    | .ok key => .ok { a with shmKey := some key }
    | .error e => .error (.invalid s value e)
  | .tickMs =>
    match readTick value with
    | .ok tick => .ok { a with tickMs := some tick }
    | .error e => .error (.invalid s value e)
  | .redrawDivisor =>
    match readDivisor value with
    | .ok divisor => .ok { a with redrawDivisor := some divisor }
    | .error e => .error (.invalid s value e)

/-- Gives a setting its value, if it has none yet. -/
def putOnce (s : Setting) (value : String) : Except ArgumentError Arguments :=
  if a.has s then .error (.repeated (.setting s)) else a.put s value

/-- Turns a switch on, if it is off. -/
def turnOn (s : Switch) : Except ArgumentError Arguments :=
  match s with
  | .create =>
    if a.create then .error (.repeated (.switch s)) else .ok { a with create := true }
  | .printConfig =>
    if a.printConfig then .error (.repeated (.switch s)) else .ok { a with printConfig := true }

/-- Gives a setting the value of a variable, if there is one and the setting has
none. -/
def putVariable (s : Setting) (value : Option String) : Except ArgumentError Arguments :=
  match value with
  | none => .ok a
  | some value => if a.has s then .ok a else a.put s value

/-- Fills what the command line left open from the environment. -/
def fillFrom (e : Environment) : Except ArgumentError Arguments := do
  let a ← a.putVariable .config e.config
  let a ← a.putVariable .shmKey e.shmKey
  let a ← a.putVariable .snapshot e.snapshot
  a.putVariable .logLevel e.logLevel

end Arguments

/-- What the program is asked to do. -/
inductive Request
  | tell (q : Question)
  | run (a : Arguments)
  deriving DecidableEq, Repr

/-- A command line of which some arguments are taken. -/
structure CommandLine where
  taken : Arguments
  /-- The last setting, which does not count yet, with its value if that is there. -/
  open? : Option (Setting × Option String)
  /-- No more options follow. -/
  ended : Bool
  deriving DecidableEq, Repr

namespace CommandLine

/-- A command line of which nothing is taken. -/
def start : CommandLine := ⟨.empty, none, false⟩

variable (c : CommandLine)

/-- Lets the last setting count. -/
def settle : Except ArgumentError CommandLine :=
  match c.open? with
  | none => .ok c
  | some (s, none) => .error (.missing s)
  | some (s, some value) => do
    let taken ← c.taken.putOnce s value
    return { c with taken := taken, open? := none }

/-- The name and the value of an option, given without its hyphens. -/
def splitOption (cs : List Char) : List Char × Option String :=
  match cs.dropWhile (· ≠ '=') with
  | [] => (cs, none)
  | _ :: value => (cs.takeWhile (· ≠ '='), some (String.ofList value))

/-- Where the next argument leads: to more arguments, or to an answer at once. -/
abbrev Step := Except ArgumentError (CommandLine ⊕ Question)

/-- Takes an option, given without its hyphens. -/
def takeOption (cs : List Char) : Step :=
  let (name, value?) := splitOption cs
  match Flag.ofName? name, value? with
  | none, _ => .error (.unexpected ("--" ++ String.ofList name))
  | some (.setting s), none => do
    let c ← c.settle
    return .inl { c with open? := some (s, none) }
  | some (.setting s), some value => do
    let c ← c.settle
    return .inl { c with taken := ← c.taken.putOnce s value }
  | some flag, some value => .error (.unneeded flag value)
  | some (.switch s), none => do
    let c ← c.settle
    return .inl { c with taken := ← c.taken.turnOn s }
  | some (.question q), none => do
    let _ ← c.settle
    return .inr q

/-- Takes an option of one letter. -/
def takeLetter (letter : Char) : Step :=
  match Flag.ofLetter? letter with
  | none => .error (.unexpected (String.ofList ['-', letter]))
  | some q => do
    let _ ← c.settle
    return .inr q

/-- Takes an argument that begins no option: the value of the last setting. -/
def takeValue (argument : String) : Step :=
  match c.open? with
  | some (s, none) => .ok (.inl { c with open? := some (s, some argument) })
  | _ => .error (.unexpected argument)

/-- Takes an argument. -/
def take (argument : String) : Step :=
  if c.ended then .error (.unexpected argument)
  else
    match argument.toList with
    | ['-', '-'] => .ok (.inl { c with ended := true })
    | '-' :: '-' :: cs => c.takeOption cs
    | '-' :: letter :: _ => c.takeLetter letter
    | _ => c.takeValue argument

/-- Takes arguments one after another. -/
def takeAll (c : CommandLine) : List String → Step
  | [] => .ok (.inl c)
  | argument :: rest =>
    match c.take argument with
    | .ok (.inl c) => takeAll c rest
    | result => result

end CommandLine

namespace Request

/-- What a command line asks for in an environment. -/
def parse (e : Environment) (arguments : List String) : Except ArgumentError Request := do
  match ← CommandLine.start.takeAll arguments with
  | .inr q => return .tell q
  | .inl c => return .run (← (← c.settle).taken.fillFrom e)

end Request
end ScreenBridge
