/-
# Commands

A line of input is a command: `down`, `up` or `tap` in any mixture of ASCII
cases, and a key. A tap is a press and a release. Blank lines and lines that
begin with `#` say nothing. A key is given by name, or by its key symbol in
hexadecimal after `0x`.

Key definitions: `CommandError`, `Command.parseKey`, `Command.parse`.
-/
import ScreenBridge.Key.Keysym
import ScreenBridge.Keyboard

namespace ScreenBridge

/-- What is wrong with a line. -/
inductive CommandError
  | unknownCommand (word : String)
  | missingKey (command : String)
  | trailingInput (word : String)
  | unknownKey (token : String)
  deriving DecidableEq, Repr

namespace CommandError

/-- The sentence a person is shown. -/
def message : CommandError → String
  | unknownCommand word => s!"unknown command {Text.quoted word} (expected down, up, or tap)"
  | missingKey command => s!"missing key after {Text.quoted command}"
  | trailingInput word => s!"unexpected trailing input {Text.quoted word}"
  | unknownKey token => s!"unknown key {Text.quoted token}"

end CommandError

namespace Command

/-- The key a token stands for, perhaps the unknown key. -/
def lookupKey (token : List Char) : Option Key :=
  match Text.afterHexMark? token with
  | some digits =>
    match Text.readNatural 16 (Text.wordMax 32) digits with
    | .ok n => some (Key.ofKeysym n.toUInt32)
    | .error _ => none
  | none => Key.ofTrimmed? (Text.trim token)

/-- The key a token stands for. -/
def parseKey (token : List Char) : Except CommandError Key :=
  match lookupKey token with
  | some .unknown => .error (.unknownKey (String.ofList token))
  | some key => .ok key
  | none => .error (.unknownKey (String.ofList token))

/-- The events of a command word for a key. -/
def motions? (word : List Char) : Option (List Motion) :=
  let word := word.map Char.toLower
  if word = ['d', 'o', 'w', 'n'] then some [.down]
  else if word = ['u', 'p'] then some [.up]
  else if word = ['t', 'a', 'p'] then some [.down, .up]
  else none

/-- The events of a line, given by its words. Too many words are reported before
an unknown command, and that before an unknown key. -/
def ofWords : List (List Char) → Except CommandError (List Event)
  | [] => .error (.missingKey "")
  | [command] => .error (.missingKey (String.ofList command))
  | [command, token] =>
    match motions? command with
    | none => .error (.unknownCommand (String.ofList command))
    | some motions =>
      match parseKey token with
      | .ok key => .ok (motions.map fun motion => ⟨motion, key⟩)
      | .error e => .error e
  | _ :: _ :: extra :: _ => .error (.trailingInput (String.ofList extra))

/-- The events of a line. There are none if it is blank or begins with `#`, behind
the blanks. -/
def parse (line : String) : Except CommandError (List Event) :=
  let text := Text.trim line.toList
  if text = [] ∨ text.head? = some '#' then .ok []
  else ofWords (Text.words text)

end Command
end ScreenBridge
