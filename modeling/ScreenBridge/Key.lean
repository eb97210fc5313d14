/-
# Keys

The keys of the keyboard in front of the person at the viewer. Some of them name
a symbol and not a place, since the emulated machine has a key of its own for
it. `unknown` stands for every key that has no name here; it has no place in the
list of keys and no name leads to it.

A key is named by its full name in any mixture of ASCII cases; a letter or a
digit also by that one character. Blanks around a name do not count.

Key definitions: `Key`, `Key.all`, `Key.name`, `Key.ofName?`.
Key theorems: `Key.mem_all_iff`.
-/
import ScreenBridge.Text.Blank
import ScreenBridge.Text.Quoted

namespace ScreenBridge

/-- A key of the viewer's keyboard. -/
inductive Key
  | keyA | keyB | keyC | keyD | keyE | keyF | keyG | keyH | keyI
  | keyJ | keyK | keyL | keyM | keyN | keyO | keyP | keyQ | keyR
  | keyS | keyT | keyU | keyV | keyW | keyX | keyY | keyZ
  | digit0 | digit1 | digit2 | digit3 | digit4 | digit5 | digit6 | digit7 | digit8
  | digit9
  | atSign | asterisk | caret | colon | comma | dollar | equals | minus | period
  | plus | semicolon | slash
  | backspace | delete | escape | home | enter | space | tab
  | leftCtrl | leftShift | rightShift | rightAlt
  | arrowDown | arrowLeft | arrowRight | arrowUp
  | f1 | f3 | f5 | f7
  | keypad0 | keypad1 | keypad2 | keypad3 | keypad4 | keypad5 | keypad6 | keypad7 | keypad8
  | keypad9
  | unknown
  deriving DecidableEq, Repr

/-- A name that belongs to no key. -/
structure UnknownKeyName where
  name : String
  deriving DecidableEq, Repr

namespace UnknownKeyName

/-- The sentence a person is shown. -/
def message (e : UnknownKeyName) : String :=
  s!"unknown key name: {Text.quoted e.name}"

end UnknownKeyName

namespace Key

/-- The letter keys, in alphabetical order. -/
def letters : List Key :=
  [.keyA, .keyB, .keyC, .keyD, .keyE, .keyF, .keyG, .keyH, .keyI,
    .keyJ, .keyK, .keyL, .keyM, .keyN, .keyO, .keyP, .keyQ, .keyR,
    .keyS, .keyT, .keyU, .keyV, .keyW, .keyX, .keyY, .keyZ]

/-- The digit keys above the letters, from zero. -/
def digits : List Key :=
  [.digit0, .digit1, .digit2, .digit3, .digit4,
    .digit5, .digit6, .digit7, .digit8, .digit9]

/-- The keys of symbols. -/
def symbols : List Key :=
  [.atSign, .asterisk, .caret, .colon, .comma, .dollar, .equals, .minus,
    .period, .plus, .semicolon, .slash]

/-- The keys that edit, modify or move. -/
def controls : List Key :=
  [.backspace, .delete, .escape, .home, .enter, .space, .tab,
    .leftCtrl, .leftShift, .rightShift, .rightAlt, .arrowDown, .arrowLeft, .arrowRight,
    .arrowUp, .f1, .f3, .f5, .f7]

/-- The keys of the numeric keypad, from zero. -/
def keypad : List Key :=
  [.keypad0, .keypad1, .keypad2, .keypad3, .keypad4,
    .keypad5, .keypad6, .keypad7, .keypad8, .keypad9]

/-- Every key with a name of its own, in the order in which keys are listed. -/
def all : List Key :=
  letters ++ digits ++ symbols ++ controls ++ keypad

/-- The full name of a key. -/
def name : Key → String
  | keyA => "KeyA"
  | keyB => "KeyB"
  | keyC => "KeyC"
  | keyD => "KeyD"
  | keyE => "KeyE"
  | keyF => "KeyF"
  | keyG => "KeyG"
  | keyH => "KeyH"
  | keyI => "KeyI"
  | keyJ => "KeyJ"
  | keyK => "KeyK"
  | keyL => "KeyL"
  | keyM => "KeyM"
  | keyN => "KeyN"
  | keyO => "KeyO"
  | keyP => "KeyP"
  | keyQ => "KeyQ"
  | keyR => "KeyR"
  | keyS => "KeyS"
  | keyT => "KeyT"
  | keyU => "KeyU"
  | keyV => "KeyV"
  | keyW => "KeyW"
  | keyX => "KeyX"
  | keyY => "KeyY"
  | keyZ => "KeyZ"
  | digit0 => "Digit0"
  | digit1 => "Digit1"
  | digit2 => "Digit2"
  | digit3 => "Digit3"
  | digit4 => "Digit4"
  | digit5 => "Digit5"
  | digit6 => "Digit6"
  | digit7 => "Digit7"
  | digit8 => "Digit8"
  | digit9 => "Digit9"
  | atSign => "At"
  | asterisk => "Asterisk"
  | caret => "Caret"
  | colon => "Colon"
  | comma => "Comma"
  | dollar => "Dollar"
  | equals => "Equals"
  | minus => "Minus"
  | period => "Period"
  | plus => "Plus"
  | semicolon => "Semicolon"
  | slash => "Slash"
  | backspace => "Backspace"
  | delete => "Delete"
  | escape => "Escape"
  | home => "Home"
  | enter => "Return"
  | space => "Space"
  | tab => "Tab"
  | leftCtrl => "LeftCtrl"
  | leftShift => "LeftShift"
  | rightShift => "RightShift"
  | rightAlt => "RightAlt"
  | arrowDown => "ArrowDown"
  | arrowLeft => "ArrowLeft"
  | arrowRight => "ArrowRight"
  | arrowUp => "ArrowUp"
  | f1 => "F1"
  | f3 => "F3"
  | f5 => "F5"
  | f7 => "F7"
  | keypad0 => "Keypad0"
  | keypad1 => "Keypad1"
  | keypad2 => "Keypad2"
  | keypad3 => "Keypad3"
  | keypad4 => "Keypad4"
  | keypad5 => "Keypad5"
  | keypad6 => "Keypad6"
  | keypad7 => "Keypad7"
  | keypad8 => "Keypad8"
  | keypad9 => "Keypad9"
  | unknown => "Unknown"

/-- Exactly the key without a name is missing from the list of keys. -/
theorem mem_all_iff {key : Key} : key ∈ all ↔ key ≠ .unknown := by
  cases key <;> decide

/-- The key whose name is exactly this one. -/
def ofExactName? (name : String) : Option Key :=
  (all ++ [unknown]).find? (·.name = name)

/-- Are two texts the same but for the case of ASCII letters? -/
def sameIgnoringCase (a b : List Char) : Bool :=
  a.map Char.toLower = b.map Char.toLower

/-- The letter or digit key that a single character names. -/
def ofChar? (c : Char) : Option Key :=
  let c := c.toUpper
  if 'A' ≤ c ∧ c ≤ 'Z' then letters[c.toNat - 65]?
  else if '0' ≤ c ∧ c ≤ '9' then digits[c.toNat - 48]?
  else none

/-- The key a trimmed name belongs to. -/
def ofTrimmed? : List Char → Option Key
  | [c] => ofChar? c
  | cs => all.find? fun key => sameIgnoringCase key.name.toList cs

/-- The key a name belongs to. -/
def ofName? (name : String) : Option Key :=
  ofTrimmed? (Text.trim name.toList)

/-- The key a name belongs to, or the name as it was given. -/
def parse (name : String) : Except UnknownKeyName Key :=
  match ofName? name with
  | some key => .ok key
  | none => .error ⟨name⟩

end Key
end ScreenBridge
