/-
# Key symbols

A window system reports keys as 32-bit symbols. A letter has one symbol in each
case and both mean the same key. Symbols with no key here mean the unknown key.

Key definitions: `Key.ofKeysym`.
-/
import ScreenBridge.Key

namespace ScreenBridge
namespace Key

/-- The keys of symbols that do not stand in a run, by symbol. -/
def ofSingleKeysym (symbol : UInt32) : Key :=
  match symbol with
  | 0x40 => .atSign
  | 0x2a => .asterisk
  | 0x5e => .caret
  | 0x3a => .colon
  | 0x2c => .comma
  | 0x24 => .dollar
  | 0x3d => .equals
  | 0x2d => .minus
  | 0x2e => .period
  | 0x2b => .plus
  | 0x3b => .semicolon
  | 0x2f => .slash
  | 0xff08 => .backspace
  | 0xffff => .delete
  | 0xff1b => .escape
  | 0xff50 => .home
  | 0xff0d => .enter
  | 0x20 => .space
  | 0xff09 => .tab
  | 0xffe3 => .leftCtrl
  | 0xffe1 => .leftShift
  | 0xffe2 => .rightShift
  | 0xffea => .rightAlt
  | 0xff51 => .arrowLeft
  | 0xff52 => .arrowUp
  | 0xff53 => .arrowRight
  | 0xff54 => .arrowDown
  | 0xffbe => .f1
  | 0xffc0 => .f3
  | 0xffc2 => .f5
  | 0xffc4 => .f7
  | _ => .unknown

/-- The key at a position of a list, or the unknown key behind its end. -/
def nth (keys : List Key) (symbol first : UInt32) : Key :=
  keys.getD (symbol - first).toNat .unknown

/-- The key a symbol stands for. -/
def ofKeysym (symbol : UInt32) : Key :=
  if 0x61 ≤ symbol ∧ symbol ≤ 0x7a then nth letters symbol 0x61
  else if 0x41 ≤ symbol ∧ symbol ≤ 0x5a then nth letters symbol 0x41
  else if 0x30 ≤ symbol ∧ symbol ≤ 0x39 then nth digits symbol 0x30
  else if 0xffb0 ≤ symbol ∧ symbol ≤ 0xffb9 then nth keypad symbol 0xffb0
  else ofSingleKeysym symbol

end Key
end ScreenBridge
