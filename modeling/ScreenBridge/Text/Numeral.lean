/-
# Numerals

Reading a numeral in a radix, with an optional sign and a bound on its value,
and writing one in hexadecimal. A numeral is refused for the first character at
which it goes wrong: that character is no digit of the radix, or the digits up
to it already exceed the bound.

Key definitions: `Text.digitValue`, `Text.readNatural`, `Text.readInteger`,
`Text.hexDigits`.
-/

namespace ScreenBridge

/-- Why a text is not an acceptable numeral. -/
inductive NumeralError
  | empty
  | invalidDigit
  | tooLarge
  | tooSmall
  deriving DecidableEq, Repr

namespace NumeralError

/-- The sentence a person is shown. -/
def message : NumeralError → String
  | empty => "cannot parse integer from empty string"
  | invalidDigit => "invalid digit found in string"
  | tooLarge => "number too large to fit in target type"
  | tooSmall => "number too small to fit in target type"

end NumeralError

namespace Text

/-- The value of an ASCII digit or letter as a digit of some radix up to 36. -/
def digitValue (c : Char) : Option Nat :=
  if '0' ≤ c ∧ c ≤ '9' then some (c.toNat - 48)
  else if 'a' ≤ c ∧ c ≤ 'z' then some (c.toNat - 87)
  else if 'A' ≤ c ∧ c ≤ 'Z' then some (c.toNat - 55)
  else none

/-- The value of a digit of the radix. -/
def digitIn (radix : Nat) (c : Char) : Option Nat :=
  (digitValue c).filter (· < radix)

/-- Reads digits after a value already read, as long as the value stays within
the bound. -/
def readDigits (radix bound : Nat) (overflow : NumeralError) (acc : Nat) :
    List Char → Except NumeralError Nat
  | [] => .ok acc
  | c :: cs =>
    match digitIn radix c with
    | none => .error .invalidDigit
    | some d =>
      if acc * radix + d ≤ bound then readDigits radix bound overflow (acc * radix + d) cs
      else .error overflow

/-- Reads a numeral of a kind that has no negative values: digits, with a plus
sign in front or none. -/
def readNatural (radix bound : Nat) : List Char → Except NumeralError Nat
  | [] => .error .empty
  | '+' :: c :: cs => readDigits radix bound .tooLarge 0 (c :: cs)
  | cs => readDigits radix bound .tooLarge 0 cs

/-- Where the numbers of 64-bit signed width end, on either side of zero. -/
def signedBound : Nat := 0x8000000000000000

/-- Reads a decimal numeral of 64-bit signed width. -/
def readInteger : List Char → Except NumeralError Int
  | '-' :: c :: cs =>
    (readDigits 10 signedBound .tooSmall 0 (c :: cs)).map fun n => - (n : Int)
  | cs => (readNatural 10 (signedBound - 1) cs).map fun n => (n : Int)

/-- What follows the mark of a hexadecimal numeral, `0x` or `0X`. -/
def afterHexMark? : List Char → Option (List Char)
  | '0' :: 'x' :: cs => some cs
  | '0' :: 'X' :: cs => some cs
  | _ => none

/-- The largest value of an unsigned word of so many bits. -/
def wordMax (bits : Nat) : Nat := Nat.pow 2 bits - 1

/-- The hexadecimal digits of a number, in lower case, without leading zeros. -/
def hexDigits (n : Nat) : List Char :=
  Nat.toDigits 16 n

/-- The characters with zeros in front of them up to a width. -/
def zeroPadded (width : Nat) (cs : List Char) : List Char :=
  List.replicate (width - cs.length) '0' ++ cs

end Text
end ScreenBridge
