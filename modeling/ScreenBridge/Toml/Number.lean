/-
# Numbers in TOML

An integer is a 64-bit signed word: decimal with a sign or none and no leading
zeros, or hexadecimal, octal or binary behind a mark, without a sign. A float
has a fraction, an exponent, or both; a positive one must not round to infinity.
Single underscores may stand between digits.

Key definitions: `Toml.scanDigits`, `Toml.scanMarked`, `Toml.scanDecimal`,
`Toml.scanNumber`.
-/
import ScreenBridge.Toml.Quoted
import ScreenBridge.Toml.Value

namespace ScreenBridge
namespace Toml

/-- Is this a digit of the radix? -/
def isDigitIn (radix : Nat) (c : Char) : Bool := (Text.digitIn radix c).isSome

/-- Do the characters begin and end with a digit, and is every underscore among
them between two digits? -/
def isGrouped : List Char → Bool
  | [] => false
  | ['_'] => false
  | [_] => true
  | '_' :: _ :: _ => false
  | _ :: '_' :: cs => isGrouped cs
  | _ :: c :: cs => isGrouped (c :: cs)

/-- Takes the digits at the front, with underscores between them. -/
def scanDigits (radix : Nat) (cs : List Char) : Option (List Char × List Char) :=
  let isPart := fun c => isDigitIn radix c || c = '_'
  let run := cs.takeWhile isPart
  if isGrouped run then some (run.filter (· ≠ '_'), cs.dropWhile isPart) else none

/-- The number that digits of the radix write. -/
def valueOf (radix : Nat) (digits : List Char) : Nat :=
  digits.foldl (fun n c => n * radix + (Text.digitIn radix c).getD 0) 0

/-- The integer, if it is a 64-bit signed word. -/
def integer? (n : Int) : Option Value :=
  if - Text.signedBound ≤ n ∧ n < Text.signedBound then some (.integer n) else none

/-- Takes an integer in another radix, behind its mark. -/
def scanMarked (radix : Nat) (cs : List Char) : Option (Value × List Char) :=
  match scanDigits radix cs with
  | some (digits, rest) => (integer? (valueOf radix digits)).map (·, rest)
  | none => none

/-- Takes the sign at the front, if there is one. Yields whether it is a minus. -/
def skipSign : List Char → Bool × List Char
  | '-' :: cs => (true, cs)
  | '+' :: cs => (false, cs)
  | cs => (false, cs)

/-- Takes the whole part of a decimal number: digits of which the first is no
zero, or a single zero. -/
def scanWhole (cs : List Char) : Option (List Char × List Char) :=
  match scanDigits 10 cs with
  | some (['0'], rest) => some (['0'], rest)
  | some ('0' :: _, _) => none
  | result => result

/-- Takes the fraction at the front, if there is one. -/
def scanFraction : Scanner (Option (List Char))
  | '.' :: cs => (scanDigits 10 cs).map fun (digits, rest) => (some digits, rest)
  | cs => some (none, cs)

/-- Takes the digits of an exponent with their sign. -/
def scanExponentDigits (cs : List Char) : Option (Option Int × List Char) :=
  let (negative, cs) := skipSign cs
  (scanDigits 10 cs).map fun (digits, rest) =>
    (some (if negative then - (valueOf 10 digits : Int) else valueOf 10 digits), rest)

/-- Takes the exponent at the front, if there is one. -/
def scanExponent : Scanner (Option Int)
  | 'e' :: cs => scanExponentDigits cs
  | 'E' :: cs => scanExponentDigits cs
  | cs => some (none, cs)

/-- The smallest number that rounds to infinity in 64 bits: half a step above
the largest finite one. -/
def infinityBound : Nat := Nat.pow 2 1024 - Nat.pow 2 970

/-- Does `mantissa * 10 ^ exponent` round to infinity? The mantissa has so many
digits. A number of more than 310 places is too large and one below 1 is not, so
that no power is formed that could be large beyond need. -/
def roundsToInfinity (digits mantissa : Nat) (exponent : Int) : Bool :=
  if mantissa = 0 ∨ digits + exponent ≤ 0 then false
  else if 310 < exponent then true
  else if 0 ≤ exponent then infinityBound ≤ mantissa * Nat.pow 10 exponent.toNat
  else infinityBound * Nat.pow 10 (-exponent).toNat ≤ mantissa

/-- The text that was taken, given all of it and the rest. -/
def taken (cs rest : List Char) : String := String.ofList (cs.take (cs.length - rest.length))

/-- Takes a decimal number: an integer, or a float if a fraction or an exponent
follows. -/
def scanDecimal (cs : List Char) : Option (Value × List Char) :=
  let (negative, body) := skipSign cs
  match scanWhole body with
  | none => none
  | some (whole, rest) =>
    match scanFraction rest with
    | none => none
    | some (fraction, rest) =>
      match scanExponent rest with
      | none => none
      | some (exponent, rest) =>
        if fraction.isNone ∧ exponent.isNone then
          let n : Int := valueOf 10 whole
          (integer? (if negative then -n else n)).map (·, rest)
        else
          let digits := whole ++ fraction.getD []
          let power := exponent.getD 0 - (fraction.getD []).length
          if !negative && roundsToInfinity digits.length (valueOf 10 digits) power then none
          else some (.float (taken cs rest), rest)

/-- Takes infinity or the value that is no number, without its sign. -/
def scanSpecial : List Char → Option (List Char)
  | 'i' :: 'n' :: 'f' :: cs => some cs
  | 'n' :: 'a' :: 'n' :: cs => some cs
  | _ => none

/-- Takes a number. -/
def scanNumber (cs : List Char) : Option (Value × List Char) :=
  match cs with
  | '0' :: 'x' :: rest => scanMarked 16 rest
  | '0' :: 'o' :: rest => scanMarked 8 rest
  | '0' :: 'b' :: rest => scanMarked 2 rest
  | cs =>
    match scanSpecial (skipSign cs).2 with
    | some rest => some (.float (taken cs rest), rest)
    | none => scanDecimal cs

end Toml
end ScreenBridge
