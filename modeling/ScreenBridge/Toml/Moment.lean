/-
# Dates and times in TOML

A date has a year of four digits, a month and a day that the month has; a time
of day has hours, minutes, seconds up to 60, and perhaps a fraction of a second.
A date and a time may stand together, with an offset from world time or without.

Key definitions: `Toml.daysIn`, `Toml.scanDate`, `Toml.scanTime`,
`Toml.scanMoment`.
-/
import ScreenBridge.Toml.Number

namespace ScreenBridge
namespace Toml

/-- Takes exactly so many digits whose number lies in a range. -/
def scanField (count least most : Nat) (cs : List Char) : Option (Nat × List Char) :=
  let digits := cs.take count
  if digits.length = count ∧ digits.all (isDigitIn 10) then
    let n := valueOf 10 digits
    if least ≤ n ∧ n ≤ most then some (n, cs.drop count) else none
  else none

/-- Is a year a leap year? -/
def isLeap (year : Nat) : Bool := year % 4 = 0 && (year % 100 ≠ 0 || year % 400 = 0)

/-- The number of days of a month. -/
def daysIn (year month : Nat) : Nat :=
  if month = 2 then (if isLeap year then 29 else 28)
  else if month = 4 ∨ month = 6 ∨ month = 9 ∨ month = 11 then 30
  else 31

/-- Takes a date. -/
def scanDate (cs : List Char) : Option (List Char) := do
  let (year, cs) ← scanField 4 0 9999 cs
  let cs ← expect '-' cs
  let (month, cs) ← scanField 2 1 12 cs
  let cs ← expect '-' cs
  let (_, cs) ← scanField 2 1 (daysIn year month) cs
  return cs

/-- Takes the fraction of a second, if there is one. -/
def scanSecondFraction : List Char → Option (List Char)
  | '.' :: cs =>
    if (cs.takeWhile (isDigitIn 10)).isEmpty then none else some (cs.dropWhile (isDigitIn 10))
  | cs => some cs

/-- Takes a time of day. -/
def scanTime (cs : List Char) : Option (List Char) := do
  let (_, cs) ← scanField 2 0 23 cs
  let cs ← expect ':' cs
  let (_, cs) ← scanField 2 0 59 cs
  let cs ← expect ':' cs
  let (_, cs) ← scanField 2 0 60 cs
  scanSecondFraction cs

/-- Takes the hours and minutes of an offset. -/
def scanOffsetTime (cs : List Char) : Option (List Char) := do
  let (_, cs) ← scanField 2 0 23 cs
  let cs ← expect ':' cs
  let (_, cs) ← scanField 2 0 59 cs
  return cs

/-- Takes the offset from world time, if there is one. -/
def skipOffset (cs : List Char) : List Char :=
  match cs with
  | 'Z' :: rest => rest
  | 'z' :: rest => rest
  | '+' :: rest => (scanOffsetTime rest).getD cs
  | '-' :: rest => (scanOffsetTime rest).getD cs
  | _ => cs

/-- Takes the time behind a date, if there is one. A space that no time follows
does not belong to the date. -/
def skipTimeOfDate (cs : List Char) : List Char :=
  match cs with
  | c :: rest =>
    if c = 'T' ∨ c = 't' ∨ c = ' ' then
      match scanTime rest with
      | some rest => skipOffset rest
      | none => cs
    else cs
  | [] => []

/-- Does a text begin like a date, with four digits and a hyphen? -/
def beginsDate (cs : List Char) : Bool :=
  ((scanField 4 0 9999 cs).bind fun (_, cs) => expect '-' cs).isSome

/-- Does a text begin like a time, with an hour and a colon? -/
def beginsTime (cs : List Char) : Bool :=
  ((scanField 2 0 23 cs).bind fun (_, cs) => expect ':' cs).isSome

/-- Takes a date, a time, or both. -/
def scanMoment (cs : List Char) : Option (Value × List Char) :=
  let rest? := if beginsDate cs then (scanDate cs).map skipTimeOfDate else scanTime cs
  rest?.map fun rest => (.dateTime (taken cs rest), rest)

end Toml
end ScreenBridge
