import Toolgate.Decimal.Integer
import Toolgate.Text.Edit

/-!
# Timestamps

ISO 8601 timestamps with an offset from UTC, such as `2024-05-06T07:08:09Z`. A text that begins
with a date and one of the letters that part it from a time looks like a timestamp; whether it is
one is decided by reading it to its end.

## Main definitions

* `looksLikeTimestamp`: the test of the beginning
* `isTimestamp`: is the text a timestamp of an existing day and hour, with an offset?
-/

namespace Toolgate.Text

/-- Does the text begin with characters of the given classes? -/
def beginsLike : List (Char → Bool) → List Char → Bool
  | [], _ => true
  | _ :: _, [] => false
  | test :: tests, c :: cs => test c && beginsLike tests cs

/-- Does the text begin with a date in decimal digits of any script, and `T`, `t` or a space? -/
def looksLikeTimestamp (s : String) : Bool :=
  let d := isDecimal
  let dash (c : Char) := c == '-'
  beginsLike [d, d, d, d, dash, d, d, dash, d, d, fun c => c == 'T' || c == 't' || c == ' ']
    s.toList

/-- The number that two digits at the head of a text write, and what follows them. -/
def twoDigits? : List Char → Option (Nat × List Char)
  | a :: b :: rest =>
    if isAsciiDigit a && isAsciiDigit b then some (Decimal.natValue [a, b], rest) else none
  | _ => none

/-- Has the year a 29th of February? -/
def isLeapYear (year : Nat) : Bool :=
  year % 4 == 0 && (year % 100 != 0 || year % 400 == 0)

/-- The number of days of a month. -/
def daysOfMonth (year month : Nat) : Nat :=
  if month == 2 then (if isLeapYear year then 29 else 28)
  else if month == 4 || month == 6 || month == 9 || month == 11 then 30
  else 31

/-- Is there such a day? Years count from 1. -/
def isDay (year month day : Nat) : Bool :=
  1 ≤ year && 1 ≤ month && month ≤ 12 && 1 ≤ day && day ≤ daysOfMonth year month

/-- What follows a date of an existing day. -/
def afterDate? (cs : List Char) : Option (List Char) := do
  let (century, cs) ← twoDigits? cs
  let (rest, cs) ← twoDigits? cs
  let cs ← after? ['-'] cs
  let (month, cs) ← twoDigits? cs
  let cs ← after? ['-'] cs
  let (day, cs) ← twoDigits? cs
  if isDay (century * 100 + rest) month day then some cs else none

/-- What follows the fraction of a second, which has a digit at least. -/
def afterFraction? : List Char → Option (List Char)
  | c :: rest =>
    if c == '.' || c == ',' then
      if rest.head?.any isAsciiDigit then some (rest.dropWhile isAsciiDigit) else none
    else some (c :: rest)
  | [] => some []

/-- What follows the seconds of a time, if it has any. -/
def afterSeconds? : List Char → Option (List Char)
  | ':' :: rest => do
    let (second, cs) ← twoDigits? rest
    if second ≤ 59 then afterFraction? cs else none
  | cs => some cs

/-- What follows a time of day. -/
def afterTime? (cs : List Char) : Option (List Char) := do
  let (hour, cs) ← twoDigits? cs
  let cs ← after? [':'] cs
  let (minute, cs) ← twoDigits? cs
  if hour ≤ 23 && minute ≤ 59 then afterSeconds? cs else none

/-- Is the text an offset from UTC? A minus sign may also be the mathematical one. -/
def isOffset : List Char → Bool
  | [c] => c == 'Z' || c == 'z'
  | sign :: rest =>
    (sign == '+' || sign == '-' || sign.toNat == 0x2212) &&
      match twoDigits? rest with
      | none => false
      | some (hour, cs) =>
        match twoDigits? ((after? [':'] cs).getD cs) with
        | some (minute, []) => hour ≤ 23 && minute ≤ 59
        | _ => false
  | [] => false

/-- Is the text a timestamp with an offset from UTC? -/
def isTimestamp (s : String) : Bool :=
  match afterDate? s.toList with
  | some (sep :: cs) =>
    (sep == 'T' || sep == 't' || sep == ' ' || sep == '_') && (afterTime? cs).any isOffset
  | _ => false

end Toolgate.Text
