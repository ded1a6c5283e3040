import Toolgate.Text.Timestamp

/-!
# Timestamps in YAML

Calendar dates as `2024-05-06`, and dates with a time of day, a fraction of a second and an offset
from UTC. Text of that form may still name no day or hour that exists. What exists is written in
ISO 8601.

## Main definitions

* `Moment`, `moment?`: the parts of a timestamp, and the text of that form
* `Moment.iso`: the timestamp in ISO 8601
* `CalendarError`: the part of a timestamp that does not exist
-/

namespace Toolgate.Yaml

open Toolgate.Text (isAsciiDigit)

/-- A time of day. -/
structure TimeOfDay where
  hour : Nat
  minute : Nat
  second : Nat
  /-- The digits of the fraction of a second. -/
  fraction : List Char
  /-- The offset from UTC in minutes, where one is given. -/
  offset : Option Int

/-- A date, with a time of day or without. -/
structure Moment where
  year : Nat
  month : Nat
  day : Nat
  time : Option TimeOfDay

/-- What a timestamp names that does not exist. -/
inductive CalendarError where
  | year (n : Nat)
  | month
  | day
  | hour
  | minute
  | second
  /-- The offset is a day or more. -/
  | offset (minutes : Int)

/-! ## Reading -/

/-- One or two digits at the head of a text, and what follows. -/
def oneOrTwoDigits? : List Char → Option (Nat × List Char)
  | a :: b :: rest =>
    if !isAsciiDigit a then none
    else if isAsciiDigit b then some (Decimal.natValue [a, b], rest)
    else some (Decimal.natValue [a], b :: rest)
  | [a] => if isAsciiDigit a then some (Decimal.natValue [a], []) else none
  | [] => none

/-- What follows a separator of date and time: one letter T, or blanks. -/
def afterTimeMark? : List Char → Option (List Char)
  | c :: rest =>
    if c == 'T' || c == 't' then some rest
    else if c == ' ' || c == '\t' then some (rest.dropWhile fun c => c == ' ' || c == '\t')
    else none
  | [] => none

/-- The minutes of an offset, after its hours. -/
def offsetMinutes? : List Char → Option Nat
  | [] => some 0
  | ':' :: rest =>
    match Text.twoDigits? rest with
    | some (minutes, []) => some minutes
    | _ => none
  | _ :: _ => none

/-- The offset in minutes that a whole text gives: none, `Z`, or a signed number of hours with
minutes or without. -/
def offset? (cs : List Char) : Option (Option Int) :=
  match cs.dropWhile fun c => c == ' ' || c == '\t' with
  | [] => if cs.isEmpty then some none else none
  | ['Z'] => some (some 0)
  | sign :: rest =>
    if sign == '+' || sign == '-' then do
      let (hours, left) ← oneOrTwoDigits? rest
      let minutes : Int := hours * 60 + (← offsetMinutes? left)
      some (some (if sign == '-' then -minutes else minutes))
    else none

/-- The time of day that a whole text gives. -/
def timeOfDay? (cs : List Char) : Option TimeOfDay := do
  let (hour, cs) ← oneOrTwoDigits? cs
  let cs ← Text.after? [':'] cs
  let (minute, cs) ← Text.twoDigits? cs
  let cs ← Text.after? [':'] cs
  let (second, cs) ← Text.twoDigits? cs
  let (fraction, cs) := match cs with
    | '.' :: rest => (rest.takeWhile isAsciiDigit, rest.dropWhile isAsciiDigit)
    | _ => ([], cs)
  some ⟨hour, minute, second, fraction, ← offset? cs⟩

/-- The timestamp that a whole text writes. -/
def moment? (cs : List Char) : Option Moment := do
  let (century, left) ← Text.twoDigits? cs
  let (rest, left) ← Text.twoDigits? left
  let left ← Text.after? ['-'] left
  let (month, left) ← oneOrTwoDigits? left
  let left ← Text.after? ['-'] left
  let (day, left) ← oneOrTwoDigits? left
  let year := century * 100 + rest
  if left.isEmpty then some ⟨year, month, day, none⟩
  else
    let time ← timeOfDay? (← afterTimeMark? left)
    some ⟨year, month, day, some time⟩

/-! ## Writing -/

/-- The last `width` decimal digits of a number. -/
def padded (width n : Nat) : List Char :=
  match width with
  | 0 => []
  | w + 1 => padded w (n / 10) ++ [Decimal.digitChar (n % 10)]

/-- The first six digits of a fraction of a second. -/
def microseconds (fraction : List Char) : List Char :=
  (fraction ++ List.replicate 6 '0').take 6

/-- An offset as hours and minutes with a sign. -/
def offsetText (minutes : Int) : List Char :=
  (if minutes < 0 then '-' else '+') :: padded 2 (minutes.natAbs / 60)
    ++ ':' :: padded 2 (minutes.natAbs % 60)

/-- A time of day in ISO 8601, with the fraction left out where it is zero. -/
def TimeOfDay.iso (t : TimeOfDay) : List Char :=
  padded 2 t.hour ++ ':' :: padded 2 t.minute ++ ':' :: padded 2 t.second
    ++ (if (microseconds t.fraction).all (· == '0') then [] else '.' :: microseconds t.fraction)
    ++ (t.offset.map offsetText).getD []

/-- A timestamp in ISO 8601. -/
def Moment.iso (m : Moment) : String :=
  String.ofList (padded 4 m.year ++ '-' :: padded 2 m.month ++ '-' :: padded 2 m.day
    ++ (m.time.map fun t => 'T' :: t.iso).getD [])

/-! ## Existence -/

/-- The part of a date that does not exist. -/
def Moment.dateError? (m : Moment) : Option CalendarError :=
  if m.year == 0 then some (.year m.year)
  else if m.month == 0 || 12 < m.month then some .month
  else if !Text.isDay m.year m.month m.day then some .day
  else none

/-- The part of a time of day that does not exist. -/
def TimeOfDay.error? (t : TimeOfDay) : Option CalendarError :=
  if 23 < t.hour then some .hour
  else if 59 < t.minute then some .minute
  else if 59 < t.second then some .second
  else none

/-- The offset, where it is a day or more. -/
def TimeOfDay.offsetError? (t : TimeOfDay) : Option CalendarError :=
  match t.offset with
  | some minutes => if minutes.natAbs < 1440 then none else some (.offset minutes)
  | none => none

/-- The part of a timestamp that does not exist: the offset is looked at first, then the date, and
then the time of day. -/
def Moment.error? (m : Moment) : Option CalendarError :=
  (m.time.bind TimeOfDay.offsetError?).or (m.dateError?.or (m.time.bind TimeOfDay.error?))

/-- A length of time in whole days and the seconds that remain. -/
def durationText (minutes : Int) : String :=
  let days := minutes / 1440
  let seconds := (minutes % 1440) * 60
  "datetime.timedelta(days=" ++ Decimal.intText days
    ++ (if seconds == 0 then "" else ", seconds=" ++ Decimal.intText seconds) ++ ")"

/-- The wording of an error. -/
def CalendarError.message : CalendarError → String
  | .year n => "year " ++ Decimal.natText n ++ " is out of range"
  | .month => "month must be in 1..12"
  | .day => "day is out of range for month"
  | .hour => "hour must be in 0..23"
  | .minute => "minute must be in 0..59"
  | .second => "second must be in 0..59"
  | .offset minutes =>
    "offset must be a timedelta strictly between -timedelta(hours=24) and timedelta(hours=24), not "
      ++ durationText minutes ++ "."

end Toolgate.Yaml
