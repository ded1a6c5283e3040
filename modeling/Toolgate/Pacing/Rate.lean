import Toolgate.Decimal.Reading
import Toolgate.Json.Basic
import Toolgate.Pacing.Bucket
import Toolgate.Text.Quoted

/-!
# Rates

The rate of a bucket as it is configured: a number, a boolean, or a text that writes a number.

## Main definitions

* `readRate`: the number of a configured rate
* `virtualWake`: a clock that a sleep moves on by at least a millisecond
-/

namespace Toolgate.Pacing

/-- Why a configured value is no rate. -/
inductive RateError where
  | notNumeric
  | unreadable (text : String)
  | tooLarge

/-- The wording of an error. -/
def RateError.message : RateError → String
  | notNumeric => "a rate is a number or a text"
  | unreadable s => "could not convert string to float: " ++ Text.quoted s
  | tooLarge => "int too large to convert to float"

/-- The number of a configured rate. -/
def readRate : Json → Except RateError Float
  | .float x => .ok x
  | .int n =>
    match Decimal.ofInt? n with
    | some x => .ok x
    | none => .error .tooLarge
  | .bool b => .ok (if b then 1 else 0)
  | .str s =>
    match Decimal.number? s with
    | some x => .ok x
    | none => .error (.unreadable s)
  | _ => .error .notNumeric

/-- The time after a sleep on a clock that only sleeps move: by the time slept, and by a
millisecond at least. -/
def virtualWake (now seconds : Float) : Float :=
  now + greater seconds 0.001

end Toolgate.Pacing
