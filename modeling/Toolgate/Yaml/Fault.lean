import Toolgate.Text.Quoted
import Toolgate.Yaml.Timestamp

/-!
# Faults of YAML texts

Why a text has no value. Most faults make a text malformed; the others are found in a text that is
well formed, where a scalar has the form of a value that does not exist.

## Main definitions

* `Fault`, `Fault.message`: the causes and their wording
-/

namespace Toolgate.Yaml

/-- Why a text has no value. -/
inductive Fault where
  /-- The text is not well formed, or a part of it stands for no value. -/
  | malformed
  /-- An escape names a code point beyond the last one. -/
  | codeTooLarge
  /-- An escape names a number beyond the signed 32-bit integers. -/
  | codeTooWide
  /-- A timestamp names a day or an hour that does not exist. -/
  | calendar (error : CalendarError)
  /-- The digits of an integer are not of its base. -/
  | notInteger (base : Nat) (digits : String)
  /-- An integer has more digits than may be read. -/
  | tooManyDigits (digits : Nat)
  /-- A floating-point number cannot be read. -/
  | notNumber (text : String)
  /-- A number is said to be written by an empty text. -/
  | emptyNumber
  /-- A text is said to be a truth value and is none. -/
  | notTruth
  /-- A text is said to be a timestamp and is none. -/
  | notTimestamp

/-- The wording of a fault; two have none beside their kind. -/
def Fault.message : Fault → String
  | .malformed => "the text is malformed"
  | .codeTooLarge => "chr() arg not in range(0x110000)"
  | .codeTooWide => "Python int too large to convert to C int"
  | .calendar error => error.message
  | .notInteger base digits =>
    "invalid literal for int() with base " ++ Decimal.natText base ++ ": " ++ Text.quoted digits
  | .tooManyDigits digits => Decimal.tooManyDigits digits
  | .notNumber text => "could not convert string to float: " ++ Text.quoted text
  | .emptyNumber => "string index out of range"
  | .notTruth => ""
  | .notTimestamp => ""

end Toolgate.Yaml
