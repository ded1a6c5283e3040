import Toolgate.Decimal.Notation
import Toolgate.Json.Display
import Toolgate.Json.Pointer
import Toolgate.Schema.Shape

/-!
# Complaints

Why a value does not have a shape, and where in the value that was found.

## Main definitions

* `Complaint`: the reasons, with `Complaint.code` and `Complaint.message`
* `Trouble`: a complaint with the path to what it is about
-/

namespace Toolgate.Schema

/-- Why a value does not have a shape. -/
inductive Complaint where
  | missing
  | notText
  | notWhole
  | notNumber
  | notTruth
  | notList
  | notTable
  | notRecord (name : String)
  | unreadableWhole
  /-- A number with a fractional part where a whole one is asked for. -/
  | fractional
  | wholeTooLarge
  | notFinite
  | unreadableNumber
  | unreadableTruth
  | tooShort (limit : Nat)
  | tooLong (limit : Nat)
  | mismatch (pattern : String)
  | notAbove (bound : Amount)
  | notAtLeast (bound : Amount)
  | notBelow (bound : Amount)
  | notAtMost (bound : Amount)
  | notMultiple (of : Amount)
  | notMember (members : List Json)
  | noTimestamp
  /-- A text that begins like a timestamp and is none, or has no offset. -/
  | noOffset

/-- A bound in a message; whole numbers have no point. -/
def Amount.shown : Amount → String
  | .whole n => Decimal.intText n
  | .real x => Decimal.positional.text x

/-- Alternatives in a message: commas between them, and `or` before the last. -/
def orList : List String → String
  | [] => ""
  | [s] => s
  | [s, t] => s ++ " or " ++ t
  | s :: rest => s ++ ", " ++ orList rest

/-- A number of characters. -/
def characters (n : Nat) : String :=
  Decimal.natText n ++ if n == 1 then " character" else " characters"

namespace Complaint

/-- The code of a complaint. -/
def code : Complaint → String
  | missing => "missing"
  | notText => "string_type"
  | notWhole => "int_type"
  | notNumber => "float_type"
  | notTruth => "bool_type"
  | notList => "list_type"
  | notTable => "dict_type"
  | notRecord _ => "model_type"
  | unreadableWhole => "int_parsing"
  | fractional => "int_from_float"
  | wholeTooLarge => "int_parsing_size"
  | notFinite => "finite_number"
  | unreadableNumber => "float_parsing"
  | unreadableTruth => "bool_parsing"
  | tooShort _ => "string_too_short"
  | tooLong _ => "string_too_long"
  | mismatch _ => "string_pattern_mismatch"
  | notAbove _ => "greater_than"
  | notAtLeast _ => "greater_than_equal"
  | notBelow _ => "less_than"
  | notAtMost _ => "less_than_equal"
  | notMultiple _ => "multiple_of"
  | notMember _ => "literal_error"
  | noTimestamp => "value_error"
  | noOffset => "value_error"

/-- The wording of a complaint. -/
def message : Complaint → String
  | missing => "Field required"
  | notText => "Input should be a valid string"
  | notWhole => "Input should be a valid integer"
  | notNumber => "Input should be a valid number"
  | notTruth => "Input should be a valid boolean"
  | notList => "Input should be a valid list"
  | notTable => "Input should be a valid dictionary"
  | notRecord name => "Input should be a valid dictionary or instance of " ++ name
  | unreadableWhole =>
    "Input should be a valid integer, unable to parse string as an integer"
  | fractional => "Input should be a valid integer, got a number with a fractional part"
  | wholeTooLarge =>
    "Unable to parse input string as an integer, exceeded maximum size"
  | notFinite => "Input should be a finite number"
  | unreadableNumber => "Input should be a valid number, unable to parse string as a number"
  | unreadableTruth => "Input should be a valid boolean, unable to interpret input"
  | tooShort n => "String should have at least " ++ characters n
  | tooLong n => "String should have at most " ++ characters n
  | mismatch pattern => "String should match pattern '" ++ pattern ++ "'"
  | notAbove bound => "Input should be greater than " ++ bound.shown
  | notAtLeast bound => "Input should be greater than or equal to " ++ bound.shown
  | notBelow bound => "Input should be less than " ++ bound.shown
  | notAtMost bound => "Input should be less than or equal to " ++ bound.shown
  | notMultiple of => "Input should be a multiple of " ++ of.shown
  | notMember members => "Input should be " ++ orList (Json.shownItems members)
  | noTimestamp => "Value error, expected an ISO 8601 timestamp"
  | noOffset => "Value error, expected an ISO 8601 timestamp with a UTC offset"

end Complaint

/-- A complaint, and the path to the part of the value that it is about. -/
structure Trouble where
  path : List Step
  complaint : Complaint

/-- The trouble of a value as that of a value it is a part of. -/
def Trouble.inside (step : Step) (trouble : Trouble) : Trouble :=
  { trouble with path := step :: trouble.path }

end Toolgate.Schema
