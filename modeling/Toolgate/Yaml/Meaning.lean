import Toolgate.Decimal.Reading
import Toolgate.Json.Loaded
import Toolgate.Text.Case
import Toolgate.Yaml.Fault

/-!
# Meaning of scalars

What kind of value a scalar stands for. A plain scalar tells it by its form: truth values are
spelled `yes` or `no`, `true` or `false`, `on` or `off`; integers may be in base 2, 8, 10 and 16 or
in groups of base 60; a floating-point number has a point, and its exponent has a sign.

## Main definitions

* `Tag`, `plainTag`: the kinds of values, and the kind of a plain scalar
* `scalarValue`: the value of a scalar of a given kind
-/

namespace Toolgate.Yaml

open Toolgate.Text (isAsciiDigit)

/-- The kinds of values. -/
inductive Tag where
  | null
  | truth
  | integer
  | number
  | timestamp
  | text
  | sequence
  | mapping
  /-- As a key: the fields of other mappings are taken over. -/
  | merge
  /-- The equals sign, which stands for a value only as a key. -/
  | equals
  /-- Any kind without values. -/
  | unknown
  deriving DecidableEq

/-- What the tags of the standard begin with. -/
def standardPrefix : String := "tag:yaml.org,2002:"

/-- The kind that a tag names. -/
def Tag.ofUri (uri : String) : Tag :=
  match Text.after? standardPrefix.toList uri.toList with
  | none => .unknown
  | some rest =>
    match String.ofList rest with
    | "null" => .null
    | "bool" => .truth
    | "int" => .integer
    | "float" => .number
    | "timestamp" => .timestamp
    | "str" => .text
    | "seq" => .sequence
    | "map" => .mapping
    | "merge" => .merge
    | "value" => .equals
    | _ => .unknown

/-! ## Forms -/

/-- A text without a sign at its head. -/
def unsignedPart (cs : List Char) : List Char :=
  match cs with
  | c :: rest => if c == '+' || c == '-' then rest else cs
  | [] => []

/-- Digits and underscores, and a digit at the head. -/
def isDigits (cs : List Char) : Bool :=
  cs.head?.any isAsciiDigit && cs.all fun c => isAsciiDigit c || c == '_'

/-- A group of a number in base 60: up to two digits. -/
def isSexagesimal : List Char → Bool
  | [d] => isAsciiDigit d
  | [t, d] => '0' ≤ t && t ≤ '5' && isAsciiDigit d
  | _ => false

/-- Not empty, and all of a class or underscores. -/
def isRun (test : Char → Bool) (cs : List Char) : Bool :=
  !cs.isEmpty && cs.all fun c => test c || c == '_'

/-- The form of an integer without its sign. -/
def isUnsignedInteger (cs : List Char) : Bool :=
  match cs with
  | ['0'] => true
  | '0' :: 'b' :: rest => isRun (fun c => c == '0' || c == '1') rest
  | '0' :: 'x' :: rest => isRun (fun c => (Text.hexValue? c).isSome) rest
  | '0' :: rest => isRun (fun c => '0' ≤ c && c ≤ '7') rest
  | _ =>
    match Text.splitAt ':' cs with
    | whole :: groups => isDigits whole && groups.all isSexagesimal
    | [] => false

/-- The form of an exponent, or nothing. -/
def isExponent : List Char → Bool
  | [] => true
  | e :: sign :: digits =>
    (e == 'e' || e == 'E') && (sign == '+' || sign == '-') && !digits.isEmpty
      && digits.all isAsciiDigit
  | _ => false

/-- Digits and underscores at the head of a text. -/
def digitRun (cs : List Char) : List Char :=
  cs.takeWhile fun c => isAsciiDigit c || c == '_'

/-- The form of the part of a number after its point. -/
def isFraction (cs : List Char) : Bool :=
  isExponent (cs.drop (digitRun cs).length)

/-- The form of a floating-point number with digits ahead of the point. -/
def hasWholePart (cs : List Char) : Bool :=
  let whole := cs.takeWhile (· != '.')
  match cs.drop whole.length, Text.splitAt ':' whole with
  | _ :: fraction, [digits] => isDigits digits && isFraction fraction
  | _ :: fraction, digits :: groups =>
    isDigits digits && groups.all isSexagesimal && digitRun fraction == fraction
  | _, _ => false

/-- The form of a floating-point number. -/
def isNumber (cs : List Char) : Bool :=
  match cs with
  | '.' :: rest =>
    (rest.head?.any isAsciiDigit && isFraction rest)
      || ["inf", "Inf", "INF", "nan", "NaN", "NAN"].contains (String.ofList rest)
  | _ =>
    hasWholePart (unsignedPart cs)
      || [".inf", ".Inf", ".INF"].contains (String.ofList (unsignedPart cs))

/-- The words for truth values. -/
def truthWords : List String :=
  ["yes", "Yes", "YES", "no", "No", "NO", "true", "True", "TRUE", "false", "False", "FALSE", "on",
    "On", "ON", "off", "Off", "OFF"]

/-- The form of a timestamp: a date alone has two digits for month and day, and with a time of day
one digit is enough. -/
def isTimestamp (cs : List Char) : Bool :=
  (moment? cs).any fun m => m.time.isSome || cs.length == 10

/-- The kind of a plain scalar. -/
def plainTag (text : String) : Tag :=
  let cs := text.toList
  if ["", "~", "null", "Null", "NULL"].contains text then .null
  else if truthWords.contains text then .truth
  else if isNumber cs then .number
  else if isUnsignedInteger (unsignedPart cs) then .integer
  else if text == "<<" then .merge
  else if text == "=" then .equals
  else if isTimestamp cs then .timestamp
  else .text

/-! ## Values -/

/-- The number that digits write in a base. -/
def radixValue (base : Nat) (cs : List Char) : Except Fault Int :=
  if cs.isEmpty || !cs.all fun c => (Text.hexValue? c).any (· < base) then
    .error (.notInteger base (String.ofList cs))
  else .ok (cs.foldl (fun n c => n * base + (Text.hexValue? c).getD 0) 0 : Nat)

/-- The integer that a text writes in base 10. -/
def decimalValue (cs : List Char) : Except Fault Int :=
  match Decimal.integer? cs with
  | some n => .ok n
  | none =>
    if cs.all isAsciiDigit && Decimal.maxDigits < cs.length then .error (.tooManyDigits cs.length)
    else .error (.notInteger 10 (String.ofList cs))

/-- The number that groups of base 60 write. -/
def sexagesimalValue (groups : List Int) : Int :=
  groups.foldl (fun n group => n * 60 + group) 0

/-- The integer that a text without sign and underscores writes. -/
def unsignedInteger (cs : List Char) : Except Fault Int :=
  match cs with
  | [] => .error .emptyNumber
  | ['0'] => .ok 0
  | '0' :: 'b' :: rest => radixValue 2 rest
  | '0' :: 'x' :: rest => radixValue 16 rest
  | '0' :: _ => radixValue 8 cs
  | _ => (sexagesimalValue ·) <$> (Text.splitAt ':' cs).mapM decimalValue

/-- The integer that a text writes. -/
def integerValue (text : String) : Except Fault Int :=
  let cs := text.toList.filter (· != '_')
  if cs.head? == some '-' then (- ·) <$> unsignedInteger (unsignedPart cs)
  else unsignedInteger (unsignedPart cs)

/-- The floating-point number that a text writes without tags for infinity. -/
def plainNumber (cs : List Char) : Except Fault Float :=
  match Decimal.number? (String.ofList cs) with
  | some x => .ok x
  | none => .error (.notNumber (String.ofList cs))

/-- The sum of groups of base 60, the last of which comes first and counts `weight`. -/
def sexagesimalSum (weight : Nat) (sum : Float) : List Float → Float
  | [] => sum
  | x :: rest => sexagesimalSum (weight * 60) (sum + x * Float.ofNat weight) rest

/-- The floating-point number that a text without sign and underscores writes. -/
def unsignedNumber (cs : List Char) : Except Fault Float :=
  if cs == ".inf".toList then .ok (1 / 0)
  else if cs == ".nan".toList then .ok (0 / 0)
  else match Text.splitAt ':' cs with
  | _ :: _ :: _ =>
    (sexagesimalSum 1 0 ·.reverse) <$> (Text.splitAt ':' cs).mapM plainNumber
  | _ => plainNumber cs

/-- The floating-point number that a text writes. -/
def numberValue (text : String) : Except Fault Float :=
  let cs := (Text.lower text).toList.filter (· != '_')
  if cs.isEmpty then .error .emptyNumber
  else if cs.head? == some '-' then (- ·) <$> unsignedNumber (unsignedPart cs)
  else unsignedNumber (unsignedPart cs)

/-- The truth value that a word stands for, in any case. -/
def truthValue (text : String) : Except Fault Bool :=
  match Text.lower text with
  | "yes" | "true" | "on" => .ok true
  | "no" | "false" | "off" => .ok false
  | _ => .error .notTruth

/-- The timestamp that a text writes, in ISO 8601. -/
def timestampValue (text : String) : Except Fault String :=
  match moment? text.toList with
  | none => .error .notTimestamp
  | some moment =>
    match moment.error? with
    | some error => .error (.calendar error)
    | none => .ok moment.iso

/-- The value of a scalar of a given kind. -/
def scalarValue (tag : Tag) (text : String) : Except Fault Scalar :=
  match tag with
  | .null => .ok .null
  | .truth => .truth <$> truthValue text
  | .integer => .integer <$> integerValue text
  | .number => .number <$> numberValue text
  | .timestamp => .date <$> timestampValue text
  | .text => .ok (.text text)
  | _ => .error .malformed

end Toolgate.Yaml
