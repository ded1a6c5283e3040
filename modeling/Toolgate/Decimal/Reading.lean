import Toolgate.Decimal.Notation
import Toolgate.Text.Edit

/-!
# Reading floating-point numbers

Readers of decimal numbers: the parts of a number at the head of a text, and whole texts that
write a number, `inf` or `nan`.

## Main definitions

* `spanDigits`, `readFraction`, `readExponent`: parts of a number
* `signed?`: the number that a list of characters writes
* `number?`: the same for a text with blanks around it, underscores and digits of any script
* `integer?`: the integer that such a text writes
-/

namespace Toolgate.Decimal

/-- The digits at the head of a text, and what follows them. -/
def spanDigits (cs : List Char) : List Char × List Char :=
  (cs.takeWhile Text.isAsciiDigit, cs.dropWhile Text.isAsciiDigit)

/-- A fraction at the head of a text: a point with at least one digit. -/
def readFraction (cs : List Char) : List Char × List Char :=
  match cs with
  | '.' :: rest =>
    match spanDigits rest with
    | ([], _) => ([], cs)
    | (digits, left) => (digits, left)
  | _ => ([], cs)

/-- An exponent at the head of a text: a letter, an optional sign and at least one digit. -/
def readExponent (cs : List Char) : Option Int × List Char :=
  match cs with
  | e :: rest =>
    if e == 'e' || e == 'E' then
      let (negative, body) := match rest with
        | '-' :: tail => (true, tail)
        | '+' :: tail => (false, tail)
        | _ => (false, rest)
      match spanDigits body with
      | ([], _) => (none, cs)
      | (digits, left) =>
        let n : Int := natValue digits
        (some (if negative then -n else n), left)
    else (none, cs)
  | [] => (none, cs)

/-- The text without the single underscores between its characters; none when one stands at an end
or beside another. -/
def withoutUnderscores? (cs : List Char) : Option (List Char) :=
  if cs.head? == some '_' || cs.getLast? == some '_' || Text.holds ['_', '_'] cs then none
  else some (cs.filter (· != '_'))

/-- The word of a text in small ASCII letters. -/
def smallWord (cs : List Char) : String :=
  String.ofList (cs.map Char.toLower)

/-- A number without its sign: `inf`, `infinity` or `nan` in any case, or digits with a point and
an exponent, with a digit on at least one side of the point. -/
def unsigned? (negative : Bool) (cs : List Char) : Option Float :=
  let word := smallWord cs
  if word == "inf" || word == "infinity" then some (if negative then -1 / 0 else 1 / 0)
  else if word == "nan" then some (0 / 0)
  else
    let (whole, afterWhole) := spanDigits cs
    let (fraction, afterFraction) := match afterWhole with
      | '.' :: rest => spanDigits rest
      | _ => ([], afterWhole)
    let (exponent, rest) := readExponent afterFraction
    if (whole.isEmpty && fraction.isEmpty) || !rest.isEmpty then none
    else some (nearest negative (natValue (whole ++ fraction))
      (exponent.getD 0 - fraction.length))

/-- A number with an optional sign. -/
def signed? : List Char → Option Float
  | '-' :: rest => unsigned? true rest
  | '+' :: rest => unsigned? false rest
  | cs => unsigned? false cs

/-- Underscores taken out where they stand between two digits. -/
def dropInnerUnderscores (afterDigit : Bool) : List Char → List Char
  | [] => []
  | c :: rest =>
    if c == '_' && afterDigit && rest.head?.any Text.isAsciiDigit then
      dropInnerUnderscores false rest
    else c :: dropInnerUnderscores (Text.isAsciiDigit c) rest

/-- A character, or the ASCII digit of its value. -/
def asciiDigit (c : Char) : Char :=
  match Text.decimalValue c with
  | some d => digitChar d
  | none => c

/-- The number that a text writes: blanks around it, underscores between digits, and digits of any
script. -/
def number? (s : String) : Option Float :=
  signed? (dropInnerUnderscores false ((Text.trim Text.isSeparatorBlank s.toList).map asciiDigit))

/-- The integer that a text writes: blanks around it, a sign, and digits of any script with single
underscores between them. -/
def integer? (cs : List Char) : Option Int :=
  let trimmed := (Text.trim Text.isSeparatorBlank cs).map asciiDigit
  let (negative, body) := match trimmed with
    | '-' :: rest => (true, rest)
    | '+' :: rest => (false, rest)
    | _ => (false, trimmed)
  match withoutUnderscores? body with
  | some digits =>
    if !digits.isEmpty && digits.all Text.isAsciiDigit && digits.length ≤ maxDigits then
      let n : Int := natValue digits
      some (if negative then -n else n)
    else none
  | none => none

end Toolgate.Decimal
