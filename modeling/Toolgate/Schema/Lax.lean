import Toolgate.Decimal.Reading
import Toolgate.Schema.Complaint
import Toolgate.Text.Case
import Toolgate.Text.Edit

/-!
# Lax readings

A value of another type is accepted where it can be read without doubt: a whole number from a
text, a boolean or a whole floating-point number, a number from a text, a boolean or an integer,
and a boolean from a few texts and numbers.

## Main definitions

* `readWhole`, `readNumber`, `readTruth`: the reading of a value, and how close the value was
* `Closeness`: exactly of the type, of a narrower type, or converted
-/

namespace Toolgate.Schema

/-- How close a value is to the type it is read as. -/
inductive Closeness where
  | lax
  | strict
  | exact
  deriving Repr, DecidableEq, Inhabited

namespace Closeness

/-- The place of a closeness in the order. -/
def rank : Closeness → Nat
  | lax => 0
  | strict => 1
  | exact => 2

/-- The lesser of two. -/
def meet (a b : Closeness) : Closeness :=
  if a.rank ≤ b.rank then a else b

end Closeness

/-- The rest after leading zeros of a number, single underscores among them passed over; the last
zero stays when no other digit follows it. -/
def dropZeros : List Char → List Char
  | '0' :: '_' :: '0' :: rest => dropZeros ('0' :: rest)
  | '0' :: '_' :: c :: rest => if Text.isAsciiDigit c then c :: rest else '0' :: '_' :: c :: rest
  | '0' :: c :: rest =>
    if c == '0' then dropZeros (c :: rest)
    else if Text.isAsciiDigit c then c :: rest else '0' :: c :: rest
  | cs => cs

/-- The text without a fraction of zeros. -/
def dropZeroFraction (cs : List Char) : List Char :=
  let whole := cs.takeWhile (· != '.')
  match cs.drop whole.length with
  | _ :: fraction =>
    if !fraction.isEmpty && fraction.all (· == '0') then whole else cs
  | [] => cs

/-- The natural number that a list of ASCII digits writes. -/
def digits? (cs : List Char) : Option Nat :=
  if !cs.isEmpty && cs.all Text.isAsciiDigit then some (Decimal.natValue cs) else none

/-- The natural number of digits with underscores between them and a fraction of zeros. -/
def magnitude? (cs : List Char) : Option Nat :=
  (Decimal.withoutUnderscores? cs).bind fun kept => digits? (dropZeroFraction kept)

/-- The integer that a text writes: blanks around it, a sign, underscores between digits, and a
fraction of zeros. A negative number has no leading zeros. -/
def wholeOfText? (s : String) : Option Int :=
  let cs := Text.trim Text.isSeparatorBlank s.toList
  match cs with
  | '-' :: '0' :: c :: _ => if c == '.' then negative? cs.tail else none
  | '-' :: rest => negative? rest
  | '+' :: rest => positive? rest
  | _ => positive? cs
where
  /-- A number without its sign. -/
  positive? (cs : List Char) : Option Int :=
    (magnitude? (dropZeros cs)).map Int.ofNat
  /-- A number whose minus sign has been passed. -/
  negative? (cs : List Char) : Option Int :=
    (magnitude? cs).map fun n => -(n : Int)

/-- The most characters of a text that is read as an integer. -/
def wholeTextLimit : Nat := 4300

/-- The integer a value is read as. -/
def readWhole : Json → Except Complaint (Int × Closeness)
  | .int n => .ok (n, .exact)
  | .bool b => .ok (if b then 1 else 0, .lax)
  | .float x =>
    if !x.isFinite then .error .notFinite
    else match Decimal.wholeValue? x with
    | none => .error .fractional
    | some n =>
      if n.natAbs < Decimal.wordLimit then .ok (n, .lax) else .error .wholeTooLarge
  | .str s =>
    if wholeTextLimit < (Text.trim Text.isSeparatorBlank s.toList).length then
      .error .wholeTooLarge
    else match wholeOfText? s with
    | some n => .ok (n, .lax)
    | none => .error .unreadableWhole
  | _ => .error .notWhole

/-- The number that a text writes: with blanks around it, or with underscores between digits. -/
def numberOfText? (s : String) : Option Float :=
  let cs := s.toList
  match Decimal.signed? (Text.trim Text.isSeparatorBlank cs) with
  | some x => some x
  | none => (Decimal.withoutUnderscores? cs).bind Decimal.signed?

/-- The number a value is read as. -/
def readNumber : Json → Except Complaint (Float × Closeness)
  | .float x => .ok (x, .exact)
  | .int n =>
    match Decimal.ofInt? n with
    | some x => .ok (x, .strict)
    | none => .error .notNumber
  | .bool b => .ok (if b then 1 else 0, .lax)
  | .str s =>
    match numberOfText? s with
    | some x => .ok (x, .lax)
    | none => .error .unreadableNumber
  | _ => .error .notNumber

/-- Texts that are read as true. -/
def trueWords : List String := ["1", "on", "t", "true", "y", "yes"]

/-- Texts that are read as false. -/
def falseWords : List String := ["0", "off", "f", "false", "n", "no"]

/-- The boolean that an integer is read as. Integers that fit no machine word are not even of the
right type. -/
def truthOfWhole (n : Int) : Except Complaint (Bool × Closeness) :=
  if n == 0 then .ok (false, .lax)
  else if n == 1 then .ok (true, .lax)
  else if Decimal.fitsWord n then .error .unreadableTruth
  else .error .notTruth

/-- The boolean a value is read as. -/
def readTruth : Json → Except Complaint (Bool × Closeness)
  | .bool b => .ok (b, .exact)
  | .int n => truthOfWhole n
  | .float x =>
    match Decimal.wholeValue? x with
    | some n => truthOfWhole n
    | none => .error .notTruth
  | .str s =>
    let word := Decimal.smallWord s.toList
    if falseWords.contains word then .ok (false, .lax)
    else if trueWords.contains word then .ok (true, .lax)
    else .error .unreadableTruth
  | _ => .error .notTruth

end Toolgate.Schema
